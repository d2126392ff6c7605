import LocalMetric.Proofs.Clusterings
import LocalMetric.Proofs.Doubles
/-!
# Radii in ascending order

The radii that are tried are sorted, and none of them is there twice. This takes an order that can be
relied on, and the positive numbers of finite size have one, the real numbers as well as the doubles.
-/
namespace LocalMetric

variable {α β : Type} [Scalar α] [LinearOrder β] {rank : α → β}

namespace Scalar

def IsRadius (x : α) : Prop := 0 < x ∧ isFinite x = true

structure Ranked (rank : α → β) : Prop where
  le_iff {x y : α} : IsRadius x → IsRadius y → (x ≤ y ↔ rank x ≤ rank y)
  lt_iff {x y : α} : IsRadius x → IsRadius y → (x < y ↔ rank x < rank y)
  beq_iff {x y : α} : IsRadius x → IsRadius y → ((x == y) = true ↔ rank x = rank y)

theorem ranked_real : Ranked fun x : ℝ => x where
  le_iff _ _ := Iff.rfl
  lt_iff _ _ := Iff.rfl
  beq_iff _ _ := beq_iff_eq

end Scalar

section Doubles

open Float.Model (UnpackedFloat)

/-- The exponent of a double and then its mantissa. -/
def doubleRank (x : Float) : ℤ ×ₗ ℕ :=
  match x.toModel.unpack with
  | .finite _ m e _ => toLex (e, m)
  | _ => toLex (0, 0)

/-- Positive doubles are compared by their exponents first. -/
theorem compare_unpack {x y : Float} (first : Scalar.IsRadius x) (second : Scalar.IsRadius y) :
    x.toModel.unpack.compare y.toModel.unpack = some (compare (doubleRank x) (doubleRank y)) := by
  obtain ⟨m, e, _, unpacked⟩ := exists_unpack first.1 first.2
  obtain ⟨m', e', _, unpacked'⟩ := exists_unpack second.1 second.2
  rw [doubleRank, doubleRank, unpacked, unpacked', Prod.Lex.compare_def]
  rfl

theorem Scalar.ranked_double : Ranked doubleRank where
  le_iff {x y} first second := by
    have same : x.toModel.unpack.le y.toModel.unpack =
        (compare (doubleRank x) (doubleRank y)).isLE := by
      rw [UnpackedFloat.le, compare_unpack first second]
      rfl
    rw [← compare_le_iff_le]
    refine Iff.trans ?_ Ordering.isLE_iff_ne_gt
    rw [← same]
    exact decide_eq_true_iff
  lt_iff {x y} first second := by
    have same : x.toModel.unpack.lt y.toModel.unpack =
        (compare (doubleRank x) (doubleRank y) == .lt) := by
      rw [UnpackedFloat.lt, compare_unpack first second]
      rfl
    rw [← compare_lt_iff_lt, ← beq_iff_eq, ← same]
    exact decide_eq_true_iff
  beq_iff {x y} first second := by
    have same : x.toModel.unpack.beq y.toModel.unpack =
        (compare (doubleRank x) (doubleRank y) == .eq) := by
      rw [UnpackedFloat.beq, compare_unpack first second]
      rfl
    refine Iff.trans (Iff.trans ?_ beq_iff_eq) compare_eq_iff_eq
    rw [← same]
    exact Iff.rfl

end Doubles

section Repetitions

variable {γ : Type} [BEq γ]

/-- What is left of a list if an item that equals an earlier one is left out. -/
structure Distinguished (l kept : List γ) : Prop where
  subset : ∀ x ∈ kept, x ∈ l
  apart : kept.Pairwise fun x y => (y == x) = false
  covered : ∀ x ∈ l, x ∈ kept ∨ ∃ y ∈ kept, (x == y) = true

theorem distinguished_eraseDups : ∀ l : List γ, Distinguished l l.eraseDups
  | [] => ⟨fun _ => id, .nil, fun _ member => nomatch member⟩
  | first :: rest => by
      -- Equal items are taken out of the rest first, so the recursion is on the length.
      have shorter : (rest.filter fun x => !x == first).length < rest.length + 1 :=
        Nat.lt_succ_of_le (List.length_filter_le _ _)
      obtain ⟨subset, apart, covered⟩ :=
        distinguished_eraseDups (rest.filter fun x => !x == first)
      rw [List.eraseDups_cons]
      refine ⟨fun x member => ?_, List.pairwise_cons.mpr ⟨fun x member => ?_, apart⟩,
        fun x member => ?_⟩
      · rcases List.mem_cons.mp member with rfl | later
        · exact List.mem_cons_self
        · exact List.mem_cons_of_mem _ (List.mem_filter.mp (subset x later)).1
      · exact (Bool.not_eq_true' _).mp (List.mem_filter.mp (subset x member)).2
      · rcases List.mem_cons.mp member with rfl | later
        · exact .inl List.mem_cons_self
        · cases same : x == first with
          | true => exact .inr ⟨first, List.mem_cons_self, same⟩
          | false =>
              have left : x ∈ rest.filter fun x => !x == first :=
                List.mem_filter.mpr ⟨later, (Bool.not_eq_true' _).mpr same⟩
              rcases covered x left with here | ⟨y, there, alike⟩
              · exact .inl (List.mem_cons_of_mem _ here)
              · exact .inr ⟨y, List.mem_cons_of_mem _ there, alike⟩
termination_by l => l.length

end Repetitions

namespace Selection

open Scalar (IsRadius Ranked)

variable {radii : List α}

theorem mem_of_usableRadii {x : α} (member : x ∈ usableRadii radii) : x ∈ radii ∧ ¬x ≤ 0 := by
  have kept := (distinguished_eraseDups _).subset x ((List.mergeSort_perm _ _).mem_iff.mp member)
  rwa [List.mem_filter, Bool.not_eq_true', decide_eq_false_iff_not] at kept

/-- A radius that is not zero or less is tried, or one that equals it. -/
theorem usableRadii_covers {x : α} (member : x ∈ radii) (positive : ¬x ≤ 0) :
    x ∈ usableRadii radii ∨ ∃ y ∈ usableRadii radii, (x == y) = true := by
  have given : x ∈ radii.filter fun r => !decide (r ≤ 0) :=
    List.mem_filter.mpr ⟨member, (Bool.not_eq_true' _).mpr (decide_eq_false positive)⟩
  rcases (distinguished_eraseDups _).covered x given with here | ⟨y, there, same⟩
  · exact .inl ((List.mergeSort_perm _ _).mem_iff.mpr here)
  · exact .inr ⟨y, (List.mergeSort_perm _ _).mem_iff.mpr there, same⟩

/-- The radii that are tried of those that are given: each of them once and in ascending order, and
none but those that are not zero or less. -/
structure Tries (given tried : List α) : Prop where
  ascending : tried.Pairwise (· < ·)
  positive : ∀ x ∈ tried, x ∈ given ∧ 0 < x
  complete : ∀ x ∈ given, ¬x ≤ 0 → ∃ y ∈ tried, (x == y) = true

theorem tries_usableRadii (ranked : Ranked rank) (usable : ∀ x ∈ usableRadii radii, IsRadius x) :
    Tries radii (usableRadii radii) := by
  have perm : (usableRadii radii).Perm (radii.filter fun r => !decide (r ≤ 0)).eraseDups :=
    List.mergeSort_perm _ _
  have kept (x : α) (member : x ∈ (radii.filter fun r => !decide (r ≤ 0)).eraseDups) : IsRadius x :=
    usable x (perm.mem_iff.mpr member)
  refine ⟨?_, fun x member => ⟨?_, (usable x member).1⟩, fun x member positive => ?_⟩
  · -- The ranks are sorted with the radii, and they are as different as these.
    have sorted : ((usableRadii radii).map rank).Pairwise (· ≤ ·) := by
      rw [usableRadii, List.map_mergeSort (s := fun a b => decide (a ≤ b))]
      · exact (List.pairwise_mergeSort (fun a b c => by simpa using le_trans)
          (fun a b => by simpa using le_total a b) _).imp of_decide_eq_true
      · intro x first y second
        rw [decide_eq_decide]
        exact ranked.le_iff (kept x first) (kept y second)
    have distinct : ((usableRadii radii).map rank).Nodup := by
      rw [(perm.map rank).nodup_iff, List.Nodup, List.pairwise_map]
      refine (distinguished_eraseDups _).apart.imp_of_mem fun {x y} first second other same => ?_
      rw [(ranked.beq_iff (kept y second) (kept x first)).mpr same.symm] at other
      cases other
    have ascending := (sorted.and distinct).imp fun pair => lt_of_le_of_ne pair.1 pair.2
    rw [List.pairwise_map] at ascending
    exact ascending.imp_of_mem fun first second below =>
      (ranked.lt_iff (usable _ first) (usable _ second)).mpr below
  · exact (mem_of_usableRadii member).1
  · rcases usableRadii_covers member positive with here | there
    · exact ⟨x, here, (ranked.beq_iff (usable x here) (usable x here)).mpr rfl⟩
    · exact there

end Selection

end LocalMetric
