import Mathlib.Data.Fintype.Card
import Mathlib.Logic.Relation
import LocalMetric.Clustering.Density
import LocalMetric.Proofs.Matrices
/-!
# Floods reach what chains reach

A flood from some points takes a free point exactly if a chain of core points leads there. As many
rounds as there are points are enough, since every round before the last one takes another point.
-/
namespace LocalMetric.Density

variable {n : ℕ} {near : Mat Bool n n} {core free taken : Vector Bool n} {i j : Fin n}

/-- A core point passes the flood on to a free point within its radius. -/
def Flows (near : Mat Bool n n) (core free : Vector Bool n) (i j : Fin n) : Prop :=
  core.get i = true ∧ near.entry i j = true ∧ free.get j = true

def members (v : Vector Bool n) : Finset (Fin n) := Finset.univ.filter fun i => v.get i = true

theorem mem_members {v : Vector Bool n} : i ∈ members v ↔ v.get i = true := by
  simp only [members, Finset.mem_filter, Finset.mem_univ, true_and]

theorem get_spread : (spread near core free taken).get j = true ↔
    taken.get j = true ∨ ∃ i, taken.get i = true ∧ Flows near core free i j := by
  simp only [spread, get_ofFn, Bool.or_eq_true, Bool.and_eq_true, List.any_eq_true,
    List.mem_finRange, true_and, Flows]
  constructor
  · rintro (old | ⟨open_j, i, ⟨taken_i, core_i⟩, near_ij⟩)
    · exact .inl old
    · exact .inr ⟨i, taken_i, core_i, near_ij, open_j⟩
  · rintro (old | ⟨i, taken_i, core_i, near_ij, open_j⟩)
    · exact .inl old
    · exact .inr ⟨open_j, i, ⟨taken_i, core_i⟩, near_ij⟩

theorem card_lt_of_spread_ne (grows : spread near core free taken ≠ taken) :
    (members taken).card < (members (spread near core free taken)).card := by
  apply Finset.card_lt_card
  refine Finset.ssubset_iff_subset_ne.mpr ⟨?_, ?_⟩
  · intro i member
    exact mem_members.mpr (get_spread.mpr (.inl (mem_members.mp member)))
  · intro same
    apply grows
    apply get_injective
    funext i
    have alike := Finset.ext_iff.mp same i
    rw [mem_members, mem_members] at alike
    exact (Bool.eq_iff_iff.mpr alike).symm

section Flood

variable {rounds : ℕ}

theorem get_flood_of_taken (start : taken.get j = true) :
    (flood near core free rounds taken).get j = true := by
  induction rounds generalizing taken with
  | zero => exact start
  | succ rounds ih =>
      simp only [flood]
      split
      · exact start
      · exact ih (get_spread.mpr (.inl start))

theorem exists_chain_of_flood (reached : (flood near core free rounds taken).get j = true) :
    ∃ i, taken.get i = true ∧ Relation.ReflTransGen (Flows near core free) i j := by
  induction rounds generalizing taken with
  | zero => exact ⟨j, reached, .refl⟩
  | succ rounds ih =>
      simp only [flood] at reached
      split at reached
      · exact ⟨j, reached, .refl⟩
      · obtain ⟨i, spread_i, chain⟩ := ih reached
        rcases get_spread.mp spread_i with start | ⟨k, start, flows⟩
        · exact ⟨i, start, chain⟩
        · exact ⟨k, start, .head flows chain⟩

/-- After enough rounds nothing more can be reached in one step. -/
theorem flood_closed (enough : n ≤ (members taken).card + rounds)
    (reached : (flood near core free rounds taken).get i = true)
    (flows : Flows near core free i j) :
    (flood near core free rounds taken).get j = true := by
  induction rounds generalizing taken with
  | zero =>
      have full : members taken = Finset.univ := by
        apply Finset.eq_univ_of_card
        apply le_antisymm (Finset.card_le_univ _)
        rw [Fintype.card_fin]
        exact enough
      exact mem_members.mp (full ▸ Finset.mem_univ j)
  | succ rounds ih =>
      simp only [flood] at reached ⊢
      split at reached
      · rename_i stable
        rw [if_pos stable, ← stable]
        exact get_spread.mpr (.inr ⟨i, reached, flows⟩)
      · rename_i grows
        rw [if_neg grows]
        -- A round that is not the last one takes another point, so one round less is enough.
        have more := card_lt_of_spread_ne grows
        exact ih (by omega) reached

theorem get_flood_iff (enough : n ≤ (members taken).card + rounds) :
    (flood near core free rounds taken).get j = true ↔
      ∃ i, taken.get i = true ∧ Relation.ReflTransGen (Flows near core free) i j := by
  constructor
  · exact exists_chain_of_flood
  · rintro ⟨i, start, chain⟩
    induction chain with
    | refl => exact get_flood_of_taken start
    | tail _ flows ih => exact flood_closed enough ih flows

end Flood

/-- A flood from one point reaches the ends of the chains from it. -/
theorem get_flood_from (seed : Fin n) :
    (flood near core free n (Vector.ofFn fun j => decide (j = seed))).get j = true ↔
      Relation.ReflTransGen (Flows near core free) seed j := by
  rw [get_flood_iff (Nat.le_add_left _ _)]
  simp only [get_ofFn, decide_eq_true_eq, exists_eq_left]

end LocalMetric.Density
