import LocalMetric.Clustering.Selection
import LocalMetric.Proofs.DensityClusterings
import LocalMetric.Proofs.Doubles
import LocalMetric.Proofs.NumberTexts
/-!
# Names of clusterings

The name of a clustering shows its radius with six significant digits. So clusterings have one name
exactly if their radii round to one number, and a report that names the winner points to a single
clustering exactly if no two radii do.
-/
namespace LocalMetric

open Decimal (Style rounded significant)

/-! ## Names -/

theorem brief_eq {x : Float} {m : ℕ} {q : ℤ}
    (decoded : Decimal.BinaryFormat.double.decode x.toBits.toNat = .finite false m q) :
    (Numeral.brief x).toList = Style.brief.layout ((rounded 6 m q).trimmed 6).digits
      ((rounded 6 m q).trimmed 6).leading ((rounded 6 m q).trimmed 6).leading := by
  have text : Numeral.brief x = Decimal.briefText .double x.toBits.toNat := rfl
  rw [text, Decimal.briefText, decoded, Style.text, String.toList_ofList]
  rfl

/-- Short texts agree where the numbers agree in six significant digits. -/
theorem brief_eq_iff {x y : Float} (first : 0 < x ∧ Scalar.isFinite x = true)
    (second : 0 < y ∧ Scalar.isFinite y = true) :
    Numeral.brief x = Numeral.brief y ↔
      significant 6 (magnitude x) = significant 6 (magnitude y) := by
  obtain ⟨m, q, hm, value, decoded⟩ := exists_decode first.1 first.2
  obtain ⟨m', q', hm', value', decoded'⟩ := exists_decode second.1 second.2
  obtain ⟨shown, canonical⟩ := Decimal.value_rounded_trimmed (by decide : 0 < 6) hm q
  obtain ⟨shown', canonical'⟩ := Decimal.value_rounded_trimmed (by decide : 0 < 6) hm' q'
  rw [value, value', ← shown, ← shown', ← String.toList_inj, brief_eq decoded, brief_eq decoded']
  constructor
  · exact Text.value_eq_of_layout_eq
  · intro same
    rw [canonical.eq_of_value_eq canonical' same]

namespace Variant

variable {v w : Variant Float}

theorem name_eq_iff (same : v.minimum = w.minimum) :
    v.name = w.name ↔ Numeral.brief v.radius = Numeral.brief w.radius := by
  rw [name, name, same, ← String.toList_inj, ← String.toList_inj]
  simp only [String.toList_append, List.append_cancel_right_eq, List.append_cancel_left_eq]
  rfl

section Answers

variable {distances : Tensor Float} {n : ℕ} {d : Mat Float n n} {minimum : Int}
  {radii : List Float} {variants : List (Variant Float)}

theorem answers_radius (answers : List.Forall₂ (Answers distances d minimum) radii variants) :
    ∀ v ∈ variants, Answers distances d minimum v.radius v := by
  rw [radii_eq_map answers, List.forall₂_map_left_iff, List.forall₂_same] at answers
  exact answers

theorem name_eq_iff_significant (first : Answers distances d minimum v.radius v)
    (second : Answers distances d minimum w.radius w) :
    v.name = w.name ↔
      significant 6 (magnitude v.radius) = significant 6 (magnitude w.radius) := by
  rw [name_eq_iff (first.minimum_eq.trans second.minimum_eq.symm)]
  exact brief_eq_iff ⟨first.accepted.1, first.accepted.2.1⟩ ⟨second.accepted.1, second.accepted.2.1⟩

theorem map_name_nodup_iff (answers : List.Forall₂ (Answers distances d minimum) radii variants) :
    (variants.map name).Nodup ↔ (radii.map fun r => significant 6 (magnitude r)).Nodup := by
  have each := answers_radius answers
  have alike (v w : Variant Float) (hv : v ∈ variants) (hw : w ∈ variants) :=
    name_eq_iff_significant (each v hv) (each w hw)
  rw [radii_eq_map answers, List.map_map, List.Nodup, List.Nodup, List.pairwise_map,
    List.pairwise_map]
  constructor
  · intro distinct
    exact distinct.imp_of_mem fun hv hw ne same => ne ((alike _ _ hv hw).mpr same)
  · intro distinct
    exact distinct.imp_of_mem fun hv hw ne same => ne ((alike _ _ hv hw).mp same)

end Answers

/-- A report that shows the algorithm and the name of exactly one of the clusterings. -/
def Identified (variants : List (Variant Float)) (report : Json Float) : Prop :=
  ∃! i : Fin variants.length,
    variants[i].toJson.get? "algorithm" = report.get? "algorithm" ∧
      variants[i].toJson.get? "variant" = report.get? "variant"

theorem identified_of_shows {variants : List (Variant Float)} (distinct : (variants.map name).Nodup)
    (member : v ∈ variants) {report : Json Float}
    (shows : report.get? "algorithm" = some (.str algorithm) ∧
      report.get? "variant" = some (.str v.name)) : Identified variants report := by
  obtain ⟨i, bound, rfl⟩ := List.getElem_of_mem member
  have own (w : Variant Float) : w.toJson.get? "algorithm" = some (.str algorithm) ∧
      w.toJson.get? "variant" = some (.str w.name) := ⟨rfl, rfl⟩
  refine ⟨⟨i, bound⟩, ⟨?_, ?_⟩, ?_⟩
  · exact (own _).1.trans shows.1.symm
  · exact (own _).2.trans shows.2.symm
  · rintro ⟨j, bound'⟩ ⟨_, same⟩
    have named : variants[j].name = variants[i].name :=
      Json.str.inj (Option.some.inj (((own _).2.symm.trans same).trans shows.2))
    rw [List.Nodup, List.pairwise_map, List.pairwise_iff_getElem] at distinct
    rcases lt_trichotomy j i with before | rfl | after
    · exact absurd named (distinct j i bound' bound before)
    · rfl
    · exact absurd named.symm (distinct i j bound bound' after)

end Variant

namespace Selection

variable {variants : List (Variant Float)} {report : Json Float}

theorem identified_winner (distinct : (variants.map Variant.name).Nodup)
    (shown : (winner (variants.map Variant.candidate)).get? "winner" = some report) :
    Variant.Identified variants report := by
  rw [winner] at shown
  cases chosen : firstBest Candidate.selectionValue (variants.map Variant.candidate) with
  | none =>
      rw [chosen] at shown
      cases shown
  | some best =>
      rw [chosen] at shown
      obtain ⟨v, member, rfl⟩ := List.mem_map.mp (mem_of_firstBest chosen).1
      obtain rfl := Option.some.inj shown
      exact Variant.identified_of_shows distinct member ⟨rfl, rfl⟩

theorem identified_bestAgreement (distinct : (variants.map Variant.name).Nodup)
    (shown : (bestAgreement (variants.map Variant.candidate)).get?
      "best_partition_model_by_ari" = some report) (filled : report ≠ .null) :
    Variant.Identified variants report := by
  rw [bestAgreement] at shown
  cases chosen : firstBest adjustedRand (variants.map Variant.candidate) with
  | none =>
      rw [chosen] at shown
      exact absurd (Option.some.inj shown).symm filled
  | some best =>
      rw [chosen] at shown
      obtain ⟨v, member, rfl⟩ := List.mem_map.mp (mem_of_firstBest chosen).1
      obtain rfl := Option.some.inj shown
      refine Variant.identified_of_shows distinct member ?_
      cases scored : v.external with
      | none => simp only [Variant.candidate, scored]; exact ⟨rfl, rfl⟩
      | some scores => simp only [Variant.candidate, scored]; exact ⟨rfl, rfl⟩

end Selection

section Runs

variable {distances : Tensor Float} {truth : Option (DataArray Float)} {minimum : Int}
  {evaluate : Bool} {radii : List Float} {variants : List (Variant Float)}

/-- Clusterings with different radii have different names exactly if no two of the radii round to
the same six significant digits, so at least if each radius exceeds those before it by a
hundred-thousandth of itself. With different names the reports about the best clustering point to
exactly one entry. -/
theorem variant_names
    (ran : Clustering.run distances truth radii minimum evaluate = .ok variants) :
    ((variants.map Variant.name).Nodup ↔
      (radii.map fun r => significant 6 (magnitude r)).Nodup) ∧
    (radii.Pairwise (fun r s => magnitude r < magnitude s ∧
      magnitude s / 10 ^ 5 ≤ magnitude s - magnitude r) → (variants.map Variant.name).Nodup) ∧
    ((variants.map Variant.name).Nodup →
      (∀ report, (Selection.winner (variants.map Variant.candidate)).get? "winner" = some report →
        Variant.Identified variants report) ∧
      ∀ report, (Selection.bestAgreement (variants.map Variant.candidate)).get?
        "best_partition_model_by_ari" = some report → report ≠ .null →
          Variant.Identified variants report) := by
  obtain ⟨n, d, _, answers⟩ := Clustering.answers_of_run ran
  have names := Variant.map_name_nodup_iff answers
  refine ⟨names, ?_, ?_⟩
  · intro apart
    rw [names, List.Nodup, List.pairwise_map]
    refine apart.imp_of_mem fun {r s} hr _ gap => ?_
    obtain ⟨v, member, rfl⟩ := List.mem_map.mp (Variant.radii_eq_map answers ▸ hr)
    have accepted := (Variant.answers_radius answers v member).accepted
    exact Decimal.significant_ne (by decide) (magnitude_pos accepted.1 accepted.2.1) gap.2 gap.1
  · intro distinct
    exact ⟨fun _ shown => Selection.identified_winner distinct shown,
      fun _ shown filled => Selection.identified_bestAgreement distinct shown filled⟩

def closeAndFar : Mat Float 3 3 := #v[#v[0, 1.00000015, 10], #v[1.00000015, 0, 10], #v[10, 10, 0]]

theorem exists_closeAndFar (radii : List Float)
    (positive : ∀ radius ∈ radii, 0 < radius ∧ Scalar.isFinite radius = true) :
    ∃ variants, Clustering.run (.ofMat closeAndFar) none radii 1 false = .ok variants :=
  Clustering.exists_answers (by decide) (by decide +kernel) (by decide +kernel) (by decide) positive
    nofun

theorem magnitude_one : magnitude 1 = 1 := by
  have unpacked : (1 : Float).toModel.unpack = .finite .positive (2 ^ 52) (-52) (by decide) := rfl
  rw [magnitude, unpacked]
  norm_num

theorem magnitude_two : magnitude 2.0 = 2 := by
  have unpacked : (2.0 : Float).toModel.unpack = .finite .positive (2 ^ 52) (-51) (by decide) := rfl
  rw [magnitude, unpacked]
  norm_num

theorem variant_names_closeAndFar :
    ∃ variants, Clustering.run (.ofMat closeAndFar) none [1, 2.0] 1 false = .ok variants ∧
      (variants.map Variant.name).Nodup := by
  obtain ⟨variants, ran⟩ := exists_closeAndFar [1, 2.0] (by decide +kernel)
  refine ⟨variants, ran, (variant_names ran).2.1 ?_⟩
  simp only [List.pairwise_cons, List.mem_singleton, forall_eq, List.not_mem_nil, false_implies,
    implies_true, List.Pairwise.nil, and_true, magnitude_one, magnitude_two]
  norm_num

/-- Two radii that are tried one after the other give different clusterings of one name. -/
theorem variant_names_collide :
    Selection.usableRadii [1.0000001, (1.0000002 : Float)] = [1.0000001, 1.0000002] ∧
    ∃ v w : Variant Float,
      Clustering.run (.ofMat closeAndFar) none [1.0000001, 1.0000002] 1 false = .ok [v, w] ∧
        v.name = w.name ∧ v.labels = [0, 1, 2] ∧ w.labels = [0, 0, 1] := by
  constructor
  · refine (congrArg (List.mergeSort · fun r s => decide (r ≤ s))
      (?_ : _ = [1.0000001, 1.0000002])).trans ?_
    · decide +kernel
    · exact List.mergeSort_of_pairwise (by decide +kernel)
  · obtain ⟨variants, ran⟩ := exists_closeAndFar [1.0000001, 1.0000002] (by decide +kernel)
    obtain ⟨v, rest, first, others, rfl⟩ :=
      List.forall₂_cons_left_iff.mp (Clustering.answers_of_square_run ran)
    obtain ⟨w, alone, second, nothing, rfl⟩ := List.forall₂_cons_left_iff.mp others
    obtain rfl := List.forall₂_nil_left_iff.mp nothing
    refine ⟨v, w, ran, ?_, ?_, ?_⟩
    · rw [Variant.name, Variant.name, first.radius_eq, first.minimum_eq, second.radius_eq,
        second.minimum_eq]
      decide +kernel
    · rw [first.labels_eq]
      decide +kernel
    · rw [second.labels_eq]
      decide +kernel

end Runs

end LocalMetric
