import Mathlib.Algebra.Order.Field.Basic
import LocalMetric.Proofs.DensityClusterings
import LocalMetric.Proofs.ValidRuns
/-!
# Larger radii only merge clusters

With a larger radius core points stay core points and chains stay chains. So a point that has a
cluster keeps one, core points of one cluster stay together, and there is no more noise than before.
Labels do not say which cluster became which, and a point on the border of two may change sides.
-/
namespace LocalMetric

open Density

variable {n : ℕ} {d : Mat ℝ n n}

namespace Density

variable {r s : ℝ} {minimum : ℕ} {i j : Fin n}

theorem IsCore.mono (le : r ≤ s) (core_i : IsCore d r minimum i) : IsCore d s minimum i := by
  refine Nat.le_trans core_i (Finset.card_le_card fun j member => ?_)
  rw [Finset.mem_filter] at member ⊢
  exact ⟨member.1, member.2.trans le⟩

theorem Chained.mono (le : r ≤ s) (chained : Chained d r minimum i j) :
    Chained d s minimum i j := by
  refine Relation.ReflTransGen.mono ?_ i j chained
  rintro k l ⟨core_k, core_l, near⟩
  exact ⟨core_k.mono le, core_l.mono le, near.trans le⟩

/-- No cluster of core points is broken up, and no point becomes noise. -/
structure Coarsens (d : Mat ℝ n n) (radius : ℝ) (minimum : ℕ) (before after : Vector Int n) :
    Prop where
  kept : ∀ i, before.get i ≠ -1 → after.get i ≠ -1
  together : ∀ i j, IsCore d radius minimum i → IsCore d radius minimum j →
    before.get i = before.get j → after.get i = after.get j

variable {before after : Vector Int n}

theorem IsClustering.coarsens (le : r ≤ s) (first : IsClustering d r minimum before)
    (second : IsClustering d s minimum after) : Coarsens d r minimum before after := by
  constructor
  case kept =>
    intro p labelled
    rw [second.ne_noise_iff]
    rcases first.ne_noise_iff.mp labelled with core_p | ⟨i, core_i, near⟩
    · exact .inl (core_p.mono le)
    · exact .inr ⟨i, core_i.mono le, near.trans le⟩
  case together =>
    intro i j core_i core_j same
    rw [second.chained_iff i j (core_i.mono le) (core_j.mono le)]
    exact ((first.chained_iff i j core_i core_j).mp same).mono le

theorem length_negative (labels : Vector Int n) : (labels.toList.filter (· < 0)).length =
    (List.finRange n).countP fun p => decide (labels.get p < 0) := by
  rw [toList_eq_ofFn, List.ofFn_eq_map, ← List.countP_eq_length_filter, List.countP_map]
  rfl

/-- Where no point becomes noise there is no more noise. -/
theorem IsClustering.length_negative_le (clustering : IsClustering d s minimum after)
    (coarsens : Coarsens d r minimum before after) :
    (after.toList.filter (· < 0)).length ≤ (before.toList.filter (· < 0)).length := by
  rw [length_negative, length_negative]
  apply List.countP_mono_left
  intro p _ negative
  rw [decide_eq_true_eq] at negative ⊢
  by_contra nonneg
  apply coarsens.kept p (by omega)
  exact clustering.eq_noise_of_neg negative

end Density

section Runs

theorem noiseFraction_eq {labels : Vector Int n} {scores : InternalScores ℝ}
    (scored : internalScores (.ofMat d) labels.toList = .ok scores) :
    scores.noiseFraction = ((labels.toList.filter (· < 0)).length : ℝ) / n := by
  have shared : scores.noiseFraction = if n = 0 then 0 else
      ((labels.toList.filter (· < 0)).length : ℝ) / labels.toList.length := by
    cases scored
    rfl
  rw [shared, Vector.length_toList]
  split
  · rename_i empty
    rw [Nat.cast_eq_zero.mpr empty, div_zero]
  · rfl

variable [Numeral ℝ] {truth : Option (DataArray ℝ)} {minimum : Int} {evaluate : Bool}

/-- Along the clusterings with growing radii no point becomes noise, no core points are parted, and
the share of noise does not grow. -/
theorem growing_radii_merge (mirrored : ∀ i j, d.entry i j = d.entry j i) {radii : List ℝ}
    (ascending : radii.Pairwise (· ≤ ·)) :
    (∀ variants, Clustering.run (.ofMat d) truth radii minimum evaluate = .ok variants →
      variants.Pairwise fun v w => w.internal.noiseFraction ≤ v.internal.noiseFraction ∧
        ∃ before after : Vector Int n, v.labels = before.toList ∧ w.labels = after.toList ∧
          Coarsens d v.radius minimum.toNat before after) ∧
    (0 < n → d.Distances → 1 ≤ minimum → (∀ radius ∈ radii, 0 < radius) →
      (evaluate = true → ∀ labels : List Int, labels.length = n →
        ∃ scores, externalScores truth labels = .ok scores) →
      ∃ variants, Clustering.run (.ofMat d) truth radii minimum evaluate = .ok variants) := by
  constructor
  · intro variants ran
    refine Checked.pairwise_of_forall₂ (Clustering.answers_of_square_run ran) ascending ?_
    intro r s v w first second le
    have before : IsClustering d r minimum.toNat (labels d r minimum.toNat) :=
      isClustering_labels mirrored
    have after : IsClustering d s minimum.toNat (labels d s minimum.toNat) :=
      isClustering_labels mirrored
    have coarsens := before.coarsens le after
    constructor
    · have earlier := noiseFraction_eq (first.labels_eq ▸ first.internal_eq)
      have later := noiseFraction_eq (second.labels_eq ▸ second.internal_eq)
      rw [earlier, later]
      apply div_le_div_of_nonneg_right _ (Nat.cast_nonneg n)
      exact_mod_cast after.length_negative_le coarsens
    · exact ⟨_, _, first.labels_eq, second.labels_eq, first.radius_eq ▸ coarsens⟩
  · intro filled distances one_le positive comparable
    exact Clustering.exists_answers filled d.allFinite_real distances.nonneg one_le
      (fun radius member => ⟨positive radius member, rfl⟩) comparable

end Runs

section Squares

attribute [local instance] wholeNumeral

noncomputable def squares : Mat ℝ 4 4 := .ofFn fun i j => |(i.val : ℝ) ^ 2 - (j.val : ℝ) ^ 2|

theorem squares_distances : squares.Distances where
  nonneg i j := by
    rw [squares, Mat.entry_ofFn]
    exact abs_nonneg _
  diagonal i := by
    rw [squares, Mat.entry_ofFn, sub_self, abs_zero]

theorem growing_radii_merge_squares :
    ∃ variants, Clustering.run (.ofMat squares) none [1, 3, 5] 2 false = .ok variants ∧
      variants.Pairwise fun v w => w.internal.noiseFraction ≤ v.internal.noiseFraction ∧
        ∃ before after : Vector Int 4, v.labels = before.toList ∧ w.labels = after.toList ∧
          Coarsens squares v.radius 2 before after := by
  have mirrored (i j : Fin 4) : squares.entry i j = squares.entry j i := by
    rw [squares, Mat.entry_ofFn, Mat.entry_ofFn, abs_sub_comm]
  have ascending : ([1, 3, 5] : List ℝ).Pairwise (· ≤ ·) := by norm_num
  have positive : ∀ radius ∈ ([1, 3, 5] : List ℝ), 0 < radius := by norm_num
  have merges := @growing_radii_merge 4 squares _ none 2 false mirrored _ ascending
  obtain ⟨variants, ran⟩ := merges.2 (by decide) squares_distances (by decide) positive nofun
  exact ⟨variants, ran, merges.1 variants ran⟩

end Squares

end LocalMetric
