import Mathlib.Algebra.BigOperators.Group.Finset.Basic
import Mathlib.Algebra.BigOperators.Intervals
import LocalMetric.Proofs.DoubleSums
import LocalMetric.Proofs.Summaries
/-!
# Counted dimensions

A summary counts how many points have each dimension. If all dimensions are among those that are
counted, no point is missed: the counts add up to the number of points, and the dimensions weighted by
their counts add up to what the mean is taken of. In doubles that sum is exact, and the mean is the
double nearest to the quotient.
-/
namespace LocalMetric

section Counts

variable {dims : List ℕ} {dim : ℕ}

theorem sum_count (inside : ∀ d ∈ dims, 1 ≤ d ∧ d ≤ dim) :
    ∑ k ∈ Finset.Icc 1 dim, dims.count k = dims.length := by
  have covered : ∀ d ∈ (dims : Multiset ℕ), d ∈ Finset.Icc 1 dim :=
    fun d member => Finset.mem_Icc.mpr (inside d member)
  simpa using Multiset.sum_count_eq_card covered

theorem sum_mul_count (inside : ∀ d ∈ dims, 1 ≤ d ∧ d ≤ dim) :
    ∑ k ∈ Finset.Icc 1 dim, k * dims.count k = dims.sum := by
  have covered : dims.toFinset ⊆ Finset.Icc 1 dim :=
    fun d member => Finset.mem_Icc.mpr (inside d (List.mem_toFinset.mp member))
  rw [Finset.sum_list_count_of_subset dims _ covered]
  exact Finset.sum_congr rfl fun k _ => Nat.mul_comm k _

end Counts

section Means

open Rounding (rounded)

/-- The mean of some whole numbers in doubles: their sum, taken in order, divided by how many there are. -/
structure IsMean (x : Float) (n total : ℕ) : Prop where
  taken : ∃ dims : List ℕ, dims.length = n ∧ dims.sum = total ∧
    x = listSum (dims.map nearestDouble) / nearestDouble n
  pos : total < 2 ^ 53 → 0 < x
  nearest : total < 2 ^ 53 → magnitude x = rounded (total / n)
  near : total < 2 ^ 53 → |magnitude x * n - total| ≤ total / 2 ^ 53
  exact : total < 2 ^ 53 → ∀ (m : ℕ) (e : ℤ), m < 2 ^ 53 → (total / n : ℚ) = m * 2 ^ e →
    magnitude x * n = total

theorem isMean_of_dims {dims : List ℕ} (filled : dims ≠ []) (positive : ∀ d ∈ dims, 0 < d) :
    IsMean (listSum (dims.map nearestDouble) / nearestDouble dims.length) dims.length dims.sum := by
  have count : 0 < dims.length := List.length_pos_iff.mpr filled
  have total : 0 < dims.sum := count.trans_le (List.length_le_sum_of_one_le dims positive)
  have many : (0 : ℚ) < dims.length := by exact_mod_cast count
  have nearest (small : dims.sum < 2 ^ 53) := (Rounding.isValue_mean filled positive small).magnitude_eq
  refine ⟨⟨dims, rfl, rfl, rfl⟩, fun small => ?_, nearest, fun small => ?_, fun small m e short same => ?_⟩
  · exact (Rounding.isValue_mean filled positive small).double_pos
  · rw [nearest small]
    exact Rounding.abs_rounded_div_mul_sub_le total count
  · have positive : 0 < m := by
      refine Nat.pos_of_ne_zero ?_
      rintro rfl
      have : (0 : ℚ) < dims.sum / dims.length := div_pos (by exact_mod_cast total) many
      rw [same, Nat.cast_zero, zero_mul] at this
      exact this.false
    rw [nearest small, same, Rounding.rounded_mul_pow positive short, ← same]
    exact div_mul_cancel₀ _ many.ne'

end Means

section Summaries

/-- A report about the dimensions of some points: how many points there are, how many of them have each
dimension from one on, and the mean of these dimensions. -/
structure Tallies (n dim : ℕ) (summary : Json Float) : Prop where
  points : summary.get? "n_points" = some (.int n)
  counted : ∃ (count : ℕ → ℕ) (mean : Float),
    summary.get? "histogram" =
      some (.obj ((List.range dim).map fun i => (toString (i + 1), .int (count (i + 1))))) ∧
    ∑ k ∈ Finset.Icc 1 dim, count k = n ∧ ∑ k ∈ Finset.Icc 1 dim, k * count k ≤ n * dim ∧
    summary.get? "mean_correlation_dimension" = some (.num mean) ∧
    IsMean mean n (∑ k ∈ Finset.Icc 1 dim, k * count k)

variable {α : Type} [Scalar α]

theorem DimensionSummary.histogram_ofDimensions {dims : List ℕ} {dim : ℕ}
    (inside : ∀ d ∈ dims, 1 ≤ d ∧ d ≤ dim) :
    (ofDimensions (dims.map Int.ofNat) dim : DimensionSummary α).histogram =
      (List.range dim).map fun i => dims.count (i + 1) := by
  have top : (dims.map Int.ofNat).foldl max (dim : Int) = dim := by
    refine foldl_max_of_le fun d member => ?_
    obtain ⟨k, known, rfl⟩ := List.mem_map.mp member
    exact Int.ofNat_le.mpr (inside k known).2
  rw [ofDimensions, top]
  refine List.map_congr_left fun i _ => ?_
  exact List.count_map_of_injective dims Int.ofNat (fun _ _ => Int.ofNat.inj) (i + 1)

theorem DimensionSummary.mean_ofDimensions {dims : List ℕ} (filled : dims ≠ []) (dim : ℕ) :
    (ofDimensions (dims.map Int.ofNat) dim : DimensionSummary α).mean =
      some (listSum (dims.map fun d : ℕ => Scalar.ofInt d) / (dims.length : α)) := by
  have nonempty : (dims.map Int.ofNat).isEmpty = false :=
    List.isEmpty_eq_false_iff.mpr (mt List.map_eq_nil_iff.mp filled)
  rw [ofDimensions, nonempty, List.length_map, List.map_map]
  rfl

theorem tallies_ofDimensions {dims : List ℕ} {dim : ℕ} (filled : dims ≠ [])
    (inside : ∀ d ∈ dims, 1 ≤ d ∧ d ≤ dim) :
    Tallies dims.length dim
      (DimensionSummary.ofDimensions (dims.map Int.ofNat) dim : DimensionSummary Float).toJson where
  points := congrArg (fun n : ℕ => some (Json.int n)) (List.length_map Int.ofNat)
  counted := by
    refine ⟨dims.count, listSum (dims.map nearestDouble) / nearestDouble dims.length, ?_,
      sum_count inside, ?_, ?_, ?_⟩
    · refine congrArg (fun fields => some (Json.obj fields)) ?_
      rw [DimensionSummary.histogram_ofDimensions inside]
      refine List.ext_getElem (by simp) fun i _ _ => ?_
      simp only [List.getElem_mapIdx, List.getElem_map, List.getElem_range]
    · rw [sum_mul_count inside]
      exact List.sum_le_card_nsmul dims dim fun d member => (inside d member).2
    · exact congrArg (fun mean => some (Json.ofNum? mean))
        (DimensionSummary.mean_ofDimensions filled dim)
    · rw [sum_mul_count inside]
      exact isMean_of_dims filled fun d member => (inside d member).1

/-- The dimensions of rows that are reported are counted without exception. -/
theorem tallies_of_rows {rows : List (PointSummary Float)} {dim : ℕ} (filled : rows ≠ [])
    (inside : ∀ row ∈ rows, 1 ≤ row.correlationDimension ∧ row.correlationDimension ≤ dim) :
    Tallies rows.length dim (summarizeDimensions rows dim).toJson := by
  have summary : summarizeDimensions rows dim = (DimensionSummary.ofDimensions
      ((rows.map PointSummary.correlationDimension).map Int.ofNat) dim : DimensionSummary Float) := by
    rw [List.map_map]
    rfl
  have length : (rows.map PointSummary.correlationDimension).length = rows.length :=
    List.length_map PointSummary.correlationDimension
  rw [summary, ← length]
  refine tallies_ofDimensions (mt List.map_eq_nil_iff.mp filled) fun d member => ?_
  obtain ⟨row, known, rfl⟩ := List.mem_map.mp member
  exact inside row known

end Summaries

end LocalMetric
