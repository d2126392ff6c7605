import LocalMetric.Proofs.Eigenpairs
import LocalMetric.Proofs.Dimensions
import LocalMetric.Proofs.Checked
import LocalMetric.Database
/-!
# What a local analysis comes to

Every neighborhood that passes its checks is analysed: a dimension is always selected, and it always
fits. In exact arithmetic the scatter matrix has no negative eigenvalue, so what is selected of the
clamped eigenvalues is the least number of them that reach the share of the variance.
-/
namespace LocalMetric

open Matrix

section Settings

/-- A configuration that its checks let through. -/
def Config.Accepted {α : Type} [Scalar α] (c : Config α) : Prop := ∃ r, Config.make r = .ok c

structure Config.Sound (c : Config ℝ) : Prop where
  threshold_pos : 0 < c.threshold
  threshold_le : c.threshold ≤ 1
  strong_pos : 0 < c.strong
  ordered : c.strong ≤ c.weak
  tolerance_nonneg : 0 ≤ c.tolerance

theorem Center.ofName_name {α : Type} (center : Center) :
    Center.ofName (α := α) center.name = .ok center := by
  cases center with
  | centroid => rfl
  | anchor => rfl

/-- The settings that are let through are those that fail none of the comparisons. -/
theorem Config.accepted_iff_checks {α : Type} [Scalar α] {c : Config α} :
    c.Accepted ↔ (0 < c.threshold ∧ c.threshold ≤ 1) ∧ ¬c.strong ≤ 0 ∧ ¬c.weak < c.strong ∧
      ¬c.tolerance < 0 := by
  constructor
  · rintro ⟨r, made⟩
    unfold Config.make at made
    split at made
    · cases made
    rename_i share
    split at made
    · cases made
    rename_i strong
    split at made
    · cases made
    rename_i ordered
    obtain ⟨center, _, made⟩ := Checked.bind_ok_iff.mp made
    split at made
    · cases made
    rename_i tolerance
    cases made
    exact ⟨not_not.mp share, strong, ordered, tolerance⟩
  · rintro ⟨share, strong, ordered, tolerance⟩
    refine ⟨⟨c.threshold, c.strong, c.weak, c.center.name, c.tolerance⟩, ?_⟩
    rw [Config.make, if_neg (not_not.mpr share), if_neg strong, if_neg ordered]
    refine Checked.bind_ok_iff.mpr ⟨c.center, Center.ofName_name _, ?_⟩
    rw [if_neg tolerance]

theorem Config.accepted_iff {c : Config ℝ} : c.Accepted ↔ c.Sound := by
  rw [accepted_iff_checks, not_le, not_lt, not_lt]
  constructor
  · rintro ⟨⟨positive, share⟩, strong, ordered, tolerance⟩
    exact ⟨positive, share, strong, ordered, tolerance⟩
  · intro sound
    exact ⟨⟨sound.threshold_pos, sound.threshold_le⟩, sound.strong_pos, sound.ordered,
      sound.tolerance_nonneg⟩

noncomputable def Config.usual : Config ℝ := ⟨0.85, 1, 100, .centroid, 1e-10⟩

theorem Config.usual_accepted : Config.usual.Accepted := by
  rw [Config.accepted_iff]
  constructor <;> norm_num [Config.usual]

end Settings

section Outcomes

variable {α : Type} [Scalar α]

def Neighborhood.pairs (s : Neighborhood α) (solver : Solver α) (center : Center) :
    Eigenpairs α s.dim :=
  sortedEigenpairs solver (s.scatter center)

/-- The outcome of the analysis of a neighborhood. -/
structure Neighborhood.Analyzed (s : Neighborhood α) (solver : Solver α) (config : Config α)
    (r : LocalPca α) : Prop where
  eigenvalues : r.eigenvalues =
    clampEigenvalues config.tolerance (s.pairs solver config.center).values.toList
  eigenvectors : r.eigenvectors = ⟨s.dim, s.dim, (s.pairs solver config.center).vectors⟩
  selected : selectDimension config.threshold r.eigenvalues = .ok r.correlationDimension
  inside : r.correlationDimension ≤ s.dim
  weights : Database.fitted s.dim r = .ok (weightMatrix (s.pairs solver config.center).vectors
    r.correlationDimension config.strong config.weak)

omit [Scalar α] in
theorem fitted_self {n : ℕ} (eigenvalues : List α) (eigenvectors : Grid α) (weights : Mat α n n)
    (d : ℕ) (size : Int) (one_le : 1 ≤ d) (inside : d ≤ n) :
    Database.fitted n ⟨eigenvalues, eigenvectors, n, weights, d, size, one_le, inside⟩ =
      .ok weights := by
  have fits : (Tensor.ofMat weights).asMat? n n = some weights := dif_pos ⟨rfl, rfl⟩
  rw [Database.fitted, fits]

/-- The analysis of a neighborhood is never refused: the dimension that is selected always fits. -/
theorem exists_ofNeighborhood (solver : Solver α) (config : Config α) (s : Neighborhood α) :
    ∃ (d : ℕ) (one_le : 1 ≤ d) (inside : d ≤ s.dim),
      selectDimension config.threshold (clampEigenvalues config.tolerance
        (s.pairs solver config.center).values.toList) = .ok d ∧
      LocalPca.ofNeighborhood solver config s = .ok ⟨clampEigenvalues config.tolerance
        (s.pairs solver config.center).values.toList,
        ⟨s.dim, s.dim, (s.pairs solver config.center).vectors⟩, s.dim,
        weightMatrix (s.pairs solver config.center).vectors d config.strong config.weak, d, s.count,
        one_le, inside⟩ := by
  let values := clampEigenvalues config.tolerance (s.pairs solver config.center).values.toList
  have length : values.length = s.dim := by
    simp only [values, clampEigenvalues, List.length_map, Vector.length_toList]
  have filled : values ≠ [] := List.length_pos_iff.mp (length ▸ s.nonempty.2)
  obtain ⟨d, selected, one_le, inside⟩ := exists_selectDimension config.threshold filled
  rw [length] at inside
  refine ⟨d, one_le, inside, selected, ?_⟩
  have fits : (1 : Int) ≤ d ∧ (d : Int) ≤ s.dim := by omega
  rw [LocalPca.ofNeighborhood]
  refine Checked.bind_ok_iff.mpr ⟨d, selected, ?_⟩
  rw [LocalPca.make, dif_pos fits]
  rfl

theorem exists_analyzed (solver : Solver α) (config : Config α) (s : Neighborhood α) :
    ∃ r, LocalPca.ofNeighborhood solver config s = .ok r ∧ s.Analyzed solver config r := by
  obtain ⟨d, one_le, inside, selected, answered⟩ := exists_ofNeighborhood solver config s
  exact ⟨_, answered, rfl, rfl, selected, inside, fitted_self ..⟩

theorem LocalPca.size_of_ok {solver : Solver α} {config : Config α} {s : Neighborhood α}
    {r : LocalPca α} (answered : ofNeighborhood solver config s = .ok r) :
    r.neighborhoodSize = s.count := by
  obtain ⟨d, one_le, inside, _, answered'⟩ := exists_ofNeighborhood solver config s
  rw [answered] at answered'
  cases answered'
  rfl

theorem analyzed_of_ok {solver : Solver α} {config : Config α} {s : Neighborhood α}
    {r : LocalPca α} (answered : LocalPca.ofNeighborhood solver config s = .ok r) :
    s.Analyzed solver config r := by
  obtain ⟨r', answered', analyzed⟩ := exists_analyzed solver config s
  obtain rfl : r' = r := Except.ok.inj (answered'.symm.trans answered)
  exact analyzed

theorem exists_compute {anchor points : Tensor α} {s : Neighborhood α}
    (valid : Neighborhood.ofTensors anchor points = .ok s) (solver : Solver α)
    (config : Config α) :
    ∃ r, LocalPca.compute solver config anchor points = .ok r ∧ s.Analyzed solver config r := by
  obtain ⟨r, answered, analyzed⟩ := exists_analyzed solver config s
  exact ⟨r, Checked.bind_ok_iff.mpr ⟨s, valid, answered⟩, analyzed⟩

theorem analyzed_of_compute {anchor points : Tensor α} {s : Neighborhood α}
    (valid : Neighborhood.ofTensors anchor points = .ok s) {solver : Solver α} {config : Config α}
    {r : LocalPca α} (answered : LocalPca.compute solver config anchor points = .ok r) :
    s.Analyzed solver config r := by
  obtain ⟨r', answered', analyzed⟩ := exists_compute valid solver config
  obtain rfl : r' = r := Except.ok.inj (answered'.symm.trans answered)
  exact analyzed

theorem Cloud.of_around {c : Cloud α} {anchor : List α} {s : Neighborhood α}
    (answered : c.around anchor = .ok s) : s.toCloud = c ∧ s.anchor.toList = anchor := by
  unfold Cloud.around at answered
  split at answered
  · simp only at answered
    split at answered
    · cases answered
      exact ⟨rfl, rfl⟩
    · cases answered
  · cases answered

/-- The anchor of a neighborhood may have any shape. -/
theorem Neighborhood.ofTensors_of_toList (s : Neighborhood α) {anchor : Tensor α}
    (entries : anchor.toList = s.anchor.toList) :
    Neighborhood.ofTensors anchor ⟨[s.count, s.dim], s.points⟩ = .ok s := by
  refine Checked.bind_ok_iff.mpr ⟨s.toCloud, dif_pos s.nonempty, ?_⟩
  rw [entries, Cloud.around, dif_pos s.anchor.length_toList]
  exact dif_pos ⟨s.points_finite, s.anchor_finite⟩

omit [Scalar α] in
theorem Entries.length_toList (shape : List ℕ) (entries : Entries α shape) :
    (entries.toList shape).length = shape.foldr (· * ·) 1 := by
  induction shape with
  | nil => rfl
  | cons n shape ih =>
      have same : ∀ item ∈ Vector.toList entries,
          (toList shape item).length = shape.foldr (· * ·) 1 := fun item _ => ih item
      rw [toList, List.length_flatMap, List.map_congr_left same, List.map_const', List.sum_replicate,
        Vector.length_toList, smul_eq_mul, List.foldr_cons]

omit [Scalar α] in
theorem Tensor.length_toList (t : Tensor α) : t.toList.length = t.size :=
  t.entries.length_toList t.shape

omit [Scalar α] in
theorem Tensor.toList_vector {n : ℕ} (x : Vector α n) : Tensor.toList ⟨[n], x⟩ = x.toList :=
  List.flatMap_singleton' _

theorem Neighborhood.ofTensors_self (s : Neighborhood α) :
    Neighborhood.ofTensors ⟨[s.dim], s.anchor⟩ ⟨[s.count, s.dim], s.points⟩ = .ok s :=
  s.ofTensors_of_toList (Tensor.toList_vector s.anchor)

noncomputable abbrev Neighborhood.ofRows {m n : ℕ} (anchor : Vector ℝ n) (points : Mat ℝ m n)
    (nonempty : 0 < m ∧ 0 < n) : Neighborhood ℝ where
  count := m
  dim := n
  points := points
  nonempty := nonempty
  anchor := anchor
  anchor_finite := Vector.all_eq_true.mpr fun _ _ => rfl
  points_finite := Mat.allFinite_real _

end Outcomes

section Scatter

namespace Neighborhood

variable {s : Neighborhood ℝ} {center : Center}

theorem toMatrix_scatter (s : Neighborhood ℝ) (center : Center) :
    (s.scatter center).toMatrix = (s.count : ℝ)⁻¹ •
      ((s.deviations center).toMatrixᵀ * (s.deviations center).toMatrix) := by
  have means : (Mat.ofFn fun r c => (sum fun i => (s.deviations center).entry i r *
      (s.deviations center).entry i c) / (s.count : ℝ)).toMatrix = (s.count : ℝ)⁻¹ •
        ((s.deviations center).toMatrixᵀ * (s.deviations center).toMatrix) := by
    ext r c
    rw [Mat.toMatrix_ofFn, Matrix.of_apply, sum_eq, div_eq_inv_mul]
    rfl
  have symmetric : ((s.count : ℝ)⁻¹ •
      ((s.deviations center).toMatrixᵀ * (s.deviations center).toMatrix)).IsSymm := by
    rw [Matrix.IsSymm, transpose_smul, transpose_mul, transpose_transpose]
  rw [scatter]
  exact (Mat.toMatrix_symmetricPart _ (by rwa [means])).trans means

theorem scatter_isSymm (s : Neighborhood ℝ) (center : Center) :
    (s.scatter center).toMatrix.IsSymm := by
  rw [toMatrix_scatter, Matrix.IsSymm, transpose_smul, transpose_mul, transpose_transpose]

theorem posSemidef_scatter (s : Neighborhood ℝ) (center : Center) :
    (s.scatter center).toMatrix.PosSemidef := by
  rw [toMatrix_scatter, ← conjTranspose_eq_transpose_of_trivial]
  exact (posSemidef_conjTranspose_mul_self _).smul (inv_nonneg.mpr (Nat.cast_nonneg _))

theorem sum_row_deviations (s : Neighborhood ℝ) :
    ∑ i, (s.deviations .centroid).toMatrix.row i = 0 := by
  have count : (s.count : ℝ) ≠ 0 := Nat.cast_ne_zero.mpr s.nonempty.1.ne'
  funext j
  have entry (i : Fin s.count) : (s.deviations .centroid).toMatrix.row i j =
      s.points.entry i j - (∑ k, s.points.entry k j) / (s.count : ℝ) := by
    have row : (s.deviations .centroid).get i = difference (s.points.get i) s.centroid := get_map _ _ i
    rw [Mat.toMatrix_row, row, get_difference, centroid, get_ofFn, sum_eq]
    rfl
  rw [Finset.sum_apply, Finset.sum_congr rfl fun i _ => entry i, Finset.sum_sub_distrib,
    Finset.sum_const, Finset.card_univ, Fintype.card_fin, nsmul_eq_mul, mul_div_cancel₀ _ count,
    sub_self]
  rfl

theorem toMatrix_scatter_of_alone (alone : s.count = 1) : (s.scatter .centroid).toMatrix = 0 := by
  have nothing : (s.deviations .centroid).toMatrix = 0 := by
    ext i j
    have total := congrFun s.sum_row_deviations j
    rw [Finset.sum_apply, Finset.sum_eq_single_of_mem i (Finset.mem_univ i)] at total
    · exact total
    · intro k _ other
      exact absurd (Fin.ext (by omega)) other
  rw [toMatrix_scatter, nothing, Matrix.mul_zero, smul_zero]

theorem pairs_resolve {solver : Solver ℝ} (resolves : solver.Resolves (s.scatter center)) :
    (s.pairs solver center).Resolve (s.scatter center) :=
  resolves.sorted (s.scatter_isSymm center)

theorem antitone_pairs (s : Neighborhood ℝ) (solver : Solver ℝ) (center : Center) :
    Antitone (s.pairs solver center).values.get :=
  antitone_sortedEigenpairs _ _

variable {pairs : Eigenpairs ℝ s.dim}

theorem values_nonneg (resolve : pairs.Resolve (s.scatter center)) (j : Fin s.dim) :
    0 ≤ pairs.values.get j :=
  resolve.values_nonneg (s.posSemidef_scatter center) j

theorem values_pos (resolve : pairs.Resolve (s.scatter center))
    (descending : Antitone pairs.values.get) (spread : (s.scatter center).toMatrix ≠ 0)
    {j : Fin s.dim} (first : j.val = 0) : 0 < pairs.values.get j := by
  refine (values_nonneg resolve j).lt_of_ne fun zero => spread ?_
  have nothing : pairs.values.get = 0 := by
    funext i
    have before : j ≤ i := Fin.le_def.mpr (by omega)
    have small : pairs.values.get i ≤ 0 := zero ▸ descending before
    exact le_antisymm small (values_nonneg resolve i)
  have empty : (diagonal pairs.values.get : Matrix (Fin s.dim) (Fin s.dim) ℝ) = 0 := by
    rw [nothing]
    exact diagonal_zero
  rw [resolve.eq_mul_diagonal, empty, Matrix.mul_zero, Matrix.zero_mul]

end Neighborhood

end Scatter

section Exact

namespace Neighborhood.Analyzed

variable {s : Neighborhood ℝ} {solver : Solver ℝ} {config : Config ℝ} {r : LocalPca ℝ}

theorem eigenvalues_eq (analyzed : s.Analyzed solver config r) : r.eigenvalues =
    List.ofFn (clamped config.tolerance (s.pairs solver config.center).values.get) := by
  rw [analyzed.eigenvalues, toList_eq_ofFn, clampEigenvalues_ofFn]

theorem selects (analyzed : s.Analyzed solver config r) (le_one : config.threshold ≤ 1) :
    Selects config.threshold (clamped config.tolerance (s.pairs solver config.center).values.get)
      r.correlationDimension := by
  have selected := analyzed.selected
  rw [analyzed.eigenvalues_eq] at selected
  exact selects_of_selectDimension s.nonempty.2 (clamped_nonneg config.tolerance _) le_one selected

/-- If there is more than one strong direction, each one has a positive eigenvalue. -/
theorem values_pos_of_lt (analyzed : s.Analyzed solver config r) (sound : config.Sound)
    (resolves : solver.Resolves (s.scatter config.center)) (several : 1 < r.correlationDimension)
    {j : Fin s.dim} (strong : j.val < r.correlationDimension) :
    0 < (s.pairs solver config.center).values.get j := by
  have selects := analyzed.selects sound.threshold_le
  have inside : r.correlationDimension - 1 < s.dim := by
    have := analyzed.inside
    omega
  let last : Fin s.dim := ⟨r.correlationDimension - 1, inside⟩
  have kept := selects.pos_last several (j := last) (Nat.sub_add_cancel selects.one_le)
  have positive := pos_of_clamped_pos (values_nonneg (pairs_resolve resolves)) kept
  have before : j ≤ last := Fin.le_def.mpr (Nat.le_sub_one_of_lt strong)
  exact positive.trans_le (s.antitone_pairs solver config.center before)

/-- If there is any scatter, the only strong direction has a positive eigenvalue, too. -/
theorem values_pos (analyzed : s.Analyzed solver config r) (sound : config.Sound)
    (resolves : solver.Resolves (s.scatter config.center))
    (spread : (s.scatter config.center).toMatrix ≠ 0) {j : Fin s.dim}
    (strong : j.val < r.correlationDimension) :
    0 < (s.pairs solver config.center).values.get j := by
  by_cases several : 1 < r.correlationDimension
  · exact analyzed.values_pos_of_lt sound resolves several strong
  · exact Neighborhood.values_pos (pairs_resolve resolves) (s.antitone_pairs solver config.center)
      spread (by omega)

end Neighborhood.Analyzed

end Exact

end LocalMetric
