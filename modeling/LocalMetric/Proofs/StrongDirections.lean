import Mathlib.LinearAlgebra.Matrix.Rank
import LocalMetric.Proofs.Analyses
/-!
# Leaving the local subspace

An eigenvector with a positive eigenvalue is a combination of the deviations from which the scatter
matrix is made. All strong directions are of this kind, however many points there are and however
eigenvalues are clamped. So there are no more of them than independent deviations, and a displacement
that is orthogonal to the deviations is penalised in full.
-/
namespace LocalMetric

open Matrix

namespace Neighborhood

variable {s : Neighborhood ℝ} {solver : Solver ℝ} {config : Config ℝ} {r : LocalPca ℝ}

/-- The combinations of the deviations from a center. -/
def subspace (s : Neighborhood ℝ) (center : Center) : Submodule ℝ (Fin s.dim → ℝ) :=
  Submodule.span ℝ (Set.range (s.deviations center).toMatrix.row)

theorem mulVec_scatter_mem_subspace (s : Neighborhood ℝ) (center : Center) (x : Fin s.dim → ℝ) :
    (s.scatter center).toMatrix *ᵥ x ∈ s.subspace center := by
  rw [toMatrix_scatter, smul_mulVec, ← mulVec_mulVec, mulVec_transpose, vecMul_eq_sum]
  apply Submodule.smul_mem
  apply Submodule.sum_mem
  intro i _
  apply Submodule.smul_mem
  exact Submodule.subset_span ⟨i, rfl⟩

theorem col_mem_subspace {center : Center} {pairs : Eigenpairs ℝ s.dim}
    (resolve : pairs.Resolve (s.scatter center)) {j : Fin s.dim}
    (positive : 0 < pairs.values.get j) : pairs.vectors.toMatrix.col j ∈ s.subspace center := by
  have eigen := mulVec_col_of_mul_eq resolve.eigen j
  have scaled := mulVec_scatter_mem_subspace s center (pairs.vectors.toMatrix.col j)
  rw [eigen] at scaled
  exact (Submodule.smul_mem_iff _ positive.ne').mp scaled

theorem dotProduct_eq_zero_of_mem_subspace {center : Center} {x : Vector ℝ s.dim}
    (orthogonal : ∀ i, dot ((s.deviations center).get i) x = 0) {y : Fin s.dim → ℝ}
    (member : y ∈ s.subspace center) : y ⬝ᵥ x.get = 0 := by
  induction member using Submodule.span_induction with
  | mem y row =>
      obtain ⟨i, rfl⟩ := row
      have here := orthogonal i
      rwa [dot_eq] at here
  | zero => exact zero_dotProduct _
  | add y z _ _ hy hz => rw [add_dotProduct, hy, hz, add_zero]
  | smul c y _ hy => rw [smul_dotProduct, hy, smul_zero]

/-- As many orthonormal columns as lie in the span of the deviations, so many deviations are
independent. -/
theorem le_rank_of_col_mem {center : Center} {v : Mat ℝ s.dim s.dim}
    (orthonormal : v.toMatrixᵀ * v.toMatrix = 1) {d : ℕ} (inside : d ≤ s.dim)
    (members : ∀ j : Fin s.dim, j.val < d → v.toMatrix.col j ∈ s.subspace center) :
    d ≤ (s.deviations center).toMatrix.rank := by
  have unit : IsUnit v.toMatrix := IsUnit.of_mul_eq_one_right _ orthonormal
  have independent := (linearIndependent_cols_iff_isUnit.mpr unit).comp (Fin.castLE inside)
    (Fin.castLE_injective inside)
  have spanned : Submodule.span ℝ (Set.range (v.toMatrix.col ∘ Fin.castLE inside)) ≤
      s.subspace center := by
    rw [Submodule.span_le]
    rintro _ ⟨j, rfl⟩
    exact members (Fin.castLE inside j) j.isLt
  calc d = Module.finrank ℝ (Submodule.span ℝ (Set.range (v.toMatrix.col ∘ Fin.castLE inside))) := by
        rw [finrank_span_eq_card independent, Fintype.card_fin]
    _ ≤ Module.finrank ℝ (s.subspace center) := Submodule.finrank_mono spanned
    _ = (s.deviations center).toMatrix.rank := (rank_eq_finrank_span_row _).symm

theorem rank_deviations_centroid_lt (s : Neighborhood ℝ) :
    (s.deviations .centroid).toMatrix.rank < s.count := by
  have dependent : ¬LinearIndependent ℝ (s.deviations .centroid).toMatrix.row := by
    intro independent
    have vanishing := Fintype.linearIndependent_iff.mp independent (fun _ => 1)
      (by simpa only [one_smul] using s.sum_row_deviations) ⟨0, s.nonempty.1⟩
    exact one_ne_zero vanishing
  rw [linearIndependent_iff_card_le_finrank_span, Fintype.card_fin, not_le] at dependent
  rw [rank_eq_finrank_span_row]
  exact dependent

structure Confines (s : Neighborhood ℝ) (config : Config ℝ) (r : LocalPca ℝ) : Prop where
  directions : ∃ v : Mat ℝ s.dim s.dim, r.eigenvectors = ⟨s.dim, s.dim, v⟩ ∧
    ∀ j : Fin s.dim, j.val < r.correlationDimension → (v.column j).get ∈ s.subspace config.center
  penalty : ∃ w : Mat ℝ s.dim s.dim, Database.fitted s.dim r = .ok w ∧
    ∀ x : Vector ℝ s.dim, (∀ i, dot ((s.deviations config.center).get i) x = 0) →
      w.quadraticForm x = config.weak * squaredNorm x
  rank : r.correlationDimension ≤ (s.deviations config.center).toMatrix.rank

theorem Analyzed.confines (analyzed : s.Analyzed solver config r) (sound : config.Sound)
    (resolves : solver.Resolves (s.scatter config.center))
    (spread : (s.scatter config.center).toMatrix ≠ 0) : s.Confines config r := by
  have resolve := pairs_resolve resolves
  have members (j : Fin s.dim) (strong : j.val < r.correlationDimension) :=
    col_mem_subspace resolve (analyzed.values_pos sound resolves spread strong)
  refine ⟨⟨_, analyzed.eigenvectors, ?_⟩, ⟨_, analyzed.weights, ?_⟩,
    le_rank_of_col_mem resolve.orthonormal analyzed.inside members⟩
  · intro j strong
    rw [Mat.get_column]
    exact members j strong
  · intro x orthogonal
    rw [quadraticForm_weightMatrix, ← sum_sq_col resolve.orthonormal, Finset.mul_sum]
    refine Finset.sum_congr rfl fun j _ => ?_
    rw [directionWeight_eq analyzed.inside]
    split
    · rename_i strong
      rw [dotProduct_eq_zero_of_mem_subspace orthogonal (members j strong)]
      ring
    · rfl

/-- Without any scatter there is one strong direction, so this bound needs none. -/
theorem Analyzed.le_count (analyzed : s.Analyzed solver config r) (sound : config.Sound)
    (resolves : solver.Resolves (s.scatter config.center)) (centroid : config.center = .centroid) :
    r.correlationDimension ≤ max 1 (s.count - 1) := by
  by_cases several : 1 < r.correlationDimension
  · have resolve := pairs_resolve resolves
    have rank := le_rank_of_col_mem resolve.orthonormal analyzed.inside fun j strong =>
      col_mem_subspace resolve (analyzed.values_pos_of_lt sound resolves several strong)
    rw [centroid] at rank
    have fewer := s.rank_deviations_centroid_lt
    omega
  · exact le_max_of_le_left (not_lt.mp several)

/-- A local analysis finds its strong directions among the combinations of its deviations, if there
is any scatter. What is orthogonal to the deviations is weighted weakly in full, and there are at most
as many strong directions as independent deviations; around the mean that is less than the number of
points, or one. -/
theorem strong_directions_confined {anchor points : Tensor ℝ} (accepted : config.Accepted)
    (valid : Neighborhood.ofTensors anchor points = .ok s)
    (resolves : solver.Resolves (s.scatter config.center)) :
    ∃ r, LocalPca.compute solver config anchor points = .ok r ∧
      ((s.scatter config.center).toMatrix ≠ 0 → s.Confines config r) ∧
      (config.center = .centroid → r.correlationDimension ≤ max 1 (s.count - 1)) := by
  have sound := Config.accepted_iff.mp accepted
  obtain ⟨r, answered, analyzed⟩ := exists_compute valid solver config
  exact ⟨r, answered, analyzed.confines sound resolves, analyzed.le_count sound resolves⟩

/-- Two points of the plane on one axis, on both sides of the anchor. -/
noncomputable abbrev onAxis : Neighborhood ℝ :=
  .ofRows #v[0, 0] #v[#v[1, 0], #v[-1, 0]] (by decide)

theorem deviations_onAxis : onAxis.deviations .centroid = #v[#v[1, 0], #v[-1, 0]] := by
  have mean (j : Fin 2) : onAxis.centroid.get j = 0 := by
    rw [centroid, get_ofFn, sum_eq, Fin.sum_univ_two]
    fin_cases j
    · simp [Mat.entry, Vector.get]
    · simp [Mat.entry, Vector.get]
  apply get_injective
  funext i
  apply get_injective
  funext j
  rw [deviations, get_map, get_difference]
  exact (congrArg _ (mean j)).trans (sub_zero _)

theorem strong_directions_confined_axis : ∃ r w,
    LocalPca.compute .spectral .usual ⟨[2], (#v[0, 0] : Vector ℝ 2)⟩
      ⟨[2, 2], (#v[#v[1, 0], #v[-1, 0]] : Mat ℝ 2 2)⟩ = .ok r ∧ Database.fitted 2 r = .ok w ∧
    w.quadraticForm #v[0, 3] = 900 ∧ r.correlationDimension = 1 := by
  obtain ⟨r, answered, confined, bound⟩ := strong_directions_confined Config.usual_accepted
    onAxis.ofTensors_self (Solver.spectral_exact _ (onAxis.scatter_isSymm _))
  have spread : (onAxis.scatter .centroid).toMatrix ≠ 0 := by
    intro vanishing
    have here := congrFun (congrFun vanishing 0) 0
    rw [toMatrix_scatter, deviations_onAxis, Matrix.smul_apply, Matrix.mul_apply,
      Fin.sum_univ_two] at here
    norm_num [Mat.entry, Vector.get] at here
  have orthogonal (i : Fin 2) : dot ((onAxis.deviations .centroid).get i) #v[0, 3] = 0 := by
    rw [deviations_onAxis, dot_eq, dotProduct, Fin.sum_univ_two]
    fin_cases i
    · norm_num [Vector.get]
    · norm_num [Vector.get]
  obtain ⟨w, fitted, penalty⟩ := (confined spread).penalty
  refine ⟨r, w, answered, fitted, (penalty #v[0, 3] orthogonal).trans ?_,
    le_antisymm (bound rfl) r.one_le_dimension⟩
  rw [squaredNorm_eq, dotProduct, Fin.sum_univ_two]
  norm_num [Config.usual, Vector.get]

end Neighborhood

end LocalMetric
