import LocalMetric.Proofs.ScatterMatrices
import LocalMetric.Proofs.StrongDirections
/-!
# What a local analysis keeps of its scatter matrix

The outcome of an analysis decomposes the scatter matrix: its eigenvalues are in order, its directions
are orthonormal and are what the weight matrix stretches. Together they give the scatter matrix back,
up to what clamping took away, and without a tolerance exactly.
-/
namespace LocalMetric

open Matrix

structure Neighborhood.Decomposes (s : Neighborhood ℝ) (config : Config ℝ) (values : Fin s.dim → ℝ)
    (v w : Mat ℝ s.dim s.dim) (d : ℕ) : Prop where
  nonneg : ∀ j, 0 ≤ values j
  descending : Antitone values
  orthonormal : v.toMatrixᵀ * v.toMatrix = 1
  symmetric : w.toMatrix.IsSymm
  strong : ∀ j : Fin s.dim, j.val < d → w.toMatrix *ᵥ v.toMatrix.col j = config.strong • v.toMatrix.col j
  weak : ∀ j : Fin s.dim, d ≤ j.val → w.toMatrix *ᵥ v.toMatrix.col j = config.weak • v.toMatrix.col j
  close : ∃ top, IsGreatest (spectrum ℝ (s.scatter config.center).toMatrix) top ∧
    ∀ x : Vector ℝ s.dim, |x.get ⬝ᵥ ((s.scatter config.center).toMatrix -
      v.toMatrix * diagonal values * v.toMatrixᵀ) *ᵥ x.get| ≤ config.tolerance * top * squaredNorm x
  exact : config.tolerance = 0 →
    (s.scatter config.center).toMatrix = v.toMatrix * diagonal values * v.toMatrixᵀ

section Clamped

variable {n : ℕ} {a : Mat ℝ n n} {pairs : Eigenpairs ℝ n} {tolerance : ℝ}

/-- What clamping takes away from a matrix is a matrix along the same directions. -/
theorem Eigenpairs.Resolve.sub_clamped (resolve : pairs.Resolve a) (tolerance : ℝ) : a.toMatrix -
    pairs.vectors.toMatrix * diagonal (clamped tolerance pairs.values.get) * pairs.vectors.toMatrixᵀ =
      pairs.vectors.toMatrix *
        diagonal (fun j => pairs.values.get j - clamped tolerance pairs.values.get j) *
        pairs.vectors.toMatrixᵀ := by
  rw [← diagonal_sub, Matrix.mul_sub, Matrix.sub_mul, ← resolve.eq_mul_diagonal]

theorem clamped_zero {values : Fin n → ℝ} (nonneg : ∀ j, 0 ≤ values j) : clamped 0 values = values := by
  funext j
  have taken := sub_clamped_mem_Icc nonneg le_rfl j
  rw [zero_mul] at taken
  linarith [taken.1, taken.2]

theorem Eigenpairs.Resolve.abs_sub_clamped_le (resolve : pairs.Resolve a)
    (nonneg : ∀ j, 0 ≤ pairs.values.get j) {top : ℝ} (greatest : ∀ j, pairs.values.get j ≤ top)
    (nonneg_top : 0 ≤ top) (nonneg_tolerance : 0 ≤ tolerance) (x : Vector ℝ n) :
    |x.get ⬝ᵥ (a.toMatrix - pairs.vectors.toMatrix *
      diagonal (clamped tolerance pairs.values.get) * pairs.vectors.toMatrixᵀ) *ᵥ x.get| ≤
        tolerance * top * squaredNorm x := by
  have scale : largestMagnitude (List.ofFn pairs.values.get) ≤ top := by
    apply largestMagnitude_le nonneg_top
    intro y member
    obtain ⟨j, rfl⟩ := List.mem_ofFn.mp member
    rw [abs_of_nonneg (nonneg j)]
    exact greatest j
  have taken (j : Fin n) := sub_clamped_mem_Icc nonneg nonneg_tolerance j
  have bound := mul_le_mul_of_nonneg_left scale nonneg_tolerance
  rw [resolve.sub_clamped, dotProduct_mul_diagonal_mulVec, abs_of_nonneg]
  · exact sum_le_mul_squaredNorm resolve.orthonormal (fun j => (taken j).2.trans bound) x
  · apply Finset.sum_nonneg
    intro j _
    exact mul_nonneg (taken j).1 (sq_nonneg _)

end Clamped

namespace Neighborhood

variable {s : Neighborhood ℝ} {solver : Solver ℝ} {config : Config ℝ}

theorem decomposes (sound : config.Sound) (resolves : solver.Resolves (s.scatter config.center))
    {d : ℕ} (inside : d ≤ s.dim) :
    s.Decomposes config (clamped config.tolerance (s.pairs solver config.center).values.get)
      (s.pairs solver config.center).vectors
      (weightMatrix (s.pairs solver config.center).vectors d config.strong config.weak) d := by
  have resolve := pairs_resolve resolves
  have nonneg := values_nonneg resolve
  have descending := s.antitone_pairs solver config.center
  have stretched := weightMatrix_mulVec_col resolve.orthonormal config.strong config.weak d
  constructor
  · exact clamped_nonneg config.tolerance _
  · exact antitone_clamped descending sound.tolerance_nonneg
  · exact resolve.orthonormal
  · exact weightMatrix_isSymm _ _
  · intro j before
    rw [stretched, directionWeight_eq inside, if_pos before]
  · intro j beyond
    rw [stretched, directionWeight_eq inside, if_neg (not_lt.mpr beyond)]
  · refine ⟨_, resolve.isGreatest_spectrum descending s.nonempty.2, ?_⟩
    apply resolve.abs_sub_clamped_le nonneg
    · intro j
      exact descending (Fin.le_def.mpr (Nat.zero_le j))
    · exact nonneg _
    · exact sound.tolerance_nonneg
  · intro vanishing
    rw [vanishing, clamped_zero nonneg]
    exact resolve.eq_mul_diagonal

/-- Every neighborhood that passes its checks is analysed under every accepted configuration, and its
outcome decomposes its scatter matrix. -/
theorem analysis_decomposes_scatter {anchor points : Tensor ℝ} (accepted : config.Accepted)
    (valid : ofTensors anchor points = .ok s)
    (resolves : solver.Resolves (s.scatter config.center)) :
    (points.shape = [s.count, s.dim] ∨ points.shape = [s.dim] ∧ s.count = 1) ∧
    scatterMatrix anchor points config.center.name = .ok ⟨s.dim, s.dim, s.scatter config.center⟩ ∧
    ∃ (values : Fin s.dim → ℝ) (v w : Mat ℝ s.dim s.dim) (d : ℕ) (one_le : 1 ≤ d)
      (inside : d ≤ s.dim),
      LocalPca.compute solver config anchor points = .ok ⟨List.ofFn values, ⟨s.dim, s.dim, v⟩, s.dim,
        w, d, s.count, one_le, inside⟩ ∧ s.Decomposes config values v w d := by
  refine ⟨(readFrom_of_ofTensors valid).shape, scatterMatrix_of_ofTensors valid config.center, ?_⟩
  obtain ⟨d, one_le, inside, _, answered⟩ := exists_ofNeighborhood solver config s
  rw [toList_eq_ofFn, clampEigenvalues_ofFn] at answered
  exact ⟨_, _, _, d, one_le, inside, Checked.bind_ok_iff.mpr ⟨s, valid, answered⟩,
    decomposes (Config.accepted_iff.mp accepted) resolves inside⟩

noncomputable def unclamped : Config ℝ := { Config.usual with tolerance := 0 }

theorem analysis_decomposes_scatter_axis : unclamped.Accepted ∧
    ∃ (values : Fin 2 → ℝ) (v w : Mat ℝ 2 2) (d : ℕ) (one_le : 1 ≤ d) (inside : d ≤ 2),
      LocalPca.compute .spectral unclamped ⟨[2], (#v[0, 0] : Vector ℝ 2)⟩
        ⟨[2, 2], (#v[#v[1, 0], #v[-1, 0]] : Mat ℝ 2 2)⟩ =
          .ok ⟨List.ofFn values, ⟨2, 2, v⟩, 2, w, d, 2, one_le, inside⟩ ∧
      (onAxis.scatter .centroid).toMatrix = v.toMatrix * diagonal values * v.toMatrixᵀ ∧
      w.toMatrix *ᵥ v.toMatrix.col 0 = (1 : ℝ) • v.toMatrix.col 0 := by
  have accepted : unclamped.Accepted := by
    rw [Config.accepted_iff]
    constructor <;> norm_num [unclamped, Config.usual]
  obtain ⟨_, _, values, v, w, d, one_le, inside, answered, decomposes⟩ :=
    analysis_decomposes_scatter accepted onAxis.ofTensors_self
      (Solver.spectral_exact _ (onAxis.scatter_isSymm _))
  exact ⟨accepted, values, v, w, d, one_le, inside, answered, decomposes.exact rfl,
    decomposes.strong 0 one_le⟩

end Neighborhood

end LocalMetric
