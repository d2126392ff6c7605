import Mathlib.Algebra.Order.Star.Real
import Mathlib.LinearAlgebra.Matrix.PosDef
import LocalMetric.Proofs.Matrices
/-!
# Weighted sums of squares

A weight matrix can be formed along the columns of any matrix, rectangular or not orthonormal. It knows a
column through its products alone and the place of a column through its weight. Hence the sign of a
column does not matter, nor the order of those with the strong weight or of those with the weak one.
-/
namespace LocalMetric

open Matrix

variable {m n : ℕ} {strong weak : ℝ}

section Bounds

theorem natCast_frontCount (n : ℕ) (d : ℤ) :
    (frontCount n d : ℤ) = if 0 ≤ d then min d n else max 0 (n + d) := by
  rw [frontCount]
  split <;> split <;> omega

theorem sum_directionWeight_mul (d : ℤ) (f : Fin n → ℝ) :
    ∑ j, directionWeight n d strong weak j * f j =
      strong * ∑ j with j.val < frontCount n d, f j +
        weak * ∑ j with frontCount n d ≤ j.val, f j := by
  have weighted (j : Fin n) : directionWeight n d strong weak j * f j =
      if j.val < frontCount n d then strong * f j else weak * f j := ite_mul _ _ _ _
  simp only [weighted, Finset.sum_ite, Finset.mul_sum, not_lt]

end Bounds

section Squares

theorem entry_weightMatrix (v : Mat ℝ m n) (d : ℤ) (r c : Fin m) :
    (weightMatrix v d strong weak).entry r c =
      ∑ j, directionWeight n d strong weak j * (v.entry r j * v.entry c j) := by
  rw [← Mat.toMatrix_apply, toMatrix_weightMatrix, Matrix.mul_apply]
  refine Finset.sum_congr rfl fun j _ => ?_
  rw [mul_diagonal, transpose_apply, Mat.toMatrix_apply, Mat.toMatrix_apply]
  ring

theorem dotProduct_weightMatrix_mulVec (v : Mat ℝ m n) (d : ℤ) (x : Fin m → ℝ) :
    x ⬝ᵥ (weightMatrix v d strong weak).toMatrix *ᵥ x =
      strong * ∑ j with j.val < frontCount n d, (v.toMatrix.col j ⬝ᵥ x) ^ 2 +
        weak * ∑ j with frontCount n d ≤ j.val, (v.toMatrix.col j ⬝ᵥ x) ^ 2 := by
  rw [toMatrix_weightMatrix, dotProduct_mul_diagonal_mulVec, sum_directionWeight_mul]

theorem posSemidef_weightMatrix (nonneg : 0 ≤ strong) (nonneg' : 0 ≤ weak) (v : Mat ℝ m n) (d : ℤ) :
    (weightMatrix v d strong weak).toMatrix.PosSemidef := by
  have weights : (diagonal (directionWeight n d strong weak)).PosSemidef := by
    refine PosSemidef.diagonal fun j => ?_
    rw [directionWeight]
    split
    · exact nonneg
    · exact nonneg'
  rw [toMatrix_weightMatrix, ← conjTranspose_eq_transpose_of_trivial]
  exact weights.mul_mul_conjTranspose_same v.toMatrix

end Squares

section Columns

/-- The columns in another order, each with a factor. -/
noncomputable def Mat.recolumned (v : Mat ℝ m n) (factors : Fin n → ℝ) (σ : Equiv.Perm (Fin n)) :
    Mat ℝ m n :=
  Mat.ofFn fun i j => factors j * v.entry i (σ j)

/-- Columns that keep to their side of the bound keep their weights. -/
theorem directionWeight_comp {d : ℤ} {σ : Equiv.Perm (Fin n)}
    (keeps : ∀ j, (σ j).val < frontCount n d ↔ j.val < frontCount n d) (j : Fin n) :
    directionWeight n d strong weak (σ j) = directionWeight n d strong weak j := by
  rw [directionWeight, directionWeight, if_congr (keeps j) rfl rfl]

theorem weightMatrix_recolumned (v : Mat ℝ m n) {d : ℤ} {signs : Fin n → ℝ} {σ : Equiv.Perm (Fin n)}
    (units : ∀ j, signs j = 1 ∨ signs j = -1)
    (keeps : ∀ j, (σ j).val < frontCount n d ↔ j.val < frontCount n d) :
    weightMatrix (v.recolumned signs σ) d strong weak = weightMatrix v d strong weak := by
  have products (r c : Fin m) (j : Fin n) :
      (v.recolumned signs σ).entry r j * (v.recolumned signs σ).entry c j =
        v.entry r (σ j) * v.entry c (σ j) := by
    rw [Mat.recolumned, Mat.entry_ofFn, Mat.entry_ofFn, mul_mul_mul_comm,
      mul_self_eq_one_iff.mpr (units j), one_mul]
  apply Mat.toMatrix_injective
  ext r c
  rw [Mat.toMatrix_apply, Mat.toMatrix_apply, entry_weightMatrix, entry_weightMatrix]
  refine Fintype.sum_equiv σ _ _ fun j => ?_
  rw [products, directionWeight_comp keeps]

end Columns

/-- The weight matrix along the columns of any matrix is symmetric and adds up the squares of the
components along them, the first ones with the strong weight and the others with the weak one. A negative
bound counts from the end, and one beyond either end takes all columns or none. Weights that are not
negative make the matrix positive semidefinite. It does not depend on the signs of the columns, nor on
their order on either side of the bound. -/
theorem weight_matrix_sums_squares (v : Mat ℝ m n) (d : ℤ) (strong weak : ℝ) :
    ∃ (k : ℕ) (w : Mat ℝ m m),
      (k : ℤ) = (if 0 ≤ d then min d n else max 0 (n + d)) ∧
      weightArray (.ofMat v) d strong weak = .ok (.ofMat w) ∧
      w.toMatrix.IsSymm ∧
      (∀ x, x ⬝ᵥ w.toMatrix *ᵥ x =
        strong * ∑ j with j.val < k, (v.toMatrix.col j ⬝ᵥ x) ^ 2 +
          weak * ∑ j with k ≤ j.val, (v.toMatrix.col j ⬝ᵥ x) ^ 2) ∧
      (0 ≤ strong → 0 ≤ weak → w.toMatrix.PosSemidef) ∧
      ∀ (signs : Fin n → ℝ) (σ : Equiv.Perm (Fin n)), (∀ j, signs j = 1 ∨ signs j = -1) →
        (∀ j, (σ j).val < k ↔ j.val < k) →
        weightArray (.ofMat (v.recolumned signs σ)) d strong weak = .ok (.ofMat w) := by
  refine ⟨frontCount n d, weightMatrix v d strong weak, natCast_frontCount n d, rfl,
    weightMatrix_isSymm v d, dotProduct_weightMatrix_mulVec v d,
    fun nonneg nonneg' => posSemidef_weightMatrix nonneg nonneg' v d, ?_⟩
  intro signs σ units keeps
  rw [← weightMatrix_recolumned v units keeps]
  rfl

/-- Of three columns in the plane all but the last one have the strong weight, in either order. -/
theorem weight_matrix_sums_squares_rectangular :
    let v : Mat ℝ 2 3 := Mat.ofFn !![1, 0, 1; 0, 1, 1]
    ∃ w : Mat ℝ 2 2, weightArray (.ofMat v) (-1) 2 3 = .ok (.ofMat w) ∧
      ![1, 1] ⬝ᵥ w.toMatrix *ᵥ ![1, 1] = 16 ∧ w.toMatrix.PosSemidef ∧
      weightArray (.ofMat (v.recolumned ![-1, 1, 1] (Equiv.swap 0 1))) (-1) 2 3 = .ok (.ofMat w) := by
  intro v
  obtain ⟨k, w, count, formed, _, form, semidefinite, unchanged⟩ :=
    weight_matrix_sums_squares v (-1) 2 3
  have two : k = 2 := by
    norm_num at count
    exact_mod_cast count
  subst two
  have units : ∀ j : Fin 3, (![-1, 1, 1] : Fin 3 → ℝ) j = 1 ∨ (![-1, 1, 1] : Fin 3 → ℝ) j = -1 := by
    intro j
    fin_cases j
    · exact .inr rfl
    · exact .inl rfl
    · exact .inl rfl
  have entries : v.toMatrix = !![1, 0, 1; 0, 1, 1] := Mat.toMatrix_ofFn _
  refine ⟨w, formed, ?_, semidefinite (by norm_num) (by norm_num), unchanged _ _ units (by decide)⟩
  rw [form, entries, Finset.sum_filter, Finset.sum_filter, Fin.sum_univ_three, Fin.sum_univ_three]
  simp only [vec2_dotProduct, col_apply, Matrix.of_apply, Matrix.cons_val]
  norm_num

end LocalMetric
