import Mathlib.LinearAlgebra.Matrix.DotProduct
import Mathlib.LinearAlgebra.Matrix.NonsingularInverse
import Mathlib.LinearAlgebra.Matrix.Symmetric
import LocalMetric.Proofs.Reals
import LocalMetric.Pca.Weight
/-!
# Matrices of real numbers

The rows that a program stores are read as a matrix, and products and forms of rows as the usual ones.
A weight matrix is a weighted sum of squares along its directions; along an orthonormal basis it lies
between its two weights.
-/
namespace LocalMetric

open Matrix

variable {m n : ℕ}

def Mat.toMatrix (a : Mat ℝ m n) : Matrix (Fin m) (Fin n) ℝ := Matrix.of a.entry

namespace Mat

@[simp] theorem toMatrix_apply (a : Mat ℝ m n) (i : Fin m) (j : Fin n) :
    a.toMatrix i j = a.entry i j := rfl

theorem toMatrix_row (a : Mat ℝ m n) (i : Fin m) : a.toMatrix.row i = (a.get i).get := rfl

@[simp] theorem toMatrix_ofFn (f : Fin m → Fin n → ℝ) : (Mat.ofFn f).toMatrix = Matrix.of f := by
  ext i j
  exact entry_ofFn f i j

theorem get_column (a : Mat ℝ m n) (j : Fin n) : (a.column j).get = a.toMatrix.col j := by
  funext i
  exact get_ofFn _ i

end Mat

theorem get_injective {α : Type} {x y : Vector α n} (same : x.get = y.get) : x = y := by
  apply Vector.ext
  intro i inside
  exact congrFun same ⟨i, inside⟩

theorem Mat.toMatrix_injective {a b : Mat ℝ m n} (same : a.toMatrix = b.toMatrix) : a = b := by
  apply get_injective
  funext i
  apply get_injective
  funext j
  exact congrFun (congrFun same i) j

theorem get_difference_eq (x y : Vector ℝ n) : (difference x y).get = x.get - y.get := by
  funext i
  exact get_difference x y i

section Products

theorem dot_eq (x y : Vector ℝ n) : dot x y = x.get ⬝ᵥ y.get := sum_eq _

theorem squaredNorm_eq (x : Vector ℝ n) : squaredNorm x = x.get ⬝ᵥ x.get := dot_eq x x

theorem squaredNorm_nonneg (x : Vector ℝ n) : 0 ≤ squaredNorm x := by
  rw [squaredNorm_eq]
  exact Finset.sum_nonneg fun i _ => mul_self_nonneg (x.get i)

theorem squaredNorm_difference_comm (x y : Vector ℝ n) :
    squaredNorm (difference x y) = squaredNorm (difference y x) := by
  rw [squaredNorm_eq, squaredNorm_eq, get_difference_eq, get_difference_eq, ← neg_sub,
    neg_dotProduct_neg]

theorem squaredNorm_difference_eq_zero_iff {x y : Vector ℝ n} :
    squaredNorm (difference x y) = 0 ↔ x = y := by
  rw [squaredNorm_eq, get_difference_eq, dotProduct_self_eq_zero, sub_eq_zero]
  exact ⟨get_injective, congrArg Vector.get⟩

theorem Mat.quadraticForm_eq_dotProduct (a : Mat ℝ n n) (x : Vector ℝ n) :
    a.quadraticForm x = x.get ⬝ᵥ a.toMatrix *ᵥ x.get := by
  rw [Mat.quadraticForm_eq, dotProduct_mulVec]
  rfl

end Products

section Symmetry

theorem Mat.toMatrix_symmetricPart (a : Mat ℝ n n) (symmetric : a.toMatrix.IsSymm) :
    a.symmetricPart.toMatrix = a.toMatrix := by
  ext i j
  have mirrored : a.entry j i = a.entry i j := symmetric.apply i j
  have half : (0.5 : ℝ) * (a.entry i j + a.entry j i) = a.entry i j := by
    rw [mirrored]
    ring
  rw [Mat.symmetricPart, Mat.toMatrix_ofFn]
  exact half

theorem Mat.symmetricPart_isSymm (a : Mat ℝ n n) : a.symmetricPart.toMatrix.IsSymm := by
  rw [Mat.symmetricPart, Mat.toMatrix_ofFn]
  ext i j
  exact congrArg (0.5 * ·) (add_comm (a.entry j i) (a.entry i j))

/-- A form does not see the skew part of its matrix. -/
theorem Mat.quadraticForm_symmetricPart (a : Mat ℝ n n) (x : Vector ℝ n) :
    a.symmetricPart.quadraticForm x = a.quadraticForm x := by
  have halves : a.symmetricPart.toMatrix = (0.5 : ℝ) • (a.toMatrix + a.toMatrixᵀ) := by
    rw [Mat.symmetricPart, Mat.toMatrix_ofFn]
    rfl
  have mirrored : x.get ⬝ᵥ a.toMatrixᵀ *ᵥ x.get = x.get ⬝ᵥ a.toMatrix *ᵥ x.get := by
    rw [mulVec_transpose, dotProduct_mulVec, dotProduct_comm]
  rw [Mat.quadraticForm_eq_dotProduct, Mat.quadraticForm_eq_dotProduct, halves, smul_mulVec,
    add_mulVec, dotProduct_smul, dotProduct_add, mirrored, smul_eq_mul]
  ring

theorem Mat.ofLowerTriangle_eq (a : Mat ℝ n n) (symmetric : a.toMatrix.IsSymm) :
    a.ofLowerTriangle = a := by
  apply Mat.toMatrix_injective
  ext i j
  rw [Mat.ofLowerTriangle, Mat.toMatrix_ofFn, Matrix.of_apply]
  split
  · exact symmetric.apply i j
  · rfl

end Symmetry

section Weights

variable {strong weak : ℝ}

theorem dotProduct_mul_diagonal_mulVec (v : Matrix (Fin m) (Fin n) ℝ) (w : Fin n → ℝ)
    (x : Fin m → ℝ) :
    x ⬝ᵥ (v * diagonal w * vᵀ) *ᵥ x = ∑ j, w j * (v.col j ⬝ᵥ x) ^ 2 := by
  have components (j : Fin n) : (vᵀ *ᵥ x) j = v.col j ⬝ᵥ x := rfl
  have folded : x ⬝ᵥ (v * diagonal w * vᵀ) *ᵥ x = (vᵀ *ᵥ x) ⬝ᵥ diagonal w *ᵥ (vᵀ *ᵥ x) := by
    rw [← mulVec_mulVec, ← mulVec_mulVec, dotProduct_mulVec, mulVec_transpose]
  rw [folded]
  refine Finset.sum_congr rfl fun j _ => ?_
  rw [mulVec_diagonal, components]
  ring

theorem isSymm_mul_diagonal_mul_transpose (v : Matrix (Fin m) (Fin n) ℝ) (w : Fin n → ℝ) :
    (v * diagonal w * vᵀ).IsSymm := by
  rw [Matrix.IsSymm, transpose_mul, transpose_mul, transpose_transpose, diagonal_transpose,
    Matrix.mul_assoc]

theorem mulVec_col_of_mul_eq {a : Matrix (Fin m) (Fin m) ℝ} {v : Matrix (Fin m) (Fin n) ℝ}
    {w : Fin n → ℝ} (eigen : a * v = v * diagonal w) (j : Fin n) :
    a *ᵥ v.col j = w j • v.col j := by
  ext i
  have here := congrFun (congrFun eigen i) j
  rw [mul_diagonal, mul_comm] at here
  exact here

theorem toMatrix_weightMatrix (v : Mat ℝ m n) (d : Int) :
    (weightMatrix v d strong weak).toMatrix =
      v.toMatrix * diagonal (directionWeight n d strong weak) * v.toMatrixᵀ := by
  have sums : (Mat.ofFn fun r c => sum fun j =>
      v.entry r j * directionWeight n d strong weak j * v.entry c j).toMatrix =
        v.toMatrix * diagonal (directionWeight n d strong weak) * v.toMatrixᵀ := by
    ext r c
    rw [Mat.toMatrix_ofFn, Matrix.of_apply, sum_eq, Matrix.mul_apply]
    refine Finset.sum_congr rfl fun j _ => ?_
    rw [mul_diagonal]
    rfl
  have symmetric := isSymm_mul_diagonal_mul_transpose v.toMatrix (directionWeight n d strong weak)
  rw [weightMatrix, Mat.toMatrix_symmetricPart _ (by rwa [sums]), sums]

theorem weightMatrix_isSymm (v : Mat ℝ m n) (d : Int) :
    (weightMatrix v d strong weak).toMatrix.IsSymm := by
  rw [toMatrix_weightMatrix]
  exact isSymm_mul_diagonal_mul_transpose _ _

/-- A weight matrix adds up the squares of the components along its directions. -/
theorem quadraticForm_weightMatrix (v : Mat ℝ m n) (d : Int) (x : Vector ℝ m) :
    (weightMatrix v d strong weak).quadraticForm x =
      ∑ j, directionWeight n d strong weak j * (v.toMatrix.col j ⬝ᵥ x.get) ^ 2 := by
  rw [Mat.quadraticForm_eq_dotProduct, toMatrix_weightMatrix, dotProduct_mul_diagonal_mulVec]

theorem frontCount_of_le {d : ℕ} (inside : d ≤ n) : frontCount n d = d := by
  rw [frontCount, if_neg (by omega), Int.toNat_natCast, Nat.min_eq_left inside]

theorem directionWeight_eq {d : ℕ} (inside : d ≤ n) (j : Fin n) :
    directionWeight n d strong weak j = if j.val < d then strong else weak := by
  rw [directionWeight, frontCount_of_le inside]

theorem directionWeight_mem_Icc (ordered : strong ≤ weak) (d : Int) (j : Fin n) :
    directionWeight n d strong weak j ∈ Set.Icc strong weak := by
  rw [directionWeight]
  split
  · exact ⟨le_rfl, ordered⟩
  · exact ⟨ordered, le_rfl⟩

end Weights

section Orthonormal

variable {v : Mat ℝ n n}

theorem sum_sq_col (orthonormal : v.toMatrixᵀ * v.toMatrix = 1) (x : Vector ℝ n) :
    ∑ j, (v.toMatrix.col j ⬝ᵥ x.get) ^ 2 = squaredNorm x := by
  have whole := dotProduct_mul_diagonal_mulVec v.toMatrix (fun _ => 1) x.get
  rw [diagonal_one, Matrix.mul_one, mul_eq_one_comm.mp orthonormal, one_mulVec] at whole
  rw [squaredNorm_eq, whole]
  simp only [one_mul]

theorem mul_squaredNorm_le_sum (orthonormal : v.toMatrixᵀ * v.toMatrix = 1) {w : Fin n → ℝ} {low : ℝ}
    (least : ∀ j, low ≤ w j) (x : Vector ℝ n) :
    low * squaredNorm x ≤ ∑ j, w j * (v.toMatrix.col j ⬝ᵥ x.get) ^ 2 := by
  rw [← sum_sq_col orthonormal, Finset.mul_sum]
  exact Finset.sum_le_sum fun j _ => mul_le_mul_of_nonneg_right (least j) (sq_nonneg _)

theorem sum_le_mul_squaredNorm (orthonormal : v.toMatrixᵀ * v.toMatrix = 1) {w : Fin n → ℝ} {high : ℝ}
    (greatest : ∀ j, w j ≤ high) (x : Vector ℝ n) :
    ∑ j, w j * (v.toMatrix.col j ⬝ᵥ x.get) ^ 2 ≤ high * squaredNorm x := by
  rw [← sum_sq_col orthonormal, Finset.mul_sum]
  exact Finset.sum_le_sum fun j _ => mul_le_mul_of_nonneg_right (greatest j) (sq_nonneg _)

/-- A member of an orthonormal basis has no component along the others. -/
theorem sum_mul_sq_column (orthonormal : v.toMatrixᵀ * v.toMatrix = 1) (w : Fin n → ℝ) (i : Fin n) :
    ∑ j, w j * (v.toMatrix.col j ⬝ᵥ (v.column i).get) ^ 2 = w i := by
  have component (j : Fin n) : v.toMatrix.col j ⬝ᵥ (v.column i).get = if j = i then 1 else 0 := by
    have here := congrFun (congrFun orthonormal j) i
    rw [Matrix.mul_apply, Matrix.one_apply] at here
    rw [Mat.get_column]
    exact here
  rw [Finset.sum_eq_single i]
  · rw [component, if_pos rfl, one_pow, mul_one]
  · intro j _ other
    rw [component, if_neg other, zero_pow two_ne_zero, mul_zero]
  · exact fun outside => absurd (Finset.mem_univ i) outside

theorem squaredNorm_column (orthonormal : v.toMatrixᵀ * v.toMatrix = 1) (i : Fin n) :
    squaredNorm (v.column i) = 1 := by
  have whole := sum_mul_sq_column orthonormal (fun _ => 1) i
  simp only [one_mul] at whole
  rw [← sum_sq_col orthonormal, whole]

/-- The weight matrix along an orthonormal basis stretches each direction by its weight. -/
theorem weightMatrix_mulVec_col (orthonormal : v.toMatrixᵀ * v.toMatrix = 1) (strong weak : ℝ)
    (d : Int) (j : Fin n) : (weightMatrix v d strong weak).toMatrix *ᵥ v.toMatrix.col j =
      directionWeight n d strong weak j • v.toMatrix.col j := by
  apply mulVec_col_of_mul_eq
  rw [toMatrix_weightMatrix, Matrix.mul_assoc, orthonormal, Matrix.mul_one]

theorem quadraticForm_weightMatrix_column (orthonormal : v.toMatrixᵀ * v.toMatrix = 1)
    (strong weak : ℝ) (d : Int) (i : Fin n) :
    (weightMatrix v d strong weak).quadraticForm (v.column i) =
      directionWeight n d strong weak i := by
  rw [quadraticForm_weightMatrix, sum_mul_sq_column orthonormal]

theorem quadraticForm_weightMatrix_mem_Icc (orthonormal : v.toMatrixᵀ * v.toMatrix = 1)
    {strong weak : ℝ} (ordered : strong ≤ weak) (d : Int) (x : Vector ℝ n) :
    (weightMatrix v d strong weak).quadraticForm x ∈
      Set.Icc (strong * squaredNorm x) (weak * squaredNorm x) := by
  rw [quadraticForm_weightMatrix]
  have between (j : Fin n) := directionWeight_mem_Icc ordered d j
  exact ⟨mul_squaredNorm_le_sum orthonormal (fun j => (between j).1) x,
    sum_le_mul_squaredNorm orthonormal (fun j => (between j).2) x⟩

end Orthonormal

end LocalMetric
