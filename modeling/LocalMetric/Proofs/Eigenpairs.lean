import Mathlib.Algebra.Order.Star.Real
import Mathlib.Analysis.Matrix.Spectrum
import Mathlib.Data.Fin.Tuple.Sort
import Mathlib.LinearAlgebra.Matrix.Charpoly.Eigs
import Mathlib.LinearAlgebra.Matrix.PosDef
import LocalMetric.Proofs.Matrices
import LocalMetric.Linear.Eigen
/-!
# Eigenpairs

An exact solver answers a symmetric matrix with its eigenvalues and an orthonormal basis of
eigenvectors. Sorting keeps them eigenpairs. The eigenvalues in order are determined by the matrix,
the eigenvectors are not; but a matrix that weights each eigenvector by a function of its eigenvalue
is determined again.
-/
namespace LocalMetric

open Matrix

variable {n : ℕ}

/-- Eigenpairs of a matrix whose eigenvectors form an orthonormal basis. -/
structure Eigenpairs.Resolve (pairs : Eigenpairs ℝ n) (a : Mat ℝ n n) : Prop where
  orthonormal : pairs.vectors.toMatrixᵀ * pairs.vectors.toMatrix = 1
  eigen : a.toMatrix * pairs.vectors.toMatrix =
    pairs.vectors.toMatrix * diagonal pairs.values.get

/-- A solver that answers a matrix with its eigenvalues in ascending order and an orthonormal basis
of eigenvectors. -/
structure Solver.Resolves (solver : Solver ℝ) (a : Mat ℝ n n) : Prop where
  pairs : Eigenpairs.Resolve ⟨(solver.solve a).1, (solver.solve a).2⟩ a
  ascending : Monotone (solver.solve a).1.get

def Solver.Exact (solver : Solver ℝ) : Prop :=
  ∀ {n : ℕ} (a : Mat ℝ n n), a.toMatrix.IsSymm → solver.Resolves a

section Order

theorem pairwise_mergeSort_key {β : Type} (key : β → ℝ) (xs : List β) :
    (xs.mergeSort fun a b => decide (key a ≤ key b)).Pairwise fun a b => key a ≤ key b := by
  have sorted : (xs.mergeSort fun a b => decide (key a ≤ key b)).Pairwise
      fun a b => decide (key a ≤ key b) = true := by
    apply List.pairwise_mergeSort
    · intro a b c first second
      rw [decide_eq_true_eq] at first second ⊢
      exact first.trans second
    · intro a b
      rw [Bool.or_eq_true, decide_eq_true_eq, decide_eq_true_eq]
      exact le_total _ _
  simpa only [decide_eq_true_eq] using sorted

theorem ofFn_descendingOrder (x : Vector ℝ n) : List.ofFn (descendingOrder x).get =
    ((List.finRange n).mergeSort fun i j => decide (x.get i ≤ x.get j)).reverse :=
  (toList_eq_ofFn _).symm

theorem descendingOrder_injective (x : Vector ℝ n) :
    Function.Injective (descendingOrder x).get := by
  rw [← List.nodup_ofFn, ofFn_descendingOrder, List.nodup_reverse]
  exact (List.mergeSort_perm _ _).nodup_iff.mpr (List.nodup_finRange n)

theorem antitone_get_descendingOrder (x : Vector ℝ n) :
    Antitone fun i => x.get ((descendingOrder x).get i) := by
  have descending : (List.ofFn (descendingOrder x).get).Pairwise fun i j => x.get j ≤ x.get i := by
    rw [ofFn_descendingOrder, List.pairwise_reverse]
    exact pairwise_mergeSort_key x.get (List.finRange n)
  intro i j ordered
  rcases ordered.lt_or_eq with before | rfl
  · exact List.pairwise_ofFn.mp descending before
  · exact le_rfl

end Order

section Sorted

variable {solver : Solver ℝ} {a : Mat ℝ n n}

theorem get_sortedEigenpairs {α : Type} [Scalar α] (solver : Solver α) (a : Mat α n n) (j : Fin n) :
    (sortedEigenpairs solver a).values.get j = (solver.solve a.ofLowerTriangle).1.get
      ((descendingOrder (solver.solve a.ofLowerTriangle).1).get j) :=
  get_map _ _ j

theorem entry_sortedEigenpairs {α : Type} [Scalar α] (solver : Solver α) (a : Mat α n n)
    (i j : Fin n) : (sortedEigenpairs solver a).vectors.entry i j = (solver.solve a.ofLowerTriangle).2.entry i
      ((descendingOrder (solver.solve a.ofLowerTriangle).1).get j) := by
  have row : (sortedEigenpairs solver a).vectors.get i =
      (descendingOrder (solver.solve a.ofLowerTriangle).1).map
        ((solver.solve a.ofLowerTriangle).2.get i).get :=
    get_map _ _ i
  rw [Mat.entry, row, get_map]
  rfl

theorem antitone_sortedEigenpairs (solver : Solver ℝ) (a : Mat ℝ n n) :
    Antitone (sortedEigenpairs solver a).values.get := by
  have descending := antitone_get_descendingOrder (solver.solve a.ofLowerTriangle).1
  intro i j ordered
  rw [get_sortedEigenpairs, get_sortedEigenpairs]
  exact descending ordered

/-- Eigenpairs in any order, without repetition, are eigenpairs. -/
theorem Eigenpairs.Resolve.reorder {pairs sorted : Eigenpairs ℝ n} (resolve : pairs.Resolve a)
    {order : Fin n → Fin n} (injective : Function.Injective order)
    (values : ∀ j, sorted.values.get j = pairs.values.get (order j))
    (vectors : ∀ i j, sorted.vectors.entry i j = pairs.vectors.entry i (order j)) :
    sorted.Resolve a := by
  have columns : sorted.vectors.toMatrix = pairs.vectors.toMatrix.submatrix id order := by
    ext i j
    exact vectors i j
  constructor
  · rw [columns, transpose_submatrix, ← submatrix_mul _ _ order id order Function.bijective_id,
      resolve.orthonormal]
    exact submatrix_one order injective
  · have product : a.toMatrix * pairs.vectors.toMatrix.submatrix id order =
        (a.toMatrix * pairs.vectors.toMatrix).submatrix id order := by
      ext i j
      rfl
    rw [columns, product, resolve.eigen]
    ext i j
    rw [submatrix_apply, mul_diagonal, mul_diagonal, values]
    rfl

theorem Solver.Resolves.sorted (resolves : solver.Resolves a) (symmetric : a.toMatrix.IsSymm) :
    (sortedEigenpairs solver a).Resolve a := by
  have lower := a.ofLowerTriangle_eq symmetric
  refine resolves.pairs.reorder (descendingOrder_injective (solver.solve a).1) ?_ ?_
  · intro j
    rw [get_sortedEigenpairs, lower]
  · intro i j
    rw [entry_sortedEigenpairs, lower]

end Sorted

section Uniqueness

variable {a : Mat ℝ n n} {pairs other : Eigenpairs ℝ n}

namespace Eigenpairs.Resolve

theorem orthonormal_comm (resolve : pairs.Resolve a) :
    pairs.vectors.toMatrix * pairs.vectors.toMatrixᵀ = 1 :=
  mul_eq_one_comm.mp resolve.orthonormal

theorem eq_mul_diagonal (resolve : pairs.Resolve a) : a.toMatrix =
    pairs.vectors.toMatrix * diagonal pairs.values.get * pairs.vectors.toMatrixᵀ := by
  rw [← resolve.eigen, Matrix.mul_assoc, resolve.orthonormal_comm, Matrix.mul_one]

theorem transpose_mul (resolve : pairs.Resolve a) : pairs.vectors.toMatrixᵀ * a.toMatrix =
    diagonal pairs.values.get * pairs.vectors.toMatrixᵀ := by
  rw [resolve.eq_mul_diagonal, ← Matrix.mul_assoc, ← Matrix.mul_assoc, resolve.orthonormal,
    Matrix.one_mul]

theorem diagonal_eq (resolve : pairs.Resolve a) : diagonal pairs.values.get =
    pairs.vectors.toMatrixᵀ * a.toMatrix * pairs.vectors.toMatrix := by
  rw [resolve.transpose_mul, Matrix.mul_assoc, resolve.orthonormal, Matrix.mul_one]

theorem charpoly (resolve : pairs.Resolve a) :
    a.toMatrix.charpoly = ∏ i, (Polynomial.X - Polynomial.C (pairs.values.get i)) := by
  rw [resolve.eq_mul_diagonal, Matrix.charpoly_mul_comm, ← Matrix.mul_assoc, resolve.orthonormal,
    Matrix.one_mul, charpoly_diagonal]

theorem mem_spectrum_iff (resolve : pairs.Resolve a) {x : ℝ} :
    x ∈ spectrum ℝ a.toMatrix ↔ ∃ j, pairs.values.get j = x := by
  rw [Matrix.mem_spectrum_iff_isRoot_charpoly, resolve.charpoly, Polynomial.IsRoot,
    Polynomial.eval_prod, Finset.prod_eq_zero_iff]
  simp only [Finset.mem_univ, true_and, Polynomial.eval_sub, Polynomial.eval_X, Polynomial.eval_C,
    sub_eq_zero]
  exact exists_congr fun j => eq_comm

theorem isGreatest_spectrum (resolve : pairs.Resolve a) (descending : Antitone pairs.values.get)
    (positive : 0 < n) : IsGreatest (spectrum ℝ a.toMatrix) (pairs.values.get ⟨0, positive⟩) := by
  constructor
  · exact resolve.mem_spectrum_iff.mpr ⟨⟨0, positive⟩, rfl⟩
  · intro x member
    obtain ⟨j, rfl⟩ := resolve.mem_spectrum_iff.mp member
    exact descending (Fin.le_def.mpr (Nat.zero_le j))

/-- The eigenvalues in descending order are the roots of the characteristic polynomial. -/
theorem values_unique (resolve : pairs.Resolve a) (resolve' : other.Resolve a)
    (descending : Antitone pairs.values.get) (descending' : Antitone other.values.get) :
    pairs.values = other.values := by
  have roots (values : Fin n → ℝ) :
      (∏ i, (Polynomial.X - Polynomial.C (values i))).roots = (List.ofFn values : Multiset ℝ) := by
    rw [← Polynomial.roots_multiset_prod_X_sub_C (List.ofFn values : Multiset ℝ)]
    congr 1
    rw [Multiset.map_coe, Multiset.prod_coe, List.map_ofFn, List.prod_ofFn]
    rfl
  have same : (List.ofFn pairs.values.get : Multiset ℝ) = List.ofFn other.values.get := by
    rw [← roots, ← roots, ← resolve.charpoly, ← resolve'.charpoly]
  apply get_injective
  apply List.ofFn_injective
  exact (Multiset.coe_eq_coe.mp same).eq_of_sortedGE descending.sortedGE_ofFn
    descending'.sortedGE_ofFn

/-- Weights that depend only on the eigenvalue give the same matrix for all eigenvectors. -/
theorem mul_diagonal_unique (resolve : pairs.Resolve a) (resolve' : other.Resolve a)
    (values : pairs.values = other.values) {w : Fin n → ℝ}
    (spectral : ∀ i j, pairs.values.get i = pairs.values.get j → w i = w j) :
    pairs.vectors.toMatrix * diagonal w * pairs.vectors.toMatrixᵀ =
      other.vectors.toMatrix * diagonal w * other.vectors.toMatrixᵀ := by
  let change := pairs.vectors.toMatrixᵀ * other.vectors.toMatrix
  have onValues : diagonal pairs.values.get * change = change * diagonal pairs.values.get := by
    rw [← Matrix.mul_assoc, ← resolve.transpose_mul, Matrix.mul_assoc, resolve'.eigen, values,
      Matrix.mul_assoc]
  have onWeights : diagonal w * change = change * diagonal w := by
    ext i j
    have here := congrFun (congrFun onValues i) j
    rw [diagonal_mul, mul_diagonal] at here ⊢
    by_cases same : pairs.values.get i = pairs.values.get j
    · rw [spectral i j same, mul_comm]
    · have apart : (pairs.values.get i - pairs.values.get j) * change i j = 0 := by
        rw [sub_mul, here]
        ring
      have zero : change i j = 0 := (mul_eq_zero.mp apart).resolve_left (sub_ne_zero.mpr same)
      rw [zero, mul_zero, zero_mul]
  calc pairs.vectors.toMatrix * diagonal w * pairs.vectors.toMatrixᵀ
      = pairs.vectors.toMatrix * (diagonal w * change) * other.vectors.toMatrixᵀ := by
        simp only [change, Matrix.mul_assoc, resolve'.orthonormal_comm, Matrix.mul_one]
    _ = pairs.vectors.toMatrix * (change * diagonal w) * other.vectors.toMatrixᵀ := by
        rw [onWeights]
    _ = other.vectors.toMatrix * diagonal w * other.vectors.toMatrixᵀ := by
        simp only [change, ← Matrix.mul_assoc, resolve.orthonormal_comm, Matrix.one_mul]

end Eigenpairs.Resolve

end Uniqueness

section Forms

variable {a : Mat ℝ n n} {pairs : Eigenpairs ℝ n}

theorem Mat.quadraticForm_nonneg (semidefinite : a.toMatrix.PosSemidef) (x : Vector ℝ n) :
    0 ≤ a.quadraticForm x := by
  rw [Mat.quadraticForm_eq_dotProduct]
  exact semidefinite.dotProduct_mulVec_nonneg x.get

namespace Eigenpairs.Resolve

theorem quadraticForm_eq (resolve : pairs.Resolve a) (x : Vector ℝ n) : a.quadraticForm x =
    ∑ j, pairs.values.get j * (pairs.vectors.toMatrix.col j ⬝ᵥ x.get) ^ 2 := by
  rw [Mat.quadraticForm_eq_dotProduct, resolve.eq_mul_diagonal, dotProduct_mul_diagonal_mulVec]

theorem quadraticForm_column (resolve : pairs.Resolve a) (j : Fin n) :
    a.quadraticForm (pairs.vectors.column j) = pairs.values.get j := by
  rw [resolve.quadraticForm_eq, sum_mul_sq_column resolve.orthonormal]

/-- The lower bounds of the eigenvalues are those of the form on vectors of length one. -/
theorem le_values_iff (resolve : pairs.Resolve a) {low : ℝ} :
    (∀ j, low ≤ pairs.values.get j) ↔ ∀ x, low * squaredNorm x ≤ a.quadraticForm x := by
  constructor
  · intro least x
    rw [resolve.quadraticForm_eq]
    exact mul_squaredNorm_le_sum resolve.orthonormal least x
  · intro below j
    have here := below (pairs.vectors.column j)
    rwa [squaredNorm_column resolve.orthonormal, mul_one, resolve.quadraticForm_column] at here

theorem values_nonneg (resolve : pairs.Resolve a) (semidefinite : a.toMatrix.PosSemidef) (j : Fin n) :
    0 ≤ pairs.values.get j := by
  rw [← resolve.quadraticForm_column]
  exact Mat.quadraticForm_nonneg semidefinite (pairs.vectors.column j)

end Eigenpairs.Resolve

end Forms

section Existence

theorem exists_resolve {a : Mat ℝ n n} (symmetric : a.toMatrix.IsSymm) :
    ∃ pairs : Eigenpairs ℝ n, pairs.Resolve a := by
  have hermitian : a.toMatrix.IsHermitian := by
    rwa [Matrix.IsHermitian, conjTranspose_eq_transpose_of_trivial]
  let vectors : Matrix (Fin n) (Fin n) ℝ := hermitian.eigenvectorUnitary
  have eigen : a.toMatrix * vectors = vectors * diagonal hermitian.eigenvalues := by
    ext i j
    have column := congrFun (hermitian.mulVec_eigenvectorBasis j) i
    rw [mul_diagonal, mul_comm]
    exact column
  have orthonormal : vectorsᵀ * vectors = 1 := by
    rw [← conjTranspose_eq_transpose_of_trivial]
    exact Unitary.coe_star_mul_self hermitian.eigenvectorUnitary
  let pairs : Eigenpairs ℝ n := ⟨Vector.ofFn hermitian.eigenvalues, Mat.ofFn vectors⟩
  have values : pairs.values.get = hermitian.eigenvalues := funext fun i => get_ofFn _ i
  have columns : pairs.vectors.toMatrix = vectors := Mat.toMatrix_ofFn vectors
  refine ⟨pairs, ?_, ?_⟩
  · rw [columns, orthonormal]
  · rw [columns, values, eigen]

theorem exists_ascending_resolve {a : Mat ℝ n n} (symmetric : a.toMatrix.IsSymm) :
    ∃ pairs : Eigenpairs ℝ n, pairs.Resolve a ∧ Monotone pairs.values.get := by
  obtain ⟨pairs, resolve⟩ := exists_resolve symmetric
  let order := Tuple.sort pairs.values.get
  let sorted : Eigenpairs ℝ n :=
    ⟨Vector.ofFn fun j => pairs.values.get (order j),
      Mat.ofFn fun i j => pairs.vectors.entry i (order j)⟩
  have values (j : Fin n) : sorted.values.get j = pairs.values.get (order j) := get_ofFn _ j
  have vectors (i j : Fin n) : sorted.vectors.entry i j = pairs.vectors.entry i (order j) :=
    Mat.entry_ofFn _ i j
  refine ⟨sorted, resolve.reorder order.injective values vectors, ?_⟩
  intro i j ordered
  rw [values, values]
  exact Tuple.monotone_sort pairs.values.get ordered

open Classical in
/-- A solver that resolves every symmetric matrix, by the spectral theorem. -/
noncomputable def Solver.spectral : Solver ℝ where
  solve := fun a =>
    if symmetric : a.toMatrix.IsSymm then
      let pairs := (exists_ascending_resolve symmetric).choose
      (pairs.values, pairs.vectors)
    else (Vector.ofFn 0, a)

theorem Solver.spectral_exact : Solver.spectral.Exact := by
  intro _ a symmetric
  have chosen := (exists_ascending_resolve symmetric).choose_spec
  have answer : Solver.spectral.solve a = ((exists_ascending_resolve symmetric).choose.values,
      (exists_ascending_resolve symmetric).choose.vectors) := dif_pos symmetric
  constructor
  · rw [answer]
    exact chosen.1
  · rw [answer]
    exact chosen.2

end Existence

end LocalMetric
