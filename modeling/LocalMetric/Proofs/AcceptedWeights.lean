import LocalMetric.Proofs.Analyses
/-!
# Weight matrices from elsewhere

A weight matrix is taken over as it stands if it is symmetric up to rounding and no eigenvalue of its
symmetric part is negative beyond rounding. The least eigenvalue bounds the form of the symmetric part,
which is the form of the matrix itself, so every matrix that is taken over has a form that is
non-negative up to a small share of the largest magnitude of the eigenvalues, and measures lengths that
are right up to this share.
-/
namespace LocalMetric

open Matrix

variable {n : ℕ}

section Scale

variable {a : Mat ℝ n n} {pairs : Eigenpairs ℝ n}

theorem Eigenpairs.Resolve.spectrum_eq (resolve : pairs.Resolve a) :
    spectrum ℝ a.toMatrix = {x | x ∈ pairs.values.toList} := by
  ext x
  rw [resolve.mem_spectrum_iff, toList_eq_ofFn]
  exact List.mem_ofFn.symm

theorem Eigenpairs.Resolve.isGreatest_magnitude (resolve : pairs.Resolve a) (positive : 0 < n) :
    IsGreatest (abs '' spectrum ℝ a.toMatrix) (largestMagnitude pairs.values.toList) := by
  rw [resolve.spectrum_eq]
  apply isGreatest_largestMagnitude
  rw [← List.length_pos_iff, Vector.length_toList]
  exact positive

end Scale

namespace LocalPca

section Tests

theorem isSymmetric_of_isSymm {a : Mat ℝ n n} (symmetric : a.toMatrix.IsSymm) :
    isSymmetric a = true := by
  rw [isSymmetric, List.all_eq_true]
  intro i _
  rw [List.all_eq_true]
  intro j _
  have mirrored : a.entry i j = a.entry j i := symmetric.apply j i
  rw [Scalar.isClose, mirrored, beq_self_eq_true, Bool.true_or]

/-- The test looks at the last of the eigenvalues, which is the least. -/
theorem isIndefinite_eq_false_iff {values : Vector ℝ n} (descending : Antitone values.get)
    (positive : 0 < n) : isIndefinite values.toList = false ↔
      ∀ j, -1e-9 * largestMagnitude values.toList ≤ values.get j := by
  let last : Fin n := ⟨n - 1, Nat.sub_one_lt_of_lt positive⟩
  have ends : values.toList.getLast? = some (values.get last) := by
    have inside : n - 1 < values.toList.length := values.length_toList.symm ▸ last.isLt
    rw [List.getLast?_eq_getElem?, Vector.length_toList, List.getElem?_eq_getElem inside,
      Vector.getElem_toList]
    rfl
  rw [isIndefinite, ends, decide_eq_false_iff_not, not_lt]
  constructor
  · intro least j
    exact least.trans (descending (Fin.le_def.mpr (Nat.le_sub_one_of_lt j.isLt)))
  · exact fun all => all last

end Tests

section Taking

variable {solver : Solver ℝ} {a : Mat ℝ n n} {d : Option Int} {r : LocalPca ℝ}

theorem squareMatrix_ofMat (a : Mat ℝ n n) : squareMatrix (.ofMat a) = .ok ⟨n, a⟩ := dif_pos rfl

theorem ofWeights_ofMat (solver : Solver ℝ) (a : Mat ℝ n n) (d : Option Int) :
    ofWeights solver (.ofMat a) d =
      if isSymmetric a then
        if isIndefinite (sortedEigenpairs solver a.symmetricPart).values.toList then
          .error .weightMatrixIndefinite
        else make ((sortedEigenpairs solver a.symmetricPart).values.toList.map Scalar.nonNegative)
          ⟨n, n, (sortedEigenpairs solver a.symmetricPart).vectors⟩ a (d.getD n) 0
      else .error .weightMatrixAsymmetric := by
  rw [ofWeights, squareMatrix_ofMat]
  change (show Checked ℝ (LocalPca ℝ) from do
    if !isSymmetric a then throw .weightMatrixAsymmetric
    if isIndefinite (sortedEigenpairs solver a.symmetricPart).values.toList then
      throw .weightMatrixIndefinite
    make ((sortedEigenpairs solver a.symmetricPart).values.toList.map Scalar.nonNegative)
      ⟨n, n, (sortedEigenpairs solver a.symmetricPart).vectors⟩ a (d.getD n) 0) = _
  cases isSymmetric a with
  | false => rfl
  | true =>
      cases isIndefinite (sortedEigenpairs solver a.symmetricPart).values.toList with
      | false => rfl
      | true => rfl

theorem ofWeights_ok_iff : ofWeights solver (.ofMat a) d = .ok r ↔ isSymmetric a = true ∧
    isIndefinite (sortedEigenpairs solver a.symmetricPart).values.toList = false ∧
    make ((sortedEigenpairs solver a.symmetricPart).values.toList.map Scalar.nonNegative)
      ⟨n, n, (sortedEigenpairs solver a.symmetricPart).vectors⟩ a (d.getD n) 0 = .ok r := by
  rw [ofWeights_ofMat]
  cases isSymmetric a <;>
    cases isIndefinite (sortedEigenpairs solver a.symmetricPart).values.toList <;>
    simp only [reduceIte, Bool.false_eq_true, Bool.true_eq_false, reduceCtorEq, true_and, false_and]

theorem ofWeights_of_isIndefinite
    (indefinite : isIndefinite (sortedEigenpairs solver a.symmetricPart).values.toList = true)
    (d : Option Int) : ofWeights solver (.ofMat a) d = .error .weightMatrixAsymmetric ∨
      ofWeights solver (.ofMat a) d = .error .weightMatrixIndefinite := by
  rw [ofWeights_ofMat, indefinite]
  cases isSymmetric a with
  | false => exact .inl rfl
  | true => exact .inr rfl

theorem make_ok_iff {eigenvalues : List ℝ} {eigenvectors : Grid ℝ} {k size : Int} :
    make eigenvalues eigenvectors a k size = .ok r ↔ (1 ≤ k ∧ k ≤ n) ∧
      ∃ (one_le : 1 ≤ k.toNat) (inside : k.toNat ≤ n),
        r = ⟨eigenvalues, eigenvectors, n, a, k.toNat, size, one_le, inside⟩ := by
  rw [make]
  split
  · rename_i fits
    have one_le : 1 ≤ k.toNat := by omega
    have inside : k.toNat ≤ n := by omega
    simp only [Except.ok.injEq, fits, one_le, inside, and_self, exists_true_left, true_and, eq_comm]
  · rename_i outside
    simp only [reduceCtorEq, outside, false_and]

end Taking

end LocalPca

section Gate

variable {solver : Solver ℝ} {a : Mat ℝ n n} {d : Option Int} {r : LocalPca ℝ}

/-- A matrix and its symmetric part have the same form. It is non-negative, and is the square of the
length it measures, up to a small share of a scale. -/
structure Mat.NearlySemidefinite (a : Mat ℝ n n) (scale : ℝ) : Prop where
  halved : ∀ x, a.quadraticForm x = a.symmetricPart.quadraticForm x
  bounded : ∀ x, -1e-9 * scale * squaredNorm x ≤ a.symmetricPart.quadraticForm x
  lengths : ∀ x, |weightedLength x a ^ 2 - a.quadraticForm x| ≤ 1e-9 * scale * squaredNorm x

/-- An outcome that carries a weight matrix as it stands, and the eigenvalues of its symmetric part in
descending order, with zero in place of the negative ones. -/
structure LocalPca.TakesOver (r : LocalPca ℝ) (a : Mat ℝ n n) (d : Option Int) : Prop where
  weights : Tensor.ofMat r.weights = .ofMat a
  dimension : (r.correlationDimension : Int) = d.getD n
  nonneg : ∀ x ∈ r.eigenvalues, 0 ≤ x
  descending : r.eigenvalues.Pairwise (· ≥ ·)
  spectral : {x | x ∈ r.eigenvalues} = (max · 0) '' spectrum ℝ a.symmetricPart.toMatrix

theorem Mat.nearlySemidefinite_of_bounded {scale : ℝ} (nonneg : 0 ≤ scale)
    (bounded : ∀ x, -1e-9 * scale * squaredNorm x ≤ a.quadraticForm x) :
    a.NearlySemidefinite scale := by
  constructor
  · exact fun x => (a.quadraticForm_symmetricPart x).symm
  · exact fun x => (bounded x).trans_eq (a.quadraticForm_symmetricPart x).symm
  · intro x
    rw [weightedLength_eq, Real.sq_sqrt']
    rcases le_total 0 (a.quadraticForm x) with positive | negative
    · rw [max_eq_left positive, sub_self, abs_zero]
      exact mul_nonneg (mul_nonneg (by norm_num) nonneg) (squaredNorm_nonneg x)
    · rw [max_eq_right negative, zero_sub, abs_neg, abs_of_nonpos negative]
      have low := bounded x
      linarith

theorem LocalPca.takesOver_of_ok (resolves : solver.Resolves a.symmetricPart)
    (taken : ofWeights solver (.ofMat a) d = .ok r) : r.TakesOver a d := by
  obtain ⟨_, _, made⟩ := ofWeights_ok_iff.mp taken
  obtain ⟨fits, _, _, rfl⟩ := make_ok_iff.mp made
  have resolve := resolves.sorted a.symmetricPart_isSymm
  have clipped : (Scalar.nonNegative : ℝ → ℝ) = (max · 0) := funext Scalar.nonNegative_eq_max
  constructor
  · rfl
  · exact Int.toNat_of_nonneg (by omega)
  · intro x member
    obtain ⟨y, _, rfl⟩ := List.mem_map.mp member
    rw [Scalar.nonNegative_eq_max]
    exact le_max_right y 0
  · rw [clipped, List.pairwise_map, toList_eq_ofFn, List.pairwise_ofFn]
    intro i j before
    exact max_le_max_right 0 (antitone_sortedEigenpairs solver a.symmetricPart before.le)
  · rw [clipped, resolve.spectrum_eq]
    ext x
    exact List.mem_map

/-- The test for semidefiniteness bounds the form of the whole matrix. -/
theorem LocalPca.isIndefinite_sortedEigenpairs (resolves : solver.Resolves a.symmetricPart)
    (positive : 0 < n) :
    isIndefinite (sortedEigenpairs solver a.symmetricPart).values.toList = false ↔
      ∀ x, -1e-9 * largestMagnitude (sortedEigenpairs solver a.symmetricPart).values.toList *
        squaredNorm x ≤ a.quadraticForm x := by
  have resolve := resolves.sorted a.symmetricPart_isSymm
  rw [isIndefinite_eq_false_iff (antitone_sortedEigenpairs solver _) positive, resolve.le_values_iff]
  simp only [Mat.quadraticForm_symmetricPart]

theorem LocalPca.exists_ofWeights (resolves : solver.Resolves a.symmetricPart) (positive : 0 < n)
    (semidefinite : a.toMatrix.PosSemidef) (fits : ∀ k ∈ d, 1 ≤ k ∧ k ≤ n) :
    ∃ r, ofWeights solver (.ofMat a) d = .ok r := by
  have symmetric : a.toMatrix.IsSymm := by
    rw [Matrix.IsSymm, ← conjTranspose_eq_transpose_of_trivial]
    exact semidefinite.isHermitian
  have tested : isIndefinite (sortedEigenpairs solver a.symmetricPart).values.toList = false := by
    rw [isIndefinite_sortedEigenpairs resolves positive]
    intro x
    have form := Mat.quadraticForm_nonneg semidefinite x
    have slack := mul_nonneg (largestMagnitude_nonneg
      (sortedEigenpairs solver a.symmetricPart).values.toList) (squaredNorm_nonneg x)
    linarith
  have inside : 1 ≤ d.getD n ∧ d.getD n ≤ n := by
    cases d with
    | none => exact ⟨Int.natCast_pos.mpr positive, le_rfl⟩
    | some k => exact fits k rfl
  exact ⟨_, ofWeights_ok_iff.mpr ⟨isSymmetric_of_isSymm symmetric, tested,
    make_ok_iff.mpr ⟨inside, by omega, by omega, rfl⟩⟩⟩

/-- Every symmetric and positive-semidefinite matrix is taken over. Every matrix that is taken over is
nearly semidefinite, and is carried as it stands. A matrix whose form is too small somewhere is
refused. -/
theorem LocalPca.weight_gate (positive : 0 < n) (a : Mat ℝ n n)
    (resolves : solver.Resolves a.symmetricPart) :
    ∃ scale, IsGreatest (abs '' spectrum ℝ a.symmetricPart.toMatrix) scale ∧
    (a.toMatrix.PosSemidef → ∀ d : Option Int, (∀ k ∈ d, 1 ≤ k ∧ k ≤ n) →
      ∃ r, ofWeights solver (.ofMat a) d = .ok r) ∧
    (∀ d r, ofWeights solver (.ofMat a) d = .ok r → r.TakesOver a d ∧ a.NearlySemidefinite scale) ∧
    ∀ x, a.quadraticForm x < -1e-9 * scale * squaredNorm x → ∀ d,
      ofWeights solver (.ofMat a) d = .error .weightMatrixAsymmetric ∨
      ofWeights solver (.ofMat a) d = .error .weightMatrixIndefinite := by
  have resolve := resolves.sorted a.symmetricPart_isSymm
  have definite := isIndefinite_sortedEigenpairs resolves positive
  refine ⟨_, resolve.isGreatest_magnitude positive, ?_, ?_, ?_⟩
  · intro semidefinite d fits
    exact exists_ofWeights resolves positive semidefinite fits
  · intro d r taken
    obtain ⟨_, tested, _⟩ := ofWeights_ok_iff.mp taken
    exact ⟨takesOver_of_ok resolves taken,
      Mat.nearlySemidefinite_of_bounded (largestMagnitude_nonneg _) (definite.mp tested)⟩
  · intro x low d
    have indefinite := mt definite.mp fun bounded => not_le.mpr low (bounded x)
    exact ofWeights_of_isIndefinite (Bool.eq_true_of_not_eq_false indefinite) d

noncomputable def Mat.axes (x y : ℝ) : Mat ℝ 2 2 := .ofFn (diagonal ![x, y])

theorem Mat.toMatrix_axes (x y : ℝ) : (axes x y).toMatrix = diagonal ![x, y] := toMatrix_ofFn _

theorem Mat.spectrum_axes (x y : ℝ) : spectrum ℝ (axes x y).symmetricPart.toMatrix = {x, y} := by
  have symmetric : (axes x y).toMatrix.IsSymm := by
    rw [toMatrix_axes]
    exact diagonal_transpose _
  rw [toMatrix_symmetricPart _ symmetric, toMatrix_axes, spectrum_diagonal, range_cons_cons_empty]

theorem LocalPca.weight_gate_axes :
    (∃ r, ofWeights .spectral (.ofMat (.axes 2 3)) (some 1) = .ok r ∧
      r.TakesOver (.axes 2 3) (some 1) ∧ (Mat.axes 2 3).NearlySemidefinite 3) ∧
    (ofWeights .spectral (.ofMat (.axes 2 (-3))) none = .error .weightMatrixAsymmetric ∨
      ofWeights .spectral (.ofMat (.axes 2 (-3))) none = .error .weightMatrixIndefinite) := by
  have resolves (y : ℝ) : Solver.spectral.Resolves (Mat.axes 2 y).symmetricPart :=
    Solver.spectral_exact _ (Mat.symmetricPart_isSymm _)
  have largest {y scale : ℝ} (size : |y| = 3)
      (greatest : IsGreatest (abs '' spectrum ℝ (Mat.axes 2 y).symmetricPart.toMatrix) scale) :
      scale = 3 := by
    rw [Mat.spectrum_axes, Set.image_pair, size, abs_two] at greatest
    rw [greatest.unique isGreatest_pair]
    norm_num
  constructor
  · obtain ⟨scale, greatest, accepts, sound, _⟩ := weight_gate Nat.two_pos (.axes 2 3) (resolves 3)
    obtain rfl := largest (by norm_num) greatest
    have semidefinite : (Mat.axes 2 3).toMatrix.PosSemidef := by
      rw [Mat.toMatrix_axes]
      apply PosSemidef.diagonal
      intro i
      fin_cases i <;> norm_num
    have fits : ∀ k ∈ some (1 : Int), 1 ≤ k ∧ k ≤ (2 : ℕ) := by
      intro k member
      obtain rfl := Option.some.inj member
      decide
    obtain ⟨r, taken⟩ := accepts semidefinite (some 1) fits
    exact ⟨r, taken, sound (some 1) r taken⟩
  · obtain ⟨scale, greatest, _, _, refuses⟩ :=
      weight_gate Nat.two_pos (.axes 2 (-3)) (resolves (-3))
    obtain rfl := largest (by norm_num) greatest
    refine refuses #v[0, 1] ?_ none
    rw [Mat.quadraticForm_eq_dotProduct, Mat.toMatrix_axes, squaredNorm_eq, dotProduct, dotProduct]
    simp only [Fin.sum_univ_two, mulVec_diagonal]
    norm_num [Vector.get]

end Gate

end LocalMetric
