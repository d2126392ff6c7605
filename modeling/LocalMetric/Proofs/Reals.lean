import Mathlib.Analysis.SpecialFunctions.Log.Basic
import Mathlib.Analysis.SpecialFunctions.Sqrt
import LocalMetric.Distance.Quadratic
/-!
# Exact arithmetic

The real numbers as scalars. All of them are finite and comparable, so the functions that are careful
about incomparable values are the usual ones, and sums in order are sums.
-/
namespace LocalMetric

noncomputable instance : Scalar ℝ where
  decideLt := inferInstance
  decideLe := inferInstance
  sqrt := Real.sqrt
  log := Real.log
  isFinite _ := true

namespace Scalar

theorem larger_eq_max (x y : ℝ) : larger x y = max x y := by
  rw [larger, max_def_lt]

theorem largerOrNaN_eq_max (x y : ℝ) : largerOrNaN x y = max x y := by
  rw [largerOrNaN, if_pos (beq_self_eq_true x), if_pos (beq_self_eq_true y), larger_eq_max]

theorem nonNegative_eq_max (x : ℝ) : nonNegative x = max x 0 := by
  rw [nonNegative, max_comm, max_def]
  split
  · rename_i negative
    rw [if_neg (not_le.mpr negative)]
  · rename_i other
    rw [if_pos (not_lt.mp other)]

theorem sqrt_nonNegative (x : ℝ) : sqrt (nonNegative x) = √x := by
  rw [nonNegative_eq_max]
  rcases le_total 0 x with positive | negative
  · rw [max_eq_left positive]
    rfl
  · rw [max_eq_right negative, Real.sqrt_eq_zero_of_nonpos negative]
    exact Real.sqrt_zero

end Scalar

theorem Mat.allFinite_real {m n : ℕ} (a : Mat ℝ m n) : a.allFinite = true := by
  rw [Mat.allFinite, Vector.all_eq_true]
  intro i inside
  rw [Vector.all_eq_true]
  exact fun _ _ => rfl

theorem sum_eq {n : ℕ} (f : Fin n → ℝ) : sum f = ∑ i, f i := by
  induction n with
  | zero => rfl
  | succ n ih =>
      rw [sum, Fin.foldl_succ_last, Fin.sum_univ_castSucc]
      exact congrArg (· + f (Fin.last n)) (ih fun i => f i.castSucc)

theorem listSum_eq (xs : List ℝ) : listSum xs = xs.sum := by
  rw [listSum, List.sum_eq_foldl]

section Vectors

variable {m n : ℕ}

@[simp] theorem get_ofFn {α : Type} (f : Fin n → α) (i : Fin n) : (Vector.ofFn f).get i = f i :=
  Vector.getElem_ofFn i.isLt

theorem get_map {α β : Type} (f : α → β) (x : Vector α n) (i : Fin n) :
    (x.map f).get i = f (x.get i) :=
  Vector.getElem_map f i.isLt

theorem get_replicate {α : Type} (x : α) (i : Fin n) : (Vector.replicate n x).get i = x :=
  Vector.getElem_replicate i.isLt

theorem toList_eq_ofFn {α : Type} (x : Vector α n) : x.toList = List.ofFn x.get := by
  apply List.ext_getElem
  · simp only [Vector.length_toList, List.length_ofFn]
  · intro i _ _
    rw [Vector.getElem_toList, List.getElem_ofFn]
    rfl

@[simp] theorem get_difference (x y : Vector ℝ n) (i : Fin n) :
    (difference x y).get i = x.get i - y.get i := by
  simp only [difference, get_ofFn]

@[simp] theorem Mat.entry_ofFn {α : Type} (f : Fin m → Fin n → α) (i : Fin m) (j : Fin n) :
    (Mat.ofFn f).entry i j = f i j := by
  simp only [Mat.ofFn, Mat.entry, get_ofFn]

theorem Mat.quadraticForm_eq (a : Mat ℝ n n) (x : Vector ℝ n) :
    a.quadraticForm x = ∑ j, (∑ i, x.get i * a.entry i j) * x.get j := by
  simp only [Mat.quadraticForm, sum_eq]

/-- A form does not see the sign of a displacement. -/
theorem Mat.quadraticForm_difference_comm (a : Mat ℝ n n) (x y : Vector ℝ n) :
    a.quadraticForm (difference x y) = a.quadraticForm (difference y x) := by
  rw [Mat.quadraticForm_eq, Mat.quadraticForm_eq]
  refine Finset.sum_congr rfl fun j _ => ?_
  have inner : ∑ i, (difference x y).get i * a.entry i j =
      -∑ i, (difference y x).get i * a.entry i j := by
    rw [← Finset.sum_neg_distrib]
    refine Finset.sum_congr rfl fun i _ => ?_
    rw [get_difference, get_difference]
    ring
  rw [inner, get_difference, get_difference]
  ring

theorem Mat.quadraticForm_difference_self (a : Mat ℝ n n) (x : Vector ℝ n) :
    a.quadraticForm (difference x x) = 0 := by
  rw [Mat.quadraticForm_eq]
  refine Finset.sum_eq_zero fun j _ => ?_
  rw [get_difference, sub_self, mul_zero]

/-- A length is the root of its form, and a negative form counts as zero. -/
theorem weightedLength_eq (delta : Vector ℝ n) (weights : Mat ℝ n n) :
    weightedLength delta weights = √(weights.quadraticForm delta) := by
  rw [weightedLength, formLength]
  split
  · rfl
  · rename_i other
    exact (Real.sqrt_eq_zero_of_nonpos (not_lt.mp other)).symm

theorem weightedDistance_eq (p q : Vector ℝ n) (weightsP weightsQ : Mat ℝ n n) :
    weightedDistance p q weightsP weightsQ =
      max √(weightsP.quadraticForm (difference p q)) √(weightsQ.quadraticForm (difference p q)) := by
  rw [weightedDistance, Scalar.larger_eq_max, weightedLength_eq, weightedLength_eq]

theorem weightedDistance_comm (p q : Vector ℝ n) (weightsP weightsQ : Mat ℝ n n) :
    weightedDistance p q weightsP weightsQ = weightedDistance q p weightsQ weightsP := by
  rw [weightedDistance_eq, weightedDistance_eq, max_comm, weightsP.quadraticForm_difference_comm,
    weightsQ.quadraticForm_difference_comm]

theorem weightedDistance_self (p : Vector ℝ n) (weightsP weightsQ : Mat ℝ n n) :
    weightedDistance p p weightsP weightsQ = 0 := by
  rw [weightedDistance_eq, Mat.quadraticForm_difference_self, Mat.quadraticForm_difference_self,
    Real.sqrt_zero, max_self]

theorem weightedDistance_nonneg (p q : Vector ℝ n) (weightsP weightsQ : Mat ℝ n n) :
    0 ≤ weightedDistance p q weightsP weightsQ := by
  rw [weightedDistance_eq]
  exact le_max_of_le_left (Real.sqrt_nonneg _)

end Vectors

end LocalMetric
