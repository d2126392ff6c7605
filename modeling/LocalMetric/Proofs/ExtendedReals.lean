import LocalMetric.Proofs.Analyses
/-!
# Exact arithmetic with infinities

The real numbers together with two infinities and a value that is no number, with the rules that
doubles have for these: what has no meaning is undefined, an undefined operand leaves an undefined
result, and no comparison with it holds. There is one zero only. On real numbers every stage of the
analysis does what it does in exact arithmetic without them.
-/
namespace LocalMetric

/-- A real number, an infinity or no number at all. -/
inductive Extended where
  | real (x : ℝ)
  | infinite (negative : Bool)
  | undefined

namespace Extended

noncomputable section

open Classical

def add : Extended → Extended → Extended
  | .real x, .real y => .real (x + y)
  | .real _, .infinite negative => .infinite negative
  | .infinite negative, .real _ => .infinite negative
  | .infinite first, .infinite second => if first = second then .infinite first else .undefined
  | _, _ => .undefined

def neg : Extended → Extended
  | .real x => .real (-x)
  | .infinite negative => .infinite !negative
  | .undefined => .undefined

/-- The multiple of an infinity, which a factor of zero leaves undefined. -/
def scale (x : ℝ) (negative : Bool) : Extended :=
  if x = 0 then .undefined else .infinite (negative ^^ decide (x < 0))

def mul : Extended → Extended → Extended
  | .real x, .real y => .real (x * y)
  | .real x, .infinite negative => scale x negative
  | .infinite negative, .real y => scale y negative
  | .infinite first, .infinite second => .infinite (first ^^ second)
  | _, _ => .undefined

def inverse : Extended → Extended
  | .real x => if x = 0 then .infinite false else .real x⁻¹
  | .infinite _ => .real 0
  | .undefined => .undefined

def Less : Extended → Extended → Prop
  | .real x, .real y => x < y
  | .real _, .infinite negative => negative = false
  | .infinite negative, .real _ => negative = true
  | .infinite first, .infinite second => first = true ∧ second = false
  | _, _ => False

def Equal (x y : Extended) : Prop := x = y ∧ x ≠ .undefined

def root : Extended → Extended
  | .real x => if x < 0 then .undefined else .real √x
  | .infinite negative => if negative then .undefined else .infinite false
  | .undefined => .undefined

def logarithm : Extended → Extended
  | .real x =>
    if x < 0 then .undefined else if x = 0 then .infinite true else .real (Real.log x)
  | .infinite negative => if negative then .undefined else .infinite false
  | .undefined => .undefined

instance : Scalar Extended where
  add := add
  sub x y := add x (neg y)
  mul := mul
  div x y := mul x (inverse y)
  neg := neg
  lt := Less
  le x y := Less x y ∨ Equal x y
  beq x y := decide (Equal x y)
  zero := .real 0
  one := .real 1
  natCast n := .real n
  ofScientific mantissa negative exponent :=
    .real (OfScientific.ofScientific mantissa negative exponent)
  decideLt := fun _ _ => propDecidable _
  decideLe := fun _ _ => propDecidable _
  sqrt := root
  log := logarithm
  isFinite
    | .real _ => true
    | _ => false

def number : Extended → ℝ
  | .real x => x
  | _ => 0

end

section Numbers

variable {x y : ℝ}

@[simp] theorem real_add_real (x y : ℝ) : (real x + real y : Extended) = real (x + y) := rfl

@[simp] theorem real_mul_real (x y : ℝ) : (real x * real y : Extended) = real (x * y) := rfl

@[simp] theorem real_sub_real (x y : ℝ) : (real x - real y : Extended) = real (x - y) :=
  congrArg real (sub_eq_add_neg x y).symm

theorem real_div_real (x : ℝ) (nonzero : y ≠ 0) : (real x / real y : Extended) = real (x / y) := by
  change mul (real x) (inverse (real y)) = _
  rw [inverse, if_neg nonzero, mul, div_eq_mul_inv]

theorem real_lt_real : (real x : Extended) < real y ↔ x < y := Iff.rfl

theorem real_le_real : (real x : Extended) ≤ real y ↔ x ≤ y := by
  rw [le_iff_lt_or_eq]
  refine or_congr Iff.rfl ⟨fun equal => real.inj equal.1, ?_⟩
  rintro rfl
  exact ⟨rfl, nofun⟩

theorem beq_iff {x y : Extended} : (x == y) = true ↔ x = y ∧ x ≠ .undefined := by
  classical exact decide_eq_true_iff

theorem real_beq_real : (real x == real y) = true ↔ x = y := by
  rw [beq_iff]
  exact ⟨fun equal => real.inj equal.1, fun same => ⟨congrArg real same, nofun⟩⟩

theorem larger_real (x y : ℝ) : Scalar.larger (real x) (real y) = real (Scalar.larger x y) := by
  unfold Scalar.larger
  exact (apply_ite real (x < y) y x).symm ▸ if_congr real_lt_real rfl rfl

theorem largerOrNaN_real (x y : ℝ) :
    Scalar.largerOrNaN (real x) (real y) = real (Scalar.largerOrNaN x y) := by
  rw [Scalar.largerOrNaN, if_pos (real_beq_real.mpr rfl), if_pos (real_beq_real.mpr rfl),
    Scalar.largerOrNaN, if_pos (beq_self_eq_true x), if_pos (beq_self_eq_true y), larger_real]

theorem exists_real {x : Extended} (finite : Scalar.isFinite x = true) : real x.number = x := by
  cases x with
  | real => rfl
  | infinite => cases finite
  | undefined => cases finite

theorem sum_real {n : ℕ} (f : Fin n → ℝ) : sum (fun i => real (f i)) = real (sum f) := by
  induction n with
  | zero => rfl
  | succ n ih =>
      have init : Fin.foldl n (fun total i => total + real (f i.castSucc)) 0 =
          real (Fin.foldl n (fun total i => total + f i.castSucc) 0) := ih fun i => f i.castSucc
      rw [sum, Fin.foldl_succ_last, init, real_add_real, sum, Fin.foldl_succ_last]

end Numbers

end Extended

open Extended

variable {m n : ℕ}

def liftVector (x : Vector ℝ n) : Vector Extended n := x.map .real

def Mat.lift (a : Mat ℝ m n) : Mat Extended m n := a.map liftVector

@[simp] theorem get_liftVector (x : Vector ℝ n) (i : Fin n) : (liftVector x).get i = real (x.get i) :=
  get_map _ _ i

namespace Mat

theorem get_lift (a : Mat ℝ m n) (i : Fin m) : a.lift.get i = liftVector (a.get i) := get_map _ _ i

@[simp] theorem entry_lift (a : Mat ℝ m n) (i : Fin m) (j : Fin n) :
    a.lift.entry i j = real (a.entry i j) := by
  rw [entry, get_lift, get_liftVector]
  rfl

theorem eq_of_entry {α : Type} {a b : Mat α m n} (same : ∀ i j, a.entry i j = b.entry i j) :
    a = b := by
  apply get_injective
  funext i
  apply get_injective
  funext j
  exact same i j

theorem ofFn_real (f : Fin m → Fin n → ℝ) : (ofFn fun i j => real (f i j)) = (ofFn f).lift := by
  apply eq_of_entry
  intro i j
  rw [entry_ofFn, entry_lift, entry_ofFn]

theorem exists_lift {a : Mat Extended m n} (finite : a.allFinite = true) :
    ∃ b : Mat ℝ m n, b.lift = a := by
  rw [allFinite, Vector.all_eq_true] at finite
  refine ⟨ofFn fun i j => (a.entry i j).number, eq_of_entry fun i j => ?_⟩
  rw [entry_lift, entry_ofFn]
  exact exists_real (Vector.all_eq_true.mp (finite i i.isLt) j j.isLt)

end Mat

theorem all_isFinite_liftVector (x : Vector ℝ n) : (liftVector x).all Scalar.isFinite = true := by
  rw [Vector.all_eq_true]
  intro i inside
  have here : (liftVector x)[i] = real (x.get ⟨i, inside⟩) := get_liftVector x ⟨i, inside⟩
  rw [here]
  rfl

theorem Mat.allFinite_lift (a : Mat ℝ m n) : a.lift.allFinite = true := by
  rw [allFinite, Vector.all_eq_true]
  intro i inside
  have here : a.lift[i] = liftVector (a.get ⟨i, inside⟩) := a.get_lift ⟨i, inside⟩
  rw [here, all_isFinite_liftVector]

theorem exists_liftVector {x : Vector Extended n} (finite : x.all Scalar.isFinite = true) :
    ∃ y, liftVector y = x := by
  refine ⟨x.map number, get_injective (funext fun i => ?_)⟩
  rw [get_liftVector, get_map]
  exact exists_real (Vector.all_eq_true.mp finite i i.isLt)

section Stages

theorem difference_lift (x y : Vector ℝ n) :
    difference (liftVector x) (liftVector y) = liftVector (difference x y) := by
  apply get_injective
  funext i
  simp only [difference, get_ofFn, get_liftVector, real_sub_real]

namespace Mat

theorem quadraticForm_lift (a : Mat ℝ n n) (x : Vector ℝ n) :
    a.lift.quadraticForm (liftVector x) = real (a.quadraticForm x) := by
  simp only [quadraticForm, get_liftVector, entry_lift, real_mul_real, sum_real]

theorem symmetricPart_lift (a : Mat ℝ n n) : a.lift.symmetricPart = a.symmetricPart.lift := by
  have half : (0.5 : Extended) = real 0.5 := rfl
  simp only [symmetricPart, entry_lift, half, real_add_real, real_mul_real, ofFn_real]

theorem ofLowerTriangle_lift (a : Mat ℝ n n) : a.lift.ofLowerTriangle = a.ofLowerTriangle.lift := by
  rw [ofLowerTriangle, ofLowerTriangle, ← ofFn_real]
  congr 1
  funext i j
  rw [entry_lift, entry_lift, apply_ite real]

end Mat

theorem directionWeight_lift (d : Int) (strong weak : ℝ) (j : Fin n) :
    directionWeight n d (real strong) (real weak) j = real (directionWeight n d strong weak j) := by
  rw [directionWeight, directionWeight, apply_ite real]

theorem weightMatrix_lift (v : Mat ℝ m n) (d : Int) (strong weak : ℝ) :
    weightMatrix v.lift d (real strong) (real weak) = (weightMatrix v d strong weak).lift := by
  simp only [weightMatrix, Mat.entry_lift, directionWeight_lift, real_mul_real, sum_real,
    Mat.ofFn_real, Mat.symmetricPart_lift]

theorem descendingOrder_lift (x : Vector ℝ n) :
    descendingOrder (liftVector x) = descendingOrder x := by
  have comparisons : (fun i j => decide ((liftVector x).get i ≤ (liftVector x).get j)) =
      fun i j => decide (x.get i ≤ x.get j) := by
    funext i j
    rw [get_liftVector, get_liftVector]
    exact decide_eq_decide.mpr real_le_real
  simp only [descendingOrder, comparisons]

end Stages

section Analysis

def Config.lift (c : Config ℝ) : Config Extended :=
  ⟨real c.threshold, real c.strong, real c.weak, c.center, real c.tolerance⟩

theorem Config.Accepted.lift {c : Config ℝ} (accepted : c.Accepted) : c.lift.Accepted := by
  obtain ⟨⟨positive, share⟩, strong, ordered, tolerance⟩ := Config.accepted_iff_checks.mp accepted
  exact Config.accepted_iff_checks.mpr ⟨⟨positive, real_le_real.mpr share⟩,
    fun small => strong (real_le_real.mp small), ordered, tolerance⟩

/-- A solver that answers symmetric matrices of real numbers like an exact one. -/
def Solver.ExactOnReals (solver : Solver Extended) : Prop :=
  ∃ exact : Solver ℝ, exact.Exact ∧ ∀ {n : ℕ} (a : Mat ℝ n n), a.toMatrix.IsSymm →
    solver.solve a.lift = (liftVector (exact.solve a).1, (exact.solve a).2.lift)

theorem sortedEigenpairs_lift {solver : Solver Extended} {exact : Solver ℝ} {a : Mat ℝ n n}
    (symmetric : a.toMatrix.IsSymm)
    (answer : solver.solve a.lift = (liftVector (exact.solve a).1, (exact.solve a).2.lift)) :
    sortedEigenpairs solver a.lift = ⟨liftVector (sortedEigenpairs exact a).values,
      (sortedEigenpairs exact a).vectors.lift⟩ := by
  have lower := a.ofLowerTriangle_eq symmetric
  rw [sortedEigenpairs, Mat.ofLowerTriangle_lift, lower, answer, sortedEigenpairs, lower]
  simp only [descendingOrder_lift]
  congr 1
  · apply get_injective
    funext j
    simp only [get_map, get_liftVector]
  · apply Mat.eq_of_entry
    intro i j
    rw [Mat.entry_lift]
    simp only [Mat.entry, get_map, Mat.get_lift, get_liftVector]

noncomputable def Solver.lift (exact : Solver ℝ) : Solver Extended where
  solve a :=
    let answer := exact.solve (Mat.ofFn fun i j => (a.entry i j).number)
    (liftVector answer.1, answer.2.lift)

theorem Solver.solve_lift (exact : Solver ℝ) (a : Mat ℝ n n) :
    exact.lift.solve a.lift = (liftVector (exact.solve a).1, (exact.solve a).2.lift) := by
  have numbers : (Mat.ofFn fun i j => (a.lift.entry i j).number) = a := by
    apply Mat.eq_of_entry
    intro i j
    rw [Mat.entry_ofFn, Mat.entry_lift]
    rfl
  simp only [lift, numbers]

theorem Solver.Exact.lift {exact : Solver ℝ} (resolves : exact.Exact) : exact.lift.ExactOnReals :=
  ⟨exact, resolves, fun a _ => exact.solve_lift a⟩

abbrev Neighborhood.lift (s : Neighborhood ℝ) : Neighborhood Extended where
  count := s.count
  dim := s.dim
  points := s.points.lift
  nonempty := s.nonempty
  anchor := liftVector s.anchor
  anchor_finite := all_isFinite_liftVector s.anchor
  points_finite := s.points.allFinite_lift

abbrev PointSet.lift (s : PointSet ℝ) : PointSet Extended where
  size := s.size
  dim := s.dim
  vectors := s.vectors.lift
  ids := s.ids
  nonempty := s.nonempty
  ids_nodup := s.ids_nodup
  vectors_finite := s.vectors.allFinite_lift

theorem PointSet.vector_lift {s : PointSet ℝ} {id : Int} {x : Vector ℝ s.dim}
    (found : s.vector id = .ok x) : s.lift.vector id = .ok (liftVector x) := by
  unfold vector row rowOf? at found ⊢
  cases place : s.ids.finIdxOf? id with
  | none =>
      rw [place] at found
      cases found
  | some i =>
      rw [place] at found
      cases found
      exact congrArg Except.ok (s.vectors.get_lift i)

namespace Neighborhood

/-- All points of a neighborhood are finite, so they are real. -/
theorem exists_lift (s : Neighborhood Extended) : ∃ t : Neighborhood ℝ, t.lift = s := by
  obtain ⟨⟨count, dim, points, nonempty⟩, anchor, anchor_finite, points_finite⟩ := s
  obtain ⟨points', rfl⟩ : ∃ real : Mat ℝ count dim, real.lift = points :=
    Mat.exists_lift points_finite
  obtain ⟨anchor', rfl⟩ : ∃ real : Vector ℝ dim, liftVector real = anchor :=
    exists_liftVector anchor_finite
  exact ⟨.ofRows anchor' points' nonempty, rfl⟩

theorem centroid_lift (s : Neighborhood ℝ) : s.lift.centroid = liftVector s.centroid := by
  have count : (s.count : ℝ) ≠ 0 := Nat.cast_ne_zero.mpr s.nonempty.1.ne'
  apply get_injective
  funext j
  have mean : (sum fun i => s.lift.points.entry i j) / (s.lift.count : Extended) =
      real ((sum fun i => s.points.entry i j) / (s.count : ℝ)) := by
    rw [← real_div_real _ count, ← sum_real]
    simp only [← Mat.entry_lift]
    rfl
  rw [centroid, get_ofFn, mean, get_liftVector, centroid, get_ofFn]

theorem origin_lift (s : Neighborhood ℝ) (center : Center) :
    s.lift.origin center = liftVector (s.origin center) := by
  cases center with
  | centroid => exact s.centroid_lift
  | anchor => rfl

theorem deviations_lift (s : Neighborhood ℝ) (center : Center) :
    s.lift.deviations center = (s.deviations center).lift := by
  apply get_injective
  funext i
  rw [Mat.get_lift, deviations, deviations, get_map, get_map, origin_lift, ← difference_lift]
  exact congrArg (fun point => difference point _) (s.points.get_lift i)

theorem scatter_lift (s : Neighborhood ℝ) (center : Center) :
    s.lift.scatter center = (s.scatter center).lift := by
  have count : (s.count : ℝ) ≠ 0 := Nat.cast_ne_zero.mpr s.nonempty.1.ne'
  have mean (x : ℝ) : real x / (s.lift.count : Extended) = real (x / (s.count : ℝ)) :=
    real_div_real x count
  simp only [scatter, deviations_lift, Mat.entry_lift, real_mul_real, sum_real, mean, Mat.ofFn_real,
    Mat.symmetricPart_lift]

theorem pairs_lift (s : Neighborhood ℝ) {solver : Solver Extended} {exact : Solver ℝ}
    (answers : ∀ {n : ℕ} (a : Mat ℝ n n), a.toMatrix.IsSymm →
      solver.solve a.lift = (liftVector (exact.solve a).1, (exact.solve a).2.lift))
    (center : Center) : s.lift.pairs solver center =
      ⟨liftVector (s.pairs exact center).values, (s.pairs exact center).vectors.lift⟩ := by
  have symmetric := s.scatter_isSymm center
  rw [pairs, s.scatter_lift, sortedEigenpairs_lift symmetric (answers _ symmetric)]
  rfl

end Neighborhood

end Analysis

end LocalMetric
