import LocalMetric.Proofs.Distortion
import LocalMetric.Proofs.ExtendedReals
import LocalMetric.Proofs.Readiness
/-!
# What special values do to distances

The checks of a configuration are comparisons, so a weight that is infinite or no number at all may
pass them. With finite weights every weight matrix is positive definite, whatever the other settings
are. With any other weight a matrix has undefined entries: a single distance then comes out as zero,
while the distance matrix says that it is undefined.
-/
namespace LocalMetric

section Promises

variable {α : Type} [Scalar α]

/-- Whether a value is no number: it differs from itself. -/
def Scalar.isUndefined (x : α) : Bool := !(x == x)

/-- All distances between the points of a list are answered, alone and in the distance matrix, and
both ways agree on which of them are undefined. -/
def Session.AgreesOnUndefined (s : Session α) (m : ℕ) (ids : List Int) : Prop :=
  ∃ a : Mat α ids.length ids.length,
    (s.distanceMatrix m none).1 = .ok ⟨ids.length, ids.length, a⟩ ∧
    ∀ i j, ∃ distance, (s.distance m (ids.get i) (ids.get j)).1 = .ok distance ∧
      Scalar.isUndefined (a.entry i j) = Scalar.isUndefined distance

/-- All distances between points are answered, and only points with equal vectors are at no
distance. -/
def Session.Separates (s : Session α) (m : ℕ) (points : PointSet α) : Prop :=
  ∀ p ∈ points.ids.toList, ∀ q ∈ points.ids.toList, ∃ x y distance,
    points.vector p = .ok x ∧ points.vector q = .ok y ∧ (s.distance m p q).1 = .ok distance ∧
    ((distance == 0) = true → ∀ k, (x.get k == y.get k) = true)

/-- Two sites at no distance, which the distance matrix finds undefined. -/
structure Database.Site.Blurred {n : ℕ} (a b : Site α n) : Prop where
  undefined : Scalar.isUndefined (Scalar.largerOrNaN (a.lengthTo b) (b.lengthTo a)) = true
  zero : (weightedDistance a.vector b.vector a.weights b.weights == 0) = true
  defined : Scalar.isUndefined (weightedDistance a.vector b.vector a.weights b.weights) = false
  distinct : ∃ k, (a.vector.get k == b.vector.get k) = false

/-- One blurred pair breaks both promises. -/
theorem Session.fails_of_blurred {s : Session α} {m d : ℕ} {db : Database α} (bound : s.Bound m d)
    (found : s.databases[d]? = some db) {i j : Fin db.ids.length} (apart : i ≠ j)
    {a b : Database.Site α db.points.dim} (atI : db.Sited (db.ids.get i) a)
    (atJ : db.Sited (db.ids.get j) b) (blurred : a.Blurred b) :
    ¬s.AgreesOnUndefined m db.ids ∧ ¬s.Separates m db.points := by
  have measured : (s.distance m (db.ids.get i) (db.ids.get j)).1 =
      .ok (weightedDistance a.vector b.vector a.weights b.weights) := by
    rw [distance_of_bound bound found]
    exact Database.distance_ok_iff.mpr ⟨a, b, atI, atJ, rfl⟩
  constructor
  · rintro ⟨matrix, answered, agrees⟩
    rw [distanceMatrix_of_bound bound found] at answered
    obtain ⟨sites, same, sited⟩ := Database.exists_sites_of_distanceMatrix answered
    obtain rfl : matrix = Database.pairwise sites := by
      cases same
      rfl
    obtain ⟨distance, alone, agree⟩ := agrees i j
    obtain rfl := Except.ok.inj (measured.symm.trans alone)
    rw [Database.pairwise, Mat.entry_ofFn, if_neg apart, Mat.entry_ofFn, Mat.entry_ofFn,
      (sited i).unique atI, (sited j).unique atJ, blurred.undefined, blurred.defined] at agree
    cases agree
  · intro separates
    obtain ⟨x, y, distance, atX, atY, alone, equal⟩ :=
      separates _ (List.get_mem db.ids i) _ (List.get_mem db.ids j)
    obtain rfl := Except.ok.inj (measured.symm.trans alone)
    obtain rfl := Except.ok.inj (atI.vector.symm.trans atX)
    obtain rfl := Except.ok.inj (atJ.vector.symm.trans atY)
    obtain ⟨k, differ⟩ := blurred.distinct
    rw [equal blurred.zero k] at differ
    cases differ

def Config.FiniteWeights (c : Config α) : Prop :=
  Scalar.isFinite c.strong = true ∧ Scalar.isFinite c.weak = true

end Promises

open Extended

section Lifted

variable {n : ℕ}

theorem Extended.isUndefined_real (x : ℝ) : Scalar.isUndefined (real x) = false := by
  rw [Scalar.isUndefined, real_beq_real.mpr rfl]
  rfl

theorem Extended.isUndefined_undefined : Scalar.isUndefined undefined = true := by
  have differs : (undefined == undefined) = false := by
    rw [Bool.eq_false_iff]
    exact fun equal => (beq_iff.mp equal).2 rfl
  rw [Scalar.isUndefined, differs]
  rfl

theorem formLength_lift (x : ℝ) : formLength (real x) = real (formLength x) := by
  unfold formLength
  by_cases positive : 0 < x
  · have above : (0 : Extended) < real x := positive
    rw [if_pos positive, if_pos above]
    exact if_neg (not_lt.mpr positive.le)
  · have below : ¬(0 : Extended) < real x := positive
    rw [if_neg positive, if_neg below]
    rfl

theorem weightedDistance_lift (x y : Vector ℝ n) (a b : Mat ℝ n n) :
    weightedDistance (liftVector x) (liftVector y) a.lift b.lift =
      real (weightedDistance x y a b) := by
  simp only [weightedDistance, weightedLength, difference_lift, Mat.quadraticForm_lift,
    formLength_lift, larger_real]

namespace Database

def Site.lift (a : Site ℝ n) : Site Extended n := ⟨liftVector a.vector, a.weights.lift⟩

theorem Site.lengthTo_lift (a b : Site ℝ n) : a.lift.lengthTo b.lift = real (a.lengthTo b) := by
  have clipped (x : ℝ) : Scalar.nonNegative (real x) = real (Scalar.nonNegative x) := by
    unfold Scalar.nonNegative
    exact (if_congr (real_lt_real (y := 0)) rfl rfl).trans (apply_ite real (x < 0) 0 x).symm
  have nonneg (x : ℝ) : ¬Scalar.nonNegative x < 0 := by
    rw [Scalar.nonNegative_eq_max]
    exact not_lt.mpr (le_max_right x 0)
  rw [lengthTo, lift, lift, difference_lift, Mat.quadraticForm_lift, clipped]
  exact if_neg (nonneg _)

end Database

end Lifted

section Finite

/-- A form that is positive between distinct vectors. -/
def Mat.Separates {n : ℕ} (w : Mat ℝ n n) : Prop :=
  ∀ x y : Vector ℝ n, w.quadraticForm (difference x y) ≤ 0 → x = y

theorem Mat.Between.separates {n : ℕ} {w : Mat ℝ n n} {strong weak : ℝ}
    (between : w.Between strong weak) (positive : 0 < strong) : w.Separates := by
  intro x y small
  have flat := nonpos_of_mul_nonpos_right ((between (difference x y)).1.trans small) positive
  exact squaredNorm_difference_eq_zero_iff.mp (flat.antisymm (squaredNorm_nonneg _))

theorem Config.exists_weights {c : Config Extended} (accepted : c.Accepted)
    (finite : c.FiniteWeights) : ∃ strong weak : ℝ,
      c.strong = real strong ∧ c.weak = real weak ∧ 0 < strong ∧ strong ≤ weak := by
  obtain ⟨_, positive, ordered, _⟩ := accepted_iff_checks.mp accepted
  have strong := (exists_real finite.1).symm
  have weak := (exists_real finite.2).symm
  rw [strong] at positive
  rw [weak, strong] at ordered
  exact ⟨_, _, strong, weak, not_le.mp fun small => positive (real_le_real.mpr small),
    not_lt.mp fun reversed => ordered (real_lt_real.mpr reversed)⟩

/-- A preprocessor with accepted settings of finite weights, and a solver that is exact on real
matrices. The other settings may be anything that is accepted. -/
structure Preprocessor.Regular (p : Preprocessor Extended) : Prop where
  accepted : p.config.Accepted
  finite : p.config.FiniteWeights
  exact : p.solver.ExactOnReals

theorem Neighborhood.Analyzed.exists_separating {s : Neighborhood Extended} {p : Preprocessor Extended}
    {r : LocalPca Extended} {n : ℕ} (analyzed : s.Analyzed p.solver p.config r)
    (regular : p.Regular) (dim : s.dim = n) :
    ∃ w : Mat ℝ n n, Database.fitted n r = .ok w.lift ∧ w.Separates := by
  subst dim
  obtain ⟨strong, weak, strongly, weakly, positive, ordered⟩ :=
    Config.exists_weights regular.accepted regular.finite
  obtain ⟨exact, resolves, answers⟩ := regular.exact
  obtain ⟨t, rfl⟩ := s.exists_lift
  have pairs := t.pairs_lift answers p.config.center
  have orthonormal :=
    (pairs_resolve (resolves _ (t.scatter_isSymm p.config.center))).orthonormal
  have weights := analyzed.weights
  rw [pairs, strongly, weakly, weightMatrix_lift] at weights
  exact ⟨_, weights,
    Mat.Between.separates (quadraticForm_weightMatrix_mem_Icc orthonormal ordered _) positive⟩

namespace Database

variable {db : Database Extended} {p : Preprocessor Extended} {force : Bool}

/-- What is stored for the points was computed with finite weights. -/
def Regular (db : Database Extended) : Prop :=
  ∀ id ∈ db.ids, ∀ value, db.associations.find? .localPca id = some value →
    ∃ p r, Preprocessor.Regular p ∧ p.compute db.points id = .ok r ∧ value = .localPca r

/-- After an answered run each outcome is of that run or of an earlier one. -/
theorem exists_regular_outcome (regular : p.Regular)
    (earlier : force = true ∨ db.Covered ∧ db.Regular) {count : ℕ}
    (answered : (p.run db force).1 = .ok count) {id : Int} (member : id ∈ db.ids) :
    ∃ p' r, Preprocessor.Regular p' ∧ p'.compute db.points id = .ok r ∧
      (p.run db force).2.outcome id = .ok r := by
  have pass := p.run_pass db force
  generalize p.run db force = result at pass answered
  cases pass with
  | skipped idle =>
      rcases earlier with forced | ⟨covered, stored⟩
      · rw [idle.2] at forced
        cases forced
      · obtain ⟨value, here⟩ := (Associations.has_iff_find? _).mp (covered idle.1 id member)
        obtain ⟨p', r, regular', computed, rfl⟩ := stored id member value here
        exact ⟨p', r, regular', computed, outcome_of_find? here⟩
  | abandoned => cases answered
  | completed _ left =>
      by_cases due : id ∈ Preprocessor.pending db force
      · obtain ⟨r, computed, here⟩ := left.computed id due
        exact ⟨p, r, regular, computed, outcome_of_find? here⟩
      · have kept := left.kept id due
        rw [Preprocessor.mem_pending, not_and, not_or] at due
        obtain ⟨unforced, present⟩ := due member
        obtain ⟨value, old⟩ := Option.ne_none_iff_exists'.mp present
        obtain ⟨p', r, regular', computed, rfl⟩ :=
          (earlier.resolve_left unforced).2 id member value old
        exact ⟨p', r, regular', computed, outcome_of_find? (kept.trans old)⟩

theorem exists_real_site (regular : p.Regular) (earlier : force = true ∨ db.Covered ∧ db.Regular)
    {count : ℕ} (answered : (p.run db force).1 = .ok count) {id : Int} (member : id ∈ db.ids) :
    ∃ (x : Vector ℝ db.points.dim) (w : Mat ℝ db.points.dim db.points.dim),
      db.points.vector id = .ok (liftVector x) ∧ (p.run db force).2.Weighs db.points id w.lift ∧
      w.Separates := by
  obtain ⟨p', r, regular', computed, stored⟩ :=
    exists_regular_outcome regular earlier answered member
  obtain ⟨hood, found, analyzed⟩ := Preprocessor.exists_analyzed_of_compute computed
  obtain ⟨w, fits, separates⟩ :=
    analyzed.exists_separating regular' (Provider.dim_of_neighborhood found)
  obtain ⟨x, vector⟩ := PointSet.exists_vector member
  obtain ⟨x, rfl⟩ := exists_liftVector (PointSet.vector_finite vector)
  exact ⟨x, w, vector, ⟨r, stored, fits⟩, separates⟩

end Database

namespace Session

/-- An answered binding of a distance function with the given settings to a database. Whatever it
does not compute itself is there and was computed with finite weights. -/
structure Binding (s : Session Extended) (config : Config Extended) (m d : ℕ)
    (db : Database Extended) : Prop where
  found : s.databases[d]? = some db
  metric : ∃ metric, s.metrics[m]? = some metric ∧ metric.preprocessor.config = config ∧
    metric.preprocessor.solver.ExactOnReals ∧ (metric.force = true ∨ db.Covered ∧ db.Regular)
  answered : (s.bind m d).1 = .ok ()

variable {s : Session Extended} {config : Config Extended} {m d : ℕ} {db : Database Extended}

/-- Between real sites with separating weights both promises are kept. -/
theorem keeps_of_sited (bound : s.Bound m d) (found : s.databases[d]? = some db)
    (sited : ∀ id ∈ db.ids, ∃ a : Database.Site ℝ db.points.dim, db.Sited id a.lift ∧
      a.weights.Separates) : s.AgreesOnUndefined m db.ids ∧ s.Separates m db.points := by
  have measured {p q : Int} {a b : Database.Site ℝ db.points.dim} (atP : db.Sited p a.lift)
      (atQ : db.Sited q b.lift) : (s.distance m p q).1 =
        .ok (real (weightedDistance a.vector b.vector a.weights b.weights)) := by
    rw [distance_of_bound bound found, ← weightedDistance_lift]
    exact Database.distance_ok_iff.mpr ⟨_, _, atP, atQ, rfl⟩
  constructor
  · obtain ⟨g, answered⟩ := Database.exists_distanceMatrix_iff.mpr fun id member =>
      (sited id member).elim fun a here => ⟨a.lift, here.1⟩
    obtain ⟨sites, rfl, there⟩ := Database.exists_sites_of_distanceMatrix answered
    refine ⟨Database.pairwise sites, ?_, fun i j => ?_⟩
    · rw [distanceMatrix_of_bound bound found]
      exact answered
    · obtain ⟨a, atI, _⟩ := sited _ (List.get_mem db.ids i)
      obtain ⟨b, atJ, _⟩ := sited _ (List.get_mem db.ids j)
      refine ⟨_, measured atI atJ, ?_⟩
      rw [isUndefined_real, Database.pairwise, Mat.entry_ofFn, Mat.entry_ofFn, Mat.entry_ofFn,
        (there i).unique atI, (there j).unique atJ, Database.Site.lengthTo_lift,
        Database.Site.lengthTo_lift, largerOrNaN_real]
      split
      · exact isUndefined_real 0
      · exact isUndefined_real _
  · intro p memberP q memberQ
    obtain ⟨a, atP, separates⟩ := sited p memberP
    obtain ⟨b, atQ, _⟩ := sited q memberQ
    refine ⟨_, _, _, atP.vector, atQ.vector, measured atP atQ, ?_⟩
    intro zero k
    have flat : weightedDistance a.vector b.vector a.weights b.weights = 0 :=
      real_beq_real.mp zero
    have small : √(a.weights.quadraticForm (difference a.vector b.vector)) ≤ 0 := by
      rw [← flat, weightedDistance_eq]
      exact le_max_left _ _
    have same := separates _ _ (Real.sqrt_eq_zero'.mp (small.antisymm (Real.sqrt_nonneg _)))
    rw [Database.Site.lift, Database.Site.lift, same, get_liftVector]
    exact real_beq_real.mpr rfl

theorem Binding.keeps (binding : s.Binding config m d db) (accepted : config.Accepted)
    (finite : config.FiniteWeights) :
    (s.bind m d).2.AgreesOnUndefined m db.ids ∧ (s.bind m d).2.Separates m db.points := by
  obtain ⟨metric, known, rfl, exact, earlier⟩ := binding.metric
  obtain ⟨count, run⟩ := exists_run_of_bind known binding.found binding.answered
  have regular : metric.preprocessor.Regular := ⟨accepted, finite, exact⟩
  have after := getElem?_bind_self binding.found known
  have points := metric.preprocessor.run_points db metric.force
  have site (id : Int) (member : id ∈ db.ids) :=
    Database.exists_real_site regular earlier run member
  generalize (metric.preprocessor.run db metric.force).2 = new at after points site
  obtain ⟨newPoints, associations⟩ := new
  cases points
  apply keeps_of_sited (bound_after_bind binding.found known) after
  intro id member
  obtain ⟨x, w, vector, weighs, separates⟩ := site id member
  exact ⟨⟨x, w⟩, ⟨weighs, vector⟩, separates⟩

end Session

end Finite

end LocalMetric
