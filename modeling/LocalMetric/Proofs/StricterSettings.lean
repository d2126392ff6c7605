import LocalMetric.Proofs.Preparations
/-!
# Stricter settings

A lower threshold and a higher tolerance never add strong directions, and higher weights never make a
direction cheaper. So if settings are stricter in all of these, every dimension is at most as large,
and every distance at least as large.
-/
namespace LocalMetric

/-- Settings with the same center that penalise no direction less. -/
structure Config.Stricter (config stricter : Config ℝ) : Prop where
  center : stricter.center = config.center
  threshold : stricter.threshold ≤ config.threshold
  strong : config.strong ≤ stricter.strong
  weak : config.weak ≤ stricter.weak
  tolerance : config.tolerance ≤ stricter.tolerance

section Weights

variable {n d d' : ℕ} {strong weak strong' weak' : ℝ}

theorem directionWeight_le (fewer : d' ≤ d) (inside : d ≤ n) (ordered : strong ≤ weak)
    (strongLe : strong ≤ strong') (weakLe : weak ≤ weak') (j : Fin n) :
    directionWeight n d strong weak j ≤ directionWeight n d' strong' weak' j := by
  rw [directionWeight_eq inside, directionWeight_eq (fewer.trans inside)]
  by_cases first : j.val < d
  · rw [if_pos first]
    by_cases first' : j.val < d'
    · rw [if_pos first']
      exact strongLe
    · rw [if_neg first']
      exact ordered.trans weakLe
  · have first' : ¬j.val < d' := fun before => first (before.trans_le fewer)
    rw [if_neg first, if_neg first']
    exact weakLe

theorem quadraticForm_weightMatrix_le (v : Mat ℝ n n)
    (heavier : ∀ j, directionWeight n d strong weak j ≤ directionWeight n d' strong' weak' j)
    (x : Vector ℝ n) : (weightMatrix v d strong weak).quadraticForm x ≤
      (weightMatrix v d' strong' weak').quadraticForm x := by
  rw [quadraticForm_weightMatrix, quadraticForm_weightMatrix]
  exact Finset.sum_le_sum fun j _ => mul_le_mul_of_nonneg_right (heavier j) (sq_nonneg _)

theorem weightedDistance_le {x y : Vector ℝ n} {a b a' b' : Mat ℝ n n}
    (first : a.quadraticForm (difference x y) ≤ a'.quadraticForm (difference x y))
    (second : b.quadraticForm (difference x y) ≤ b'.quadraticForm (difference x y)) :
    weightedDistance x y a b ≤ weightedDistance x y a' b' := by
  rw [weightedDistance_eq, weightedDistance_eq]
  exact max_le_max (Real.sqrt_le_sqrt first) (Real.sqrt_le_sqrt second)

end Weights

namespace Neighborhood.Analyzed

variable {s : Neighborhood ℝ} {solver : Solver ℝ} {config stricter : Config ℝ} {r r' : LocalPca ℝ}

theorem dimension_le (analyzed : s.Analyzed solver config r)
    (analyzed' : s.Analyzed solver stricter r') (sound : config.Sound) (sound' : stricter.Sound)
    (tighter : config.Stricter stricter)
    (resolves : solver.Resolves (s.scatter config.center)) :
    r'.correlationDimension ≤ r.correlationDimension := by
  have center := tighter.center
  have selects := analyzed.selects sound.threshold_le
  have selects' := analyzed'.selects sound'.threshold_le
  rw [center] at selects'
  exact Selects.le_of_le (values_nonneg (pairs_resolve resolves))
    (s.antitone_pairs solver config.center) tighter.tolerance tighter.threshold selects
    selects'

theorem exists_weights_le {n : ℕ} (analyzed : s.Analyzed solver config r)
    (analyzed' : s.Analyzed solver stricter r') (sound : config.Sound)
    (tighter : config.Stricter stricter)
    (fewer : r'.correlationDimension ≤ r.correlationDimension) (dim : s.dim = n) :
    ∃ w w' : Mat ℝ n n, Database.fitted n r = .ok w ∧ Database.fitted n r' = .ok w' ∧
      ∀ x, w.quadraticForm x ≤ w'.quadraticForm x := by
  subst dim
  refine ⟨_, _, analyzed.weights, analyzed'.weights, fun x => ?_⟩
  rw [tighter.center]
  exact quadraticForm_weightMatrix_le _ (directionWeight_le fewer analyzed.inside sound.ordered
    tighter.strong tighter.weak) x

end Neighborhood.Analyzed

namespace Preprocessor

def withConfig (p : Preprocessor ℝ) (config : Config ℝ) : Preprocessor ℝ := { p with config }

variable {db : Database ℝ} {p : Preprocessor ℝ} {stricter : Config ℝ} {force : Bool} {count : ℕ}

/-- How a database and a stricter one of the same points compare at a point. -/
structure Tightened (s : PointSet ℝ) (old new : Database ℝ) (id : Int) : Prop where
  dimension : ∃ r r', old.outcome id = .ok r ∧ new.outcome id = .ok r' ∧
    r'.correlationDimension ≤ r.correlationDimension
  weights : ∃ w w', old.Weighs s id w ∧ new.Weighs s id w' ∧
    ∀ x, w.quadraticForm x ≤ w'.quadraticForm x

theorem tightened_of_run (sound : p.config.Sound) (sound' : stricter.Sound)
    (tighter : p.config.Stricter stricter) (exact : p.solver.Exact)
    (thorough : Thorough db force) (answered : (p.run db force).1 = .ok count) {id : Int}
    (member : id ∈ db.ids) :
    Tightened db.points (p.run db force).2 ((p.withConfig stricter).run db force).2 id := by
  obtain ⟨_, both⟩ := exists_analyzed_both p (p.withConfig stricter) thorough rfl answered
  obtain ⟨hood, r, r', _, dim, analyzed, stored, analyzed', stored'⟩ := both id member
  have fewer := analyzed.dimension_le analyzed' sound sound' tighter
    (exact _ (hood.scatter_isSymm _))
  obtain ⟨w, w', fits, fits', heavier⟩ :=
    analyzed.exists_weights_le analyzed' sound tighter fewer dim
  exact ⟨⟨r, r', stored, stored', fewer⟩, ⟨w, w', ⟨r, stored, fits⟩, ⟨r', stored', fits'⟩, heavier⟩⟩

theorem Tightened.exists_distance_le {s : PointSet ℝ} {old new : Database ℝ} {i j : Int}
    (atI : Tightened s old new i) (atJ : Tightened s old new j) (points : old.points = s)
    (points' : new.points = s) (memberI : i ∈ s.ids.toList) (memberJ : j ∈ s.ids.toList) :
    ∃ x x', old.distance i j = .ok x ∧ new.distance i j = .ok x' ∧ x ≤ x' := by
  obtain ⟨w, w', weighsI, weighsI', heavierI⟩ := atI.weights
  obtain ⟨v, v', weighsJ, weighsJ', heavierJ⟩ := atJ.weights
  obtain ⟨x, vectorI⟩ := PointSet.exists_vector memberI
  obtain ⟨y, vectorJ⟩ := PointSet.exists_vector memberJ
  exact ⟨weightedDistance x y w v, weightedDistance x y w' v',
    Database.distance_of_weighs points weighsI weighsJ vectorI vectorJ,
    Database.distance_of_weighs points' weighsI' weighsJ' vectorI vectorJ,
    weightedDistance_le (heavierI _) (heavierJ _)⟩

/-- Stricter settings are answered for the same databases. They leave each point a dimension that is
at most as large, and each pair of points a distance that is at least as large. -/
theorem stricter_settings (accepted : p.config.Accepted) (accepted' : stricter.Accepted)
    (tighter : p.config.Stricter stricter) (exact : p.solver.Exact)
    (thorough : Thorough db force) :
    ((∃ count, (p.run db force).1 = .ok count) ↔
      ∃ count, ((p.withConfig stricter).run db force).1 = .ok count) ∧
    ((∃ count, (p.run db force).1 = .ok count) →
      (∀ id ∈ db.ids, ∃ r r', (p.run db force).2.outcome id = .ok r ∧
        ((p.withConfig stricter).run db force).2.outcome id = .ok r' ∧
        r'.correlationDimension ≤ r.correlationDimension) ∧
      ∀ i ∈ db.ids, ∀ j ∈ db.ids, ∃ x x', (p.run db force).2.distance i j = .ok x ∧
        ((p.withConfig stricter).run db force).2.distance i j = .ok x' ∧ x ≤ x') := by
  have sound := Config.accepted_iff.mp accepted
  have sound' := Config.accepted_iff.mp accepted'
  constructor
  · rw [exists_run_ok_iff thorough, exists_run_ok_iff thorough]
    rfl
  rintro ⟨count, answered⟩
  have tightened (id : Int) (member : id ∈ db.ids) :=
    tightened_of_run sound sound' tighter exact thorough answered member
  constructor
  · intro id member
    exact (tightened id member).dimension
  · intro i memberI j memberJ
    exact (tightened i memberI).exists_distance_le (tightened j memberJ) (p.run_points db force)
      ((p.withConfig stricter).run_points db force) memberI memberJ

noncomputable def strictConfig : Config ℝ := ⟨0.5, 2, 200, .centroid, 1e-3⟩

theorem stricter_settings_plane :
    (∃ r r',
      (surveyed .spectral .usual (.ofPair #v[0, 0] #v[3, 4] Nat.two_pos)).outcome 1 = .ok r ∧
      (surveyed .spectral strictConfig (.ofPair #v[0, 0] #v[3, 4] Nat.two_pos)).outcome 1 = .ok r' ∧
      r'.correlationDimension ≤ r.correlationDimension) ∧
    ∃ x x',
      (surveyed .spectral .usual (.ofPair #v[0, 0] #v[3, 4] Nat.two_pos)).distance 1 2 = .ok x ∧
      (surveyed .spectral strictConfig (.ofPair #v[0, 0] #v[3, 4] Nat.two_pos)).distance 1 2 =
        .ok x' ∧ x ≤ x' := by
  let db : Database ℝ := { points := .ofPair #v[0, 0] #v[3, 4] Nat.two_pos }
  have accepted : strictConfig.Accepted := by
    rw [Config.accepted_iff]
    constructor <;> norm_num [strictConfig]
  have tighter : Config.usual.Stricter strictConfig := by
    refine ⟨rfl, ?_, ?_, ?_, ?_⟩ <;> norm_num [Config.usual, strictConfig]
  have fresh : Thorough db false := .inr rfl
  have answered := (exists_run_ok_iff fresh).mpr
    (exists_neighborhood_surveying .spectral .usual db.points)
  obtain ⟨_, compare⟩ := stricter_settings (p := surveying .spectral .usual) Config.usual_accepted
    accepted tighter Solver.spectral_exact fresh
  obtain ⟨dimensions, distances⟩ := compare answered
  exact ⟨dimensions 1 (by decide), distances 1 (by decide) 2 (by decide)⟩

end Preprocessor

end LocalMetric
