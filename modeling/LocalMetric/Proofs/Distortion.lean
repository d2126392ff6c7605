import LocalMetric.Proofs.Preparations
import LocalMetric.Proofs.Histories
/-!
# How far distances are from Euclidean ones

Along an orthonormal basis every direction has the strong or the weak weight, so the square of a
weighted length lies between these two multiples of the Euclidean square, whatever the neighborhood
is. After a preparation that computes every point, all distances keep to this.
-/
namespace LocalMetric

section Analysis

/-- A matrix whose form lies between two multiples of the square of the length. -/
def Mat.Between {n : ℕ} (a : Mat ℝ n n) (strong weak : ℝ) : Prop :=
  ∀ x : Vector ℝ n, a.quadraticForm x ∈ Set.Icc (strong * squaredNorm x) (weak * squaredNorm x)

theorem Neighborhood.Analyzed.exists_between {s : Neighborhood ℝ} {solver : Solver ℝ}
    {config : Config ℝ} {r : LocalPca ℝ} {n : ℕ} (analyzed : s.Analyzed solver config r)
    (sound : config.Sound) (resolves : solver.Resolves (s.scatter config.center))
    (dim : s.dim = n) :
    ∃ w : Mat ℝ n n, Database.fitted n r = .ok w ∧ w.Between config.strong config.weak := by
  subst dim
  exact ⟨_, analyzed.weights, quadraticForm_weightMatrix_mem_Icc (pairs_resolve resolves).orthonormal
    sound.ordered _⟩

end Analysis

section Distances

variable {n : ℕ}

structure Comparable (strong weak : ℝ) (x y : Vector ℝ n) (distance : ℝ) : Prop where
  nonneg : 0 ≤ distance
  lower : strong * squaredNorm (difference x y) ≤ distance ^ 2
  upper : distance ^ 2 ≤ weak * squaredNorm (difference x y)
  eq_zero_iff : distance = 0 ↔ x = y
  euclidean : strong = weak → distance = √strong * √(squaredNorm (difference x y))

theorem weightedDistance_sq {strong weak : ℝ} (positive : 0 ≤ strong) {a : Mat ℝ n n}
    (between : a.Between strong weak) (b : Mat ℝ n n) (x y : Vector ℝ n) :
    weightedDistance x y a b ^ 2 =
      max (a.quadraticForm (difference x y)) (b.quadraticForm (difference x y)) := by
  have bottom := mul_nonneg positive (squaredNorm_nonneg (difference x y))
  have nonneg : 0 ≤ a.quadraticForm (difference x y) := bottom.trans (between _).1
  rw [weightedDistance_eq, ← Real.sqrt_monotone.map_max, Real.sq_sqrt (le_max_of_le_left nonneg)]

theorem comparable_weightedDistance {strong weak : ℝ} (positive : 0 < strong) {a b : Mat ℝ n n}
    (betweenA : a.Between strong weak) (betweenB : b.Between strong weak) (x y : Vector ℝ n) :
    Comparable strong weak x y (weightedDistance x y a b) := by
  have square := weightedDistance_sq positive.le betweenA b x y
  have nonneg := weightedDistance_nonneg x y a b
  have lower : strong * squaredNorm (difference x y) ≤ weightedDistance x y a b ^ 2 := by
    rw [square]
    exact le_max_of_le_left (betweenA _).1
  have upper : weightedDistance x y a b ^ 2 ≤ weak * squaredNorm (difference x y) := by
    rw [square]
    exact max_le (betweenA _).2 (betweenB _).2
  refine ⟨nonneg, lower, upper, ?_, ?_⟩
  · constructor
    · intro zero
      rw [zero, zero_pow two_ne_zero] at lower
      have flat : squaredNorm (difference x y) ≤ 0 := nonpos_of_mul_nonpos_right lower positive
      exact squaredNorm_difference_eq_zero_iff.mp (flat.antisymm (squaredNorm_nonneg _))
    · rintro rfl
      exact weightedDistance_self x a b
  · rintro rfl
    rw [← Real.sqrt_mul positive.le, ← le_antisymm upper lower, Real.sqrt_sq nonneg]

variable {db : Database ℝ} {p : Preprocessor ℝ}

theorem Database.PreparedBy.exists_site_between (prepared : db.PreparedBy p)
    (sound : p.config.Sound) (exact : p.solver.Exact) {id : Int} (member : id ∈ db.ids) :
    ∃ a, db.Sited id a ∧ a.weights.Between p.config.strong p.config.weak := by
  obtain ⟨hood, r, _, dim, analyzed, stored⟩ := prepared.exists_analyzed member
  obtain ⟨w, fits, between⟩ :=
    analyzed.exists_between sound (exact _ (hood.scatter_isSymm _)) dim
  obtain ⟨x, vector⟩ := PointSet.exists_vector member
  exact ⟨⟨x, w⟩, ⟨⟨r, stored, fits⟩, vector⟩, between⟩

theorem Database.PreparedBy.exists_comparable (prepared : db.PreparedBy p) (sound : p.config.Sound)
    (exact : p.solver.Exact) {i j : Int} (memberI : i ∈ db.ids) (memberJ : j ∈ db.ids) :
    ∃ x y distance, db.points.vector i = .ok x ∧ db.points.vector j = .ok y ∧
      db.distance i j = .ok distance ∧ Comparable p.config.strong p.config.weak x y distance := by
  obtain ⟨a, atI, betweenA⟩ := prepared.exists_site_between sound exact memberI
  obtain ⟨b, atJ, betweenB⟩ := prepared.exists_site_between sound exact memberJ
  exact ⟨a.vector, b.vector, _, atI.vector, atJ.vector, distance_ok_iff.mpr ⟨a, b, atI, atJ, rfl⟩,
    comparable_weightedDistance sound.strong_pos betweenA betweenB _ _⟩

end Distances

namespace Session

variable {s : Session ℝ} {m d : ℕ} {metric : Metric ℝ} {db : Database ℝ}

/-- After a binding that computes every point and is answered, the square of each distance lies
between the strong and the weak multiple of the Euclidean square; so distinct vectors are never at no
distance, and equal weights give the Euclidean distance up to its unit. -/
theorem distances_comparable (known : s.metrics[m]? = some metric)
    (found : s.databases[d]? = some db) (accepted : metric.preprocessor.config.Accepted)
    (exact : metric.preprocessor.solver.Exact)
    (thorough : Preprocessor.Thorough db metric.force) (answered : (s.bind m d).1 = .ok ()) :
    ∀ i ∈ db.ids, ∀ j ∈ db.ids, ∃ x y distance,
      db.points.vector i = .ok x ∧ db.points.vector j = .ok y ∧
      ((s.bind m d).2.distance m i j).1 = .ok distance ∧
      Comparable metric.preprocessor.config.strong metric.preprocessor.config.weak x y distance := by
  intro i memberI j memberJ
  have after := getElem?_bind_self found known
  have bound := bound_after_bind found known
  obtain ⟨count, run⟩ := exists_run_of_bind known found answered
  have prepared := Preprocessor.preparedBy_of_run thorough run
  have points := metric.preprocessor.run_points db metric.force
  rw [distance_of_bound bound after]
  generalize (metric.preprocessor.run db metric.force).2 = new at prepared points
  obtain ⟨newPoints, associations⟩ := new
  cases points
  exact prepared.exists_comparable (Config.accepted_iff.mp accepted) exact memberI memberJ

noncomputable def surveying (points : PointSet ℝ) : Session ℝ where
  databases := #[{ points }]
  metrics := #[⟨.surveying .spectral .usual, false, 0, none⟩]

theorem distances_comparable_plane :
    ((surveying (.ofPair #v[0, 0] #v[3, 4] Nat.two_pos)).bind 0 0).1 = .ok () ∧
    ∃ distance,
      (((surveying (.ofPair #v[0, 0] #v[3, 4] Nat.two_pos)).bind 0 0).2.distance 0 1 2).1 =
        .ok distance ∧ 25 ≤ distance ^ 2 ∧ distance ^ 2 ≤ 2500 ∧ distance ≠ 0 := by
  let points : PointSet ℝ := .ofPair #v[0, 0] #v[3, 4] Nat.two_pos
  have known : (surveying points).metrics[0]? = some ⟨.surveying .spectral .usual, false, 0, none⟩ :=
    rfl
  have found : (surveying points).databases[0]? = some { points := points } := rfl
  have fresh : Preprocessor.Thorough ({ points := points } : Database ℝ) false := .inr rfl
  obtain ⟨count, run⟩ := (Preprocessor.exists_run_ok_iff fresh).mpr
    (Preprocessor.exists_neighborhood_surveying .spectral .usual points)
  have answered : ((surveying points).bind 0 0).1 = .ok () := by
    rw [bind_answer found known, run]
    rfl
  have compare := distances_comparable known found Config.usual_accepted Solver.spectral_exact fresh
    answered
  obtain ⟨x, y, distance, atX, atY, measured, comparable⟩ := compare 1 (by decide) 2 (by decide)
  obtain rfl := Except.ok.inj ((points.vector_get 0).symm.trans atX)
  obtain rfl := Except.ok.inj ((points.vector_get 1).symm.trans atY)
  have length : squaredNorm (difference (points.vectors.get 0) (points.vectors.get 1)) = 25 := by
    rw [squaredNorm_eq, get_difference_eq, dotProduct, Fin.sum_univ_two]
    norm_num [points, Vector.get]
  have lower := comparable.lower
  have upper := comparable.upper
  rw [length] at lower upper
  refine ⟨answered, distance, measured, ?_, ?_, ?_⟩
  · norm_num [Preprocessor.surveying, Config.usual] at lower
    exact lower
  · norm_num [Preprocessor.surveying, Config.usual] at upper
    exact upper
  · intro zero
    have same := congrArg (fun v : Vector ℝ 2 => v.get 0) (comparable.eq_zero_iff.mp zero)
    norm_num [points, Vector.get] at same

end Session

end LocalMetric
