import LocalMetric.Proofs.EigenvectorChoice
import LocalMetric.Proofs.Similarities
/-!
# The analysis of similar point sets

Clamping and the choice of a dimension only compare eigenvalues with shares of other eigenvalues, so
they do not see a common factor. Hence similar points have the same dimensions, and eigenvalues that
are enlarged by the square of the scale. A solver is free to find other eigenvectors of the turned
scatter matrix; at a clear cut the weight matrix is turned all the same, and distances are enlarged by
the scale.
-/
namespace LocalMetric

open Matrix

section Factors

variable {k : ℝ}

theorem largestMagnitude_map_mul (nonneg : 0 ≤ k) (xs : List ℝ) :
    largestMagnitude (xs.map (k * ·)) = k * largestMagnitude xs := by
  cases xs with
  | nil => exact (mul_zero k).symm
  | cons x xs =>
      have scaled : abs '' {y | y ∈ (x :: xs).map (k * ·)} = (k * ·) '' (abs '' {y | y ∈ x :: xs}) := by
        ext z
        simp only [Set.mem_image, Set.mem_ofPred_eq, List.mem_map, exists_exists_and_eq_and, abs_mul,
          abs_of_nonneg nonneg]
      have greatest := (monotone_mul_left_of_nonneg nonneg).map_isGreatest
        (isGreatest_largestMagnitude (List.cons_ne_nil x xs))
      rw [← scaled] at greatest
      exact (isGreatest_largestMagnitude (List.cons_ne_nil _ _)).unique greatest

theorem clampAt_mul (positive : 0 < k) (bound x : ℝ) :
    clampAt (k * bound) (k * x) = k * clampAt bound x := by
  rw [clampAt, clampAt, Scalar.abs_eq, Scalar.abs_eq, abs_mul, abs_of_pos positive,
    Scalar.nonNegative_eq_max, Scalar.nonNegative_eq_max]
  by_cases small : |x| ≤ bound
  · rw [if_pos small, if_pos ((mul_le_mul_iff_right₀ positive).mpr small), mul_zero]
  · rw [if_neg small, if_neg fun h => small ((mul_le_mul_iff_right₀ positive).mp h),
      mul_max_of_nonneg _ _ positive.le, mul_zero]

theorem clampEigenvalues_map_mul (positive : 0 < k) (tolerance : ℝ) (xs : List ℝ) :
    clampEigenvalues tolerance (xs.map (k * ·)) = (clampEigenvalues tolerance xs).map (k * ·) := by
  rw [clampEigenvalues, clampEigenvalues, largestMagnitude_map_mul positive.le, List.map_map,
    List.map_map]
  refine List.map_congr_left fun x _ => ?_
  rw [Function.comp_apply, Function.comp_apply, ← clampAt_mul positive, mul_left_comm]

end Factors

section Turning

variable {n : ℕ} (f : Similarity n)

noncomputable def Mat.turned (w : Mat ℝ n n) : Mat ℝ n n :=
  Mat.ofFn (f.turn * w.toMatrix * f.turnᵀ)

theorem Mat.toMatrix_turned (w : Mat ℝ n n) :
    (w.turned f).toMatrix = f.turn * w.toMatrix * f.turnᵀ :=
  Mat.toMatrix_ofFn _

theorem Mat.quadraticForm_turned (w : Mat ℝ n n) (x y : Vector ℝ n) :
    (w.turned f).quadraticForm (difference (f.apply x) (f.apply y)) =
      f.scale ^ 2 * w.quadraticForm (difference x y) := by
  have back : f.turnᵀ *ᵥ f.turn *ᵥ (difference x y).get = (difference x y).get := by
    rw [mulVec_mulVec, f.orthogonal, one_mulVec]
  rw [Mat.quadraticForm_eq_dotProduct, Mat.quadraticForm_eq_dotProduct, toMatrix_turned,
    Similarity.get_difference_apply, mulVec_smul, smul_dotProduct, dotProduct_smul,
    ← mulVec_mulVec, ← mulVec_mulVec, back, Similarity.dotProduct_turn, smul_eq_mul, smul_eq_mul,
    ← mul_assoc, sq]

/-- Distances under turned weight matrices are enlarged by the scale. -/
theorem weightedDistance_turned (x y : Vector ℝ n) (w v : Mat ℝ n n) :
    weightedDistance (f.apply x) (f.apply y) (w.turned f) (v.turned f) =
      f.scale * weightedDistance x y w v := by
  have root (a : ℝ) : √(f.scale ^ 2 * a) = f.scale * √a := by
    rw [Real.sqrt_mul f.sq_scale_pos.le, Real.sqrt_sq f.scale_pos.le]
  rw [weightedDistance_eq, weightedDistance_eq, Mat.quadraticForm_turned,
    Mat.quadraticForm_turned, root, root, mul_max_of_nonneg _ _ f.scale_pos.le]

variable {a b : Mat ℝ n n} {pairs : Eigenpairs ℝ n}

/-- Eigenpairs of a matrix that is turned and enlarged by the square of the scale. -/
noncomputable def Eigenpairs.turned (pairs : Eigenpairs ℝ n) : Eigenpairs ℝ n :=
  ⟨pairs.values.map (f.scale ^ 2 * ·), Mat.ofFn (f.turn * pairs.vectors.toMatrix)⟩

theorem Eigenpairs.get_values_turned (pairs : Eigenpairs ℝ n) :
    (pairs.turned f).values.get = f.scale ^ 2 • pairs.values.get := by
  funext j
  exact get_map _ _ j

theorem Eigenpairs.toMatrix_vectors_turned (pairs : Eigenpairs ℝ n) :
    (pairs.turned f).vectors.toMatrix = f.turn * pairs.vectors.toMatrix :=
  Mat.toMatrix_ofFn _

theorem Eigenpairs.Resolve.turned (resolve : pairs.Resolve a)
    (image : b.toMatrix = f.scale ^ 2 • (f.turn * a.toMatrix * f.turnᵀ)) :
    (pairs.turned f).Resolve b := by
  have back (c : Matrix (Fin n) (Fin n) ℝ) : f.turnᵀ * (f.turn * c) = c := by
    rw [← Matrix.mul_assoc, f.orthogonal, Matrix.one_mul]
  constructor
  · rw [toMatrix_vectors_turned, Matrix.transpose_mul, Matrix.mul_assoc, back, resolve.orthonormal]
  · rw [toMatrix_vectors_turned, get_values_turned, diagonal_smul, image, Matrix.smul_mul,
      Matrix.mul_smul, Matrix.mul_assoc, Matrix.mul_assoc, back, resolve.eigen, Matrix.mul_assoc]

theorem Eigenpairs.antitone_turned (descending : Antitone pairs.values.get) :
    Antitone (pairs.turned f).values.get := by
  rw [get_values_turned]
  intro i j ordered
  exact mul_le_mul_of_nonneg_left (descending ordered) f.sq_scale_pos.le

theorem ClearCut.turned {d : ℕ} (clear : ClearCut pairs.values.get d) :
    ClearCut (pairs.turned f).values.get d := by
  rw [Eigenpairs.get_values_turned]
  rcases clear with all | ⟨i, j, last, next, less⟩
  · exact .inl all
  · exact .inr ⟨i, j, last, next, mul_lt_mul_of_pos_left less f.sq_scale_pos⟩

end Turning

section Outcomes

/-- An outcome for similar points: the same dimension and size, and enlarged eigenvalues. -/
structure LocalPca.Magnified (scale : ℝ) (r r' : LocalPca ℝ) : Prop where
  eigenvalues : r'.eigenvalues = r.eigenvalues.map (scale ^ 2 * ·)
  dimension : r'.correlationDimension = r.correlationDimension
  size : r'.neighborhoodSize = r.neighborhoodSize

variable {m n : ℕ} {anchor : Vector ℝ n} {points : Mat ℝ m n} {filled : 0 < m ∧ 0 < n}
  {f : Similarity n} {first second : Solver ℝ} {config : Config ℝ} {r r' : LocalPca ℝ}

namespace Neighborhood

/-- Turned eigenpairs of a scatter matrix are eigenpairs of the turned scatter matrix. -/
theorem resolve_turned {center : Center}
    (resolves : first.Resolves ((ofRows anchor points filled).scatter center)) :
    (((ofRows anchor points filled).pairs first center).turned f).Resolve
      ((ofRows (f.apply anchor) (points.image f) filled).scatter center) :=
  (pairs_resolve resolves).turned f (toMatrix_scatter_image anchor points filled f center)

/-- Whatever eigenvectors are found, the eigenvalues are enlarged by the square of the scale. -/
theorem values_image {center : Center}
    (resolves : first.Resolves ((ofRows anchor points filled).scatter center))
    (resolves' : second.Resolves ((ofRows (f.apply anchor) (points.image f) filled).scatter center)) :
    (((ofRows anchor points filled).pairs first center).turned f).values =
      ((ofRows (f.apply anchor) (points.image f) filled).pairs second center).values :=
  (resolve_turned resolves).values_unique (pairs_resolve resolves')
    (Eigenpairs.antitone_turned f (antitone_pairs _ first center)) (antitone_pairs _ second center)

namespace Analyzed

theorem magnified (analyzed : (ofRows anchor points filled).Analyzed first config r)
    (analyzed' : (ofRows (f.apply anchor) (points.image f) filled).Analyzed second config r')
    (resolves : first.Resolves ((ofRows anchor points filled).scatter config.center))
    (resolves' : second.Resolves
      ((ofRows (f.apply anchor) (points.image f) filled).scatter config.center))
    (size : r.neighborhoodSize = m) (size' : r'.neighborhoodSize = m) :
    r.Magnified f.scale r' := by
  have eigenvalues : r'.eigenvalues = r.eigenvalues.map (f.scale ^ 2 * ·) := by
    rw [analyzed'.eigenvalues, analyzed.eigenvalues, ← values_image resolves resolves',
      Eigenpairs.turned, Vector.toList_map, clampEigenvalues_map_mul f.sq_scale_pos]
  have selected := analyzed'.selected
  rw [eigenvalues, selectDimension_map_mul f.sq_scale_pos, analyzed.selected] at selected
  exact ⟨eigenvalues, (Except.ok.inj selected).symm, size'.trans size.symm⟩

/-- At a clear cut the weight matrix is turned, whatever eigenvectors are found. -/
theorem exists_turned (analyzed : (ofRows anchor points filled).Analyzed first config r)
    (analyzed' : (ofRows (f.apply anchor) (points.image f) filled).Analyzed second config r')
    (resolves : first.Resolves ((ofRows anchor points filled).scatter config.center))
    (resolves' : second.Resolves
      ((ofRows (f.apply anchor) (points.image f) filled).scatter config.center))
    (same : r'.correlationDimension = r.correlationDimension)
    (clear : ClearCut ((ofRows anchor points filled).pairs first config.center).values.get
      r.correlationDimension) :
    ∃ w : Mat ℝ n n, Database.fitted n r = .ok w ∧ Database.fitted n r' = .ok (w.turned f) := by
  have spectral := (clear.turned f).directionWeight_congr
    (Eigenpairs.antitone_turned f (antitone_pairs _ first config.center)) analyzed.inside
    config.strong config.weak
  refine ⟨_, analyzed.weights, analyzed'.weights.trans (congrArg Except.ok ?_)⟩
  apply Mat.toMatrix_injective
  rw [Mat.toMatrix_turned, toMatrix_weightMatrix, toMatrix_weightMatrix, same,
    ← (resolve_turned resolves).mul_diagonal_unique (pairs_resolve resolves')
      (values_image resolves resolves') spectral, Eigenpairs.toMatrix_vectors_turned]
  simp only [Matrix.transpose_mul, Matrix.mul_assoc]

end Analyzed

end Neighborhood

/-- The last strong direction has a larger eigenvalue than the first weak one, or there is no weak
one. -/
def LocalPca.Gap (r : LocalPca ℝ) : Prop :=
  r.correlationDimension = r.eigenvalues.length ∨
    ∃ a b, r.eigenvalues[r.correlationDimension - 1]? = some a ∧
      r.eigenvalues[r.correlationDimension]? = some b ∧ b < a

theorem lt_of_clamped_lt {values : Fin n → ℝ} (nonneg : ∀ j, 0 ≤ values j) {tolerance : ℝ}
    {i j : Fin n} (less : clamped tolerance values j < clamped tolerance values i) :
    values j < values i := by
  rw [clamped, clamped, clampAt_of_nonneg (nonneg j), clampAt_of_nonneg (nonneg i)] at less
  split at less
  · rename_i small
    split at less
    · exact absurd less (lt_irrefl 0)
    · rename_i large
      exact small.trans_lt (not_le.mp large)
  · split at less
    · exact absurd (nonneg j) (not_le.mpr less)
    · exact less

theorem Neighborhood.Analyzed.clear {s : Neighborhood ℝ} (analyzed : s.Analyzed first config r)
    (resolves : first.Resolves (s.scatter config.center)) (gap : r.Gap) :
    ClearCut (s.pairs first config.center).values.get r.correlationDimension := by
  have nonneg := values_nonneg (pairs_resolve resolves)
  have one_le := r.one_le_dimension
  unfold LocalPca.Gap at gap
  rw [analyzed.eigenvalues_eq] at gap
  rcases gap with all | ⟨a, b, last, next, less⟩
  · exact .inl (all.trans (List.length_ofFn))
  · obtain ⟨inside, rfl⟩ := List.getElem?_eq_some_iff.mp last
    obtain ⟨beyond, rfl⟩ := List.getElem?_eq_some_iff.mp next
    rw [List.getElem_ofFn, List.getElem_ofFn] at less
    exact .inr ⟨_, _, Nat.sub_add_cancel one_le, rfl, lt_of_clamped_lt nonneg less⟩

end Outcomes

section Databases

variable {s : PointSet ℝ} {f : Similarity s.dim} {p p' : Preprocessor ℝ} {reach : Reach ℝ}
  {old new : Database ℝ}

/-- What the databases of similar points hold for a point. -/
structure Database.Similar (old new : Database ℝ) (p : Preprocessor ℝ) (s : PointSet ℝ)
    (f : Similarity s.dim) (id : Int) (r r' : LocalPca ℝ) : Prop where
  before : old.outcome id = .ok r
  after : new.outcome id = .ok r'
  magnified : r.Magnified f.scale r'
  clear : r.Gap → p.ClearAt s id
  turned : p.ClearAt s id → ∃ w, old.Weighs s id w ∧ new.Weighs (s.image f) id (w.turned f)

theorem Preprocessor.exists_similar (made : reach.provider = .ok p.provider) (whole : reach.Whole)
    (made' : (reach.scaled f.scale).provider = .ok p'.provider) (settings : p'.config = p.config)
    (exact : p.solver.Exact) (exact' : p'.solver.Exact) (prepared : old.PreparedBy p)
    (prepared' : new.PreparedBy p') (points : old.points = s) (points' : new.points = s.image f)
    {id : Int} (member : id ∈ s.ids.toList) : ∃ r r', old.Similar new p s f id r r' := by
  obtain ⟨m, anchor, rows, filled, found, found'⟩ :=
    Reach.exists_neighborhoods made whole f made' member
  obtain ⟨r, computed, before⟩ := prepared id (by rwa [Database.ids, points])
  obtain ⟨r', computed', after⟩ := prepared' id (by rw [Database.ids, points']; exact member)
  rw [points, compute_eq, found] at computed
  rw [points', compute_eq, found', settings] at computed'
  have analyzed := analyzed_of_ok computed
  have analyzed' := analyzed_of_ok computed'
  have resolves := exact _ (Neighborhood.scatter_isSymm (.ofRows anchor rows filled) p.config.center)
  have resolves' := exact' _
    (Neighborhood.scatter_isSymm (.ofRows (f.apply anchor) (rows.image f) filled) p.config.center)
  have magnified := analyzed.magnified analyzed' resolves resolves' (LocalPca.size_of_ok computed)
    (LocalPca.size_of_ok computed')
  refine ⟨r, r', before, after, magnified, fun gap hood r₀ found₀ analyzed₀ => ?_, fun clear => ?_⟩
  · obtain rfl : .ofRows anchor rows filled = hood := Except.ok.inj (found.symm.trans found₀)
    rw [← (analyzed.agrees analyzed₀ rfl).dimension]
    exact analyzed.clear resolves gap
  · obtain ⟨w, fits, fits'⟩ := analyzed.exists_turned analyzed' resolves resolves'
      magnified.dimension (clear _ r found analyzed)
    exact ⟨w, ⟨r, before, fits⟩, ⟨r', after, fits'⟩⟩

theorem Database.exists_distance_image {i j : Int} (points : old.points = s)
    (points' : new.points = s.image f) (memberI : i ∈ s.ids.toList) (memberJ : j ∈ s.ids.toList)
    (atI : ∃ w, old.Weighs s i w ∧ new.Weighs (s.image f) i (w.turned f))
    (atJ : ∃ w, old.Weighs s j w ∧ new.Weighs (s.image f) j (w.turned f)) :
    ∃ distance, old.distance i j = .ok distance ∧ new.distance i j = .ok (f.scale * distance) := by
  obtain ⟨w, weighsI, weighsI'⟩ := atI
  obtain ⟨v, weighsJ, weighsJ'⟩ := atJ
  obtain ⟨x, vectorI⟩ := PointSet.exists_vector memberI
  obtain ⟨y, vectorJ⟩ := PointSet.exists_vector memberJ
  have vectorI' : (s.image f).vector i = .ok (f.apply x) := by
    rw [PointSet.vector_image, vectorI]
    rfl
  have vectorJ' : (s.image f).vector j = .ok (f.apply y) := by
    rw [PointSet.vector_image, vectorJ]
    rfl
  refine ⟨weightedDistance x y w v, distance_of_weighs points weighsI weighsJ vectorI vectorJ, ?_⟩
  rw [← weightedDistance_turned]
  exact distance_of_weighs points' weighsI' weighsJ' vectorI' vectorJ'

/-- A standard preprocessor analyses similar points alike: with as many nearest points, or with a
radius that is enlarged by the scale. The dimensions and sizes are the same, and the eigenvalues are
enlarged by the square of the scale. Between points with clear cuts, distances are enlarged by the
scale. Ties among the nearest points are broken by the order of the rows, which stays. -/
theorem similar_points_analysed_alike (f : Similarity s.dim)
    (made : reach.provider = .ok p.provider) (whole : reach.Whole)
    (made' : (reach.scaled f.scale).provider = .ok p'.provider) (settings : p'.config = p.config)
    (exact : p.solver.Exact) (exact' : p'.solver.Exact)
    (stored stored' : Associations (Associated ℝ)) (force force' : Bool)
    (thorough : Preprocessor.Thorough ⟨s, stored⟩ force)
    (thorough' : Preprocessor.Thorough ⟨s.image f, stored'⟩ force') :
    ∃ count count' old new, p.run ⟨s, stored⟩ force = (.ok count, old) ∧
      p'.run ⟨s.image f, stored'⟩ force' = (.ok count', new) ∧
      (∀ id ∈ s.ids.toList, ∃ r r', old.outcome id = .ok r ∧ new.outcome id = .ok r' ∧
        r.Magnified f.scale r' ∧ (r.Gap → p.ClearAt s id)) ∧
      ∀ i ∈ s.ids.toList, ∀ j ∈ s.ids.toList, p.ClearAt s i → p.ClearAt s j →
        ∃ distance, old.distance i j = .ok distance ∧
          new.distance i j = .ok (f.scale * distance) := by
  have hoods (id : Int) (member : id ∈ s.ids.toList) :
      (∃ hood, p.provider.neighborhood s id = .ok hood) ∧
        ∃ hood, p'.provider.neighborhood (s.image f) id = .ok hood := by
    obtain ⟨m, anchor, rows, filled, found, found'⟩ :=
      Reach.exists_neighborhoods made whole f made' member
    exact ⟨⟨_, found⟩, ⟨_, found'⟩⟩
  obtain ⟨count, answered⟩ := (Preprocessor.exists_run_ok_iff thorough).mpr
    fun id member => (hoods id member).1
  obtain ⟨count', answered'⟩ := (Preprocessor.exists_run_ok_iff thorough').mpr
    fun id member => (hoods id member).2
  have points := p.run_points ⟨s, stored⟩ force
  have points' := p'.run_points ⟨s.image f, stored'⟩ force'
  have prepared := Preprocessor.preparedBy_of_run thorough answered
  have prepared' := Preprocessor.preparedBy_of_run thorough' answered'
  have similar (id : Int) (member : id ∈ s.ids.toList) :=
    Preprocessor.exists_similar made whole made' settings exact exact' prepared prepared' points
      points' member
  refine ⟨count, count', _, _, Prod.ext answered rfl, Prod.ext answered' rfl, ?_, ?_⟩
  · intro id member
    obtain ⟨r, r', holds⟩ := similar id member
    exact ⟨r, r', holds.before, holds.after, holds.magnified, holds.clear⟩
  · intro i memberI j memberJ clearI clearJ
    obtain ⟨_, _, atI⟩ := similar i memberI
    obtain ⟨_, _, atJ⟩ := similar j memberJ
    exact Database.exists_distance_image points points' memberI memberJ (atI.turned clearI)
      (atJ.turned clearJ)

noncomputable def Similarity.mirroring : Similarity 1 where
  scale := 3
  turn := -1
  shift := fun _ => 5
  scale_pos := three_pos
  orthogonal := by rw [transpose_neg, transpose_one, neg_mul_neg, Matrix.one_mul]

noncomputable def Preprocessor.usual (provider : Provider ℝ) : Preprocessor ℝ :=
  { surveying .spectral .usual with provider }

theorem Reach.exists_provider_within {radius : ℝ} (nonneg : 0 ≤ radius) :
    ∃ provider, (Reach.within radius).provider = .ok provider :=
  ⟨_, if_neg (not_lt.mpr nonneg)⟩

theorem similar_points_analysed_alike_line : ∃ provider provider' distance,
    (Reach.within 3).provider = .ok provider ∧ (Reach.within (3 * 3)).provider = .ok provider' ∧
    ((Preprocessor.usual provider).run ⟨.ofPair #v[0] #v[3] Nat.one_pos, {}⟩ false).2.distance 1 2 =
      .ok distance ∧
    ((Preprocessor.usual provider').run
      ⟨(PointSet.ofPair #v[0] #v[3] Nat.one_pos).image .mirroring, {}⟩ false).2.distance 1 2 =
      .ok (3 * distance) := by
  obtain ⟨provider, made⟩ := Reach.exists_provider_within (show (0 : ℝ) ≤ 3 by norm_num)
  obtain ⟨provider', made'⟩ := Reach.exists_provider_within (show (0 : ℝ) ≤ 3 * 3 by norm_num)
  let old := Preprocessor.usual provider
  let new := Preprocessor.usual provider'
  have chosen : (Reach.within 3).provider = .ok old.provider := made
  have chosen' : (Reach.within (3 * 3)).provider = .ok new.provider := made'
  obtain ⟨_, _, _, _, run, run', _, distances⟩ :=
    similar_points_analysed_alike (s := .ofPair #v[0] #v[3] Nat.one_pos) .mirroring chosen trivial
      chosen' rfl Solver.spectral_exact Solver.spectral_exact {} {} false false (.inr rfl)
      (.inr rfl)
  obtain ⟨distance, here, there⟩ := distances 1 (by decide) 2 (by decide)
    (Preprocessor.clearAt_of_dim rfl) (Preprocessor.clearAt_of_dim rfl)
  refine ⟨provider, provider', distance, made, made', ?_, ?_⟩
  · exact (congrArg (fun left => left.2.distance 1 2) run).trans here
  · exact (congrArg (fun left => left.2.distance 1 2) run').trans there

end Databases

end LocalMetric
