import LocalMetric.Proofs.Preparations
/-!
# What the choice of eigenvectors decides

Solvers that answer with different eigenvectors of one scatter matrix lead to the same eigenvalues,
so to the same correlation dimension. If the last strong eigenvalue is larger than the first weak
one, they lead to the same weight matrix, so to the same distances. If these two are equal, an
exchange of their eigenvectors is as good an answer, and it changes the weight matrix.
-/
namespace LocalMetric

open Matrix

/-- Outcomes that differ at most in what depends on the eigenvectors. -/
structure LocalPca.Agrees (r r' : LocalPca ℝ) : Prop where
  eigenvalues : r.eigenvalues = r'.eigenvalues
  dimension : r.correlationDimension = r'.correlationDimension
  ratio : r.explainedVarianceRatio = r'.explainedVarianceRatio

section Cuts

variable {n d : ℕ} {values : Fin n → ℝ}

/-- Nothing lies behind a cut, or the value before it is larger than the one behind it. -/
def ClearCut (values : Fin n → ℝ) (d : ℕ) : Prop :=
  d = n ∨ ∃ i j : Fin n, i.val + 1 = d ∧ j.val = d ∧ values j < values i

theorem ClearCut.lt (clear : ClearCut values d) (descending : Antitone values) {i j : Fin n}
    (before : i.val < d) (behind : d ≤ j.val) : values j < values i := by
  rcases clear with all | ⟨last, next, atLast, atNext, less⟩
  · have inside := j.isLt
    omega
  · have upper : i ≤ last := Fin.le_def.mpr (by omega)
    have lower : next ≤ j := Fin.le_def.mpr (by omega)
    calc values j ≤ values next := descending lower
      _ < values last := less
      _ ≤ values i := descending upper

theorem ClearCut.directionWeight_congr (clear : ClearCut values d) (descending : Antitone values)
    (inside : d ≤ n) (strong weak : ℝ) (i j : Fin n) (same : values i = values j) :
    directionWeight n d strong weak i = directionWeight n d strong weak j := by
  have together : i.val < d ↔ j.val < d := by
    constructor
    · intro before
      by_contra! behind
      exact (clear.lt descending before behind).ne' same
    · intro before
      by_contra! behind
      exact (clear.lt descending before behind).ne same
  simp only [directionWeight_eq inside, together]

end Cuts

section Agreement

variable {s : Neighborhood ℝ} {first second : Solver ℝ} {config : Config ℝ} {r r' : LocalPca ℝ}

theorem Neighborhood.pairs_values_eq (s : Neighborhood ℝ) {center : Center}
    (resolves : first.Resolves (s.scatter center))
    (resolves' : second.Resolves (s.scatter center)) :
    (s.pairs first center).values = (s.pairs second center).values :=
  (pairs_resolve resolves).values_unique (pairs_resolve resolves') (s.antitone_pairs first center)
    (s.antitone_pairs second center)

namespace Neighborhood.Analyzed

theorem agrees (analyzed : s.Analyzed first config r) (analyzed' : s.Analyzed second config r')
    (values : (s.pairs first config.center).values = (s.pairs second config.center).values) :
    r.Agrees r' := by
  have eigenvalues : r.eigenvalues = r'.eigenvalues := by
    rw [analyzed.eigenvalues, analyzed'.eigenvalues, values]
  have selected := analyzed.selected
  rw [eigenvalues, analyzed'.selected] at selected
  have dimension : r.correlationDimension = r'.correlationDimension := (Except.ok.inj selected).symm
  refine ⟨eigenvalues, dimension, ?_⟩
  rw [LocalPca.explainedVarianceRatio, LocalPca.explainedVarianceRatio, eigenvalues, dimension]

/-- At a clear cut all eigenvectors give one weight matrix. -/
theorem exists_weights {n : ℕ} (analyzed : s.Analyzed first config r)
    (analyzed' : s.Analyzed second config r') (resolves : first.Resolves (s.scatter config.center))
    (resolves' : second.Resolves (s.scatter config.center))
    (clear : ClearCut (s.pairs first config.center).values.get r.correlationDimension)
    (dim : s.dim = n) :
    ∃ w : Mat ℝ n n, Database.fitted n r = .ok w ∧ Database.fitted n r' = .ok w := by
  subst dim
  have values := s.pairs_values_eq resolves resolves'
  have spectral := clear.directionWeight_congr (s.antitone_pairs first config.center)
    analyzed.inside config.strong config.weak
  refine ⟨_, analyzed.weights, analyzed'.weights.trans (congrArg Except.ok ?_)⟩
  apply Mat.toMatrix_injective
  rw [toMatrix_weightMatrix, toMatrix_weightMatrix, ← (analyzed.agrees analyzed' values).dimension]
  exact ((pairs_resolve resolves).mul_diagonal_unique (pairs_resolve resolves') values spectral).symm

end Neighborhood.Analyzed

end Agreement

section Ties

variable {n : ℕ}

noncomputable def Solver.answering (pairs : Eigenpairs ℝ n) : Solver ℝ where
  solve := fun {k} a =>
    if same : n = k then same ▸ (pairs.values, pairs.vectors) else (Vector.ofFn 0, a)

theorem Solver.solve_answering (pairs : Eigenpairs ℝ n) (a : Mat ℝ n n) :
    (answering pairs).solve a = (pairs.values, pairs.vectors) :=
  dif_pos rfl

/-- Two eigenvectors with one eigenvalue may change places. -/
theorem Solver.Resolves.exists_exchanged {solver : Solver ℝ} {a : Mat ℝ n n}
    (resolves : solver.Resolves a) (symmetric : a.toMatrix.IsSymm) {i j : Fin n}
    (tied : (sortedEigenpairs solver a).values.get i = (sortedEigenpairs solver a).values.get j) :
    ∃ other : Solver ℝ, other.Resolves a ∧
      (sortedEigenpairs other a).vectors.column j = (sortedEigenpairs solver a).vectors.column i := by
  have lower := a.ofLowerTriangle_eq symmetric
  let place := (descendingOrder (solver.solve a).1).get
  let swap := Equiv.swap (place i) (place j)
  let exchanged : Eigenpairs ℝ n :=
    ⟨(solver.solve a).1, Mat.ofFn fun row col => (solver.solve a).2.entry row (swap col)⟩
  have values (col : Fin n) : exchanged.values.get col = (solver.solve a).1.get (swap col) := by
    rw [get_sortedEigenpairs, get_sortedEigenpairs, lower] at tied
    exact (Equiv.apply_swap_eq_self tied col).symm
  have resolve : exchanged.Resolve a :=
    resolves.pairs.reorder swap.injective values fun row col => Mat.entry_ofFn _ row col
  refine ⟨.answering exchanged, ⟨?_, ?_⟩, ?_⟩
  · rwa [solve_answering]
  · rw [solve_answering]
    exact resolves.ascending
  · apply get_injective
    funext row
    rw [Mat.get_column, Mat.get_column]
    change (sortedEigenpairs (answering exchanged) a).vectors.entry row j =
      (sortedEigenpairs solver a).vectors.entry row i
    rw [entry_sortedEigenpairs, entry_sortedEigenpairs, lower, solve_answering]
    change exchanged.vectors.entry row (place j) = (solver.solve a).2.entry row (place i)
    rw [Mat.entry_ofFn, Equiv.swap_apply_right]

variable {s : Neighborhood ℝ} {solver : Solver ℝ} {config : Config ℝ} {r : LocalPca ℝ}

/-- If the cut separates equal eigenvalues, the weight matrix depends on the eigenvectors. -/
theorem Neighborhood.Analyzed.exists_other_weights (analyzed : s.Analyzed solver config r)
    (resolves : solver.Resolves (s.scatter config.center)) (distinct : config.strong < config.weak)
    {i j : Fin s.dim} (before : i.val + 1 = r.correlationDimension)
    (behind : j.val = r.correlationDimension)
    (tied : (s.pairs solver config.center).values.get i =
      (s.pairs solver config.center).values.get j) :
    ∃ other : Solver ℝ, other.Resolves (s.scatter config.center) ∧
      ∀ r', s.Analyzed other config r' → ∃ w w' : Mat ℝ s.dim s.dim,
        Database.fitted s.dim r = .ok w ∧ Database.fitted s.dim r' = .ok w' ∧ w ≠ w' := by
  obtain ⟨other, resolves', exchanged⟩ := resolves.exists_exchanged (s.scatter_isSymm _) tied
  refine ⟨other, resolves', fun r' analyzed' => ⟨_, _, analyzed.weights, analyzed'.weights, ?_⟩⟩
  have dimension := (analyzed.agrees analyzed' (s.pairs_values_eq resolves resolves')).dimension
  -- The last strong direction of the one is the first weak direction of the other.
  have strong := quadraticForm_weightMatrix_column (pairs_resolve resolves).orthonormal
    config.strong config.weak r.correlationDimension i
  have weak := quadraticForm_weightMatrix_column (pairs_resolve resolves').orthonormal
    config.strong config.weak r'.correlationDimension j
  rw [directionWeight_eq analyzed.inside, if_pos (by omega)] at strong
  rw [directionWeight_eq analyzed'.inside, if_neg (by omega)] at weak
  have column : (s.pairs other config.center).vectors.column j =
      (s.pairs solver config.center).vectors.column i := exchanged
  intro same
  rw [← same, column, strong] at weak
  exact distinct.ne weak

end Ties

section Distances

def Preprocessor.withSolver (p : Preprocessor ℝ) (solver : Solver ℝ) : Preprocessor ℝ :=
  { p with solver }

/-- The cut between the strong and the weak directions at a point is clear. -/
def Preprocessor.ClearAt (p : Preprocessor ℝ) (s : PointSet ℝ) (id : Int) : Prop :=
  ∀ hood r, p.provider.neighborhood s id = .ok hood → hood.Analyzed p.solver p.config r →
    ClearCut (hood.pairs p.solver p.config.center).values.get r.correlationDimension

theorem Preprocessor.clearAt_of_dim {p : Preprocessor ℝ} {s : PointSet ℝ} {id : Int}
    (line : s.dim = 1) : p.ClearAt s id := by
  intro hood r found analyzed
  have dim := Provider.dim_of_neighborhood found
  have inside := analyzed.inside
  have one_le := r.one_le_dimension
  exact .inl (by omega)

variable {db : Database ℝ} {p : Preprocessor ℝ} {other : Solver ℝ} {force : Bool} {count : ℕ}

theorem Preprocessor.exists_common_weights (exact : p.solver.Exact) (exact' : other.Exact)
    (thorough : Thorough db force) (answered : (p.run db force).1 = .ok count) {id : Int}
    (member : id ∈ db.ids) (clear : p.ClearAt db.points id) :
    ∃ w, (p.run db force).2.Weighs db.points id w ∧
      ((p.withSolver other).run db force).2.Weighs db.points id w := by
  obtain ⟨_, both⟩ := exists_analyzed_both p (p.withSolver other) thorough rfl answered
  obtain ⟨hood, r, r', found, dim, analyzed, stored, analyzed', stored'⟩ := both id member
  have symmetric := hood.scatter_isSymm p.config.center
  obtain ⟨w, fits, fits'⟩ := analyzed.exists_weights analyzed' (exact _ symmetric)
    (exact' _ symmetric) (clear hood r found analyzed) dim
  exact ⟨w, ⟨r, stored, fits⟩, ⟨r', stored', fits'⟩⟩

theorem Preprocessor.exists_common_distance (exact : p.solver.Exact) (exact' : other.Exact)
    (thorough : Thorough db force) (answered : (p.run db force).1 = .ok count) {i j : Int}
    (memberI : i ∈ db.ids) (memberJ : j ∈ db.ids) (clearI : p.ClearAt db.points i)
    (clearJ : p.ClearAt db.points j) :
    ∃ distance, (p.run db force).2.distance i j = .ok distance ∧
      ((p.withSolver other).run db force).2.distance i j = .ok distance := by
  obtain ⟨w, atI, atI'⟩ := exists_common_weights exact exact' thorough answered memberI clearI
  obtain ⟨v, atJ, atJ'⟩ := exists_common_weights exact exact' thorough answered memberJ clearJ
  obtain ⟨x, vectorI⟩ := PointSet.exists_vector memberI
  obtain ⟨y, vectorJ⟩ := PointSet.exists_vector memberJ
  have points := p.run_points db force
  have points' := (p.withSolver other).run_points db force
  exact ⟨weightedDistance x y w v, Database.distance_of_weighs points atI atJ vectorI vectorJ,
    Database.distance_of_weighs points' atI' atJ' vectorI vectorJ⟩

end Distances

noncomputable def Solver.mirrored (solver : Solver ℝ) : Solver ℝ where
  solve := fun a => ((solver.solve a).1, Mat.ofFn fun i j => -(solver.solve a).2.entry i j)

theorem Solver.Exact.mirrored {solver : Solver ℝ} (exact : solver.Exact) :
    solver.mirrored.Exact := by
  intro n a symmetric
  have resolves := exact a symmetric
  have vectors : (solver.mirrored.solve a).2.toMatrix = -(solver.solve a).2.toMatrix :=
    Mat.toMatrix_ofFn _
  refine ⟨⟨?_, ?_⟩, resolves.ascending⟩
  · rw [vectors, transpose_neg, neg_mul_neg]
    exact resolves.pairs.orthonormal
  · rw [vectors, mul_neg, neg_mul]
    exact congrArg Neg.neg resolves.pairs.eigen

section Alone

variable {s : Neighborhood ℝ} {solver : Solver ℝ} {config : Config ℝ} {r : LocalPca ℝ}

theorem Neighborhood.values_of_alone (alone : s.count = 1)
    (resolves : solver.Resolves (s.scatter .centroid)) (j : Fin s.dim) :
    (s.pairs solver .centroid).values.get j = 0 := by
  have flat := (pairs_resolve resolves).diagonal_eq
  rw [toMatrix_scatter_of_alone alone, Matrix.mul_zero, Matrix.zero_mul] at flat
  exact congrFun (diagonal_eq_zero.mp flat) j

theorem Neighborhood.Analyzed.dimension_of_alone (analyzed : s.Analyzed solver config r)
    (sound : config.Sound) (alone : s.count = 1) (centroid : config.center = .centroid)
    (resolves : solver.Resolves (s.scatter config.center)) : r.correlationDimension = 1 := by
  by_contra! other
  have several : 1 < r.correlationDimension := lt_of_le_of_ne r.one_le_dimension other.symm
  let first : Fin s.dim := ⟨0, s.nonempty.2⟩
  have positive := analyzed.values_pos_of_lt sound resolves several (j := first) r.one_le_dimension
  rw [centroid] at positive resolves
  exact positive.ne' (values_of_alone alone resolves first)

end Alone

/-- Whatever eigenvectors solvers find, the outcomes agree but for the weight matrices, and at a clear
cut in these, too; so distances between points with clear cuts do not depend on the solver. Where the
cut separates equal eigenvalues, some other eigenvectors give another weight matrix. -/
theorem eigenvector_choice :
    (∀ {anchor points : Tensor ℝ} {s : Neighborhood ℝ} (config : Config ℝ) (solver : Solver ℝ),
      Neighborhood.ofTensors anchor points = .ok s →
      solver.Resolves (s.scatter config.center) →
      ∃ r, LocalPca.compute solver config anchor points = .ok r ∧
        (∀ other : Solver ℝ, other.Resolves (s.scatter config.center) →
          ∃ r', LocalPca.compute other config anchor points = .ok r' ∧ r.Agrees r' ∧
            (ClearCut (s.pairs solver config.center).values.get r.correlationDimension →
              ∃ w, Database.fitted s.dim r = .ok w ∧ Database.fitted s.dim r' = .ok w)) ∧
        (config.strong < config.weak → ∀ i j : Fin s.dim, i.val + 1 = r.correlationDimension →
          j.val = r.correlationDimension →
          (s.pairs solver config.center).values.get i =
            (s.pairs solver config.center).values.get j →
          ∃ other : Solver ℝ, other.Resolves (s.scatter config.center) ∧
            ∃ r' w w', LocalPca.compute other config anchor points = .ok r' ∧
              Database.fitted s.dim r = .ok w ∧ Database.fitted s.dim r' = .ok w' ∧ w ≠ w')) ∧
    (∀ (db : Database ℝ) (force : Bool) (p : Preprocessor ℝ) (other : Solver ℝ) (count : ℕ),
      p.solver.Exact → other.Exact → Preprocessor.Thorough db force →
      (p.run db force).1 = .ok count →
      (∃ count', ((p.withSolver other).run db force).1 = .ok count') ∧
      ∀ i ∈ db.ids, ∀ j ∈ db.ids, p.ClearAt db.points i → p.ClearAt db.points j →
        ∃ distance, (p.run db force).2.distance i j = .ok distance ∧
          ((p.withSolver other).run db force).2.distance i j = .ok distance) := by
  constructor
  · intro anchor points s config solver valid resolves
    obtain ⟨r, answered, analyzed⟩ := exists_compute valid solver config
    refine ⟨r, answered, ?_, ?_⟩
    · intro other resolves'
      obtain ⟨r', answered', analyzed'⟩ := exists_compute valid other config
      refine ⟨r', answered', ?_, ?_⟩
      · exact analyzed.agrees analyzed' (s.pairs_values_eq resolves resolves')
      · exact fun clear => analyzed.exists_weights analyzed' resolves resolves' clear rfl
    · intro distinct i j before behind tied
      obtain ⟨other, resolves', differs⟩ :=
        analyzed.exists_other_weights resolves distinct before behind tied
      obtain ⟨r', answered', analyzed'⟩ := exists_compute valid other config
      obtain ⟨w, w', fits, fits', apart⟩ := differs r' analyzed'
      exact ⟨other, resolves', r', w, w', answered', fits, fits', apart⟩
  · intro db force p other count exact exact' thorough answered
    refine ⟨(p.exists_analyzed_both (p.withSolver other) thorough rfl answered).1, ?_⟩
    intro i memberI j memberJ clearI clearJ
    exact Preprocessor.exists_common_distance exact exact' thorough answered memberI memberJ clearI
      clearJ

theorem eigenvector_choice_lone_line :
    (∃ r other r' w w',
      LocalPca.compute .spectral .usual ⟨[2], (#v[0, 0] : Vector ℝ 2)⟩
        ⟨[1, 2], (#v[#v[0, 0]] : Mat ℝ 1 2)⟩ = .ok r ∧
      LocalPca.compute other .usual ⟨[2], (#v[0, 0] : Vector ℝ 2)⟩
        ⟨[1, 2], (#v[#v[0, 0]] : Mat ℝ 1 2)⟩ = .ok r' ∧
      r.correlationDimension = 1 ∧ r.Agrees r' ∧
      Database.fitted 2 r = .ok w ∧ Database.fitted 2 r' = .ok w' ∧ w ≠ w') ∧
    ∃ distance,
      (Preprocessor.surveyed .spectral .usual (.ofPair #v[0] #v[3] Nat.one_pos)).distance 1 2 =
        .ok distance ∧
      (Preprocessor.surveyed (.mirrored .spectral) .usual
        (.ofPair #v[0] #v[3] Nat.one_pos)).distance 1 2 = .ok distance := by
  obtain ⟨analyses, distances⟩ := eigenvector_choice
  constructor
  · let lone : Neighborhood ℝ := .ofRows #v[0, 0] #v[#v[0, 0]] (by decide)
    have resolves : Solver.spectral.Resolves (lone.scatter .centroid) :=
      Solver.spectral_exact _ (lone.scatter_isSymm _)
    have values := Neighborhood.values_of_alone (s := lone) rfl resolves
    obtain ⟨r, answered, agree, differ⟩ :=
      analyses .usual .spectral lone.ofTensors_self resolves
    have analyzed := analyzed_of_compute lone.ofTensors_self answered
    have one := analyzed.dimension_of_alone (Config.accepted_iff.mp Config.usual_accepted) rfl rfl
      resolves
    obtain ⟨other, resolves', r', w, w', answered', fits, fits', apart⟩ :=
      differ (by norm_num [Config.usual]) (0 : Fin 2) (1 : Fin 2) one.symm one.symm
        ((values _).trans (values _).symm)
    obtain ⟨r'', answered'', agrees, _⟩ := agree other resolves'
    obtain rfl : r'' = r' := Except.ok.inj (answered''.symm.trans answered')
    exact ⟨r, other, r'', w, w', answered, answered', one, agrees, fits, fits', apart⟩
  · let db : Database ℝ := { points := .ofPair #v[0] #v[3] Nat.one_pos }
    have fresh : Preprocessor.Thorough db false := .inr rfl
    obtain ⟨count, run⟩ := (Preprocessor.exists_run_ok_iff fresh).mpr
      (Preprocessor.exists_neighborhood_surveying .spectral .usual db.points)
    exact (distances db false _ (.mirrored .spectral) count Solver.spectral_exact
      Solver.spectral_exact.mirrored fresh run).2 1 (by decide) 2 (by decide)
      (Preprocessor.clearAt_of_dim rfl) (Preprocessor.clearAt_of_dim rfl)

end LocalMetric
