import LocalMetric.Proofs.AcceptedWeights
import LocalMetric.Proofs.Histories
import LocalMetric.Proofs.Preparations
import LocalMetric.Proofs.WeightSums
/-!
# Weight matrices that are read again

The weight matrix of an analysis has two eigenvalues, the weak weight as often as there are weak
directions and the strong weight as often as there are strong ones. So it passes all tests of a weight
matrix from elsewhere and is taken over as it stands. An outcome can be replaced by what is read from its
weight matrix, one point after the other, and no distance sees it.
-/
namespace LocalMetric

open Matrix

section Spectra

variable {n : ℕ} {v : Mat ℝ n n} {strong weak : ℝ}

theorem resolve_weightMatrix (orthonormal : v.toMatrixᵀ * v.toMatrix = 1) (d : Int) :
    Eigenpairs.Resolve ⟨.ofFn (directionWeight n d strong weak), v⟩ (weightMatrix v d strong weak) := by
  have values : (Vector.ofFn (directionWeight n d strong weak)).get =
      directionWeight n d strong weak := funext fun j => get_ofFn _ j
  constructor
  · exact orthonormal
  · rw [toMatrix_weightMatrix, Matrix.mul_assoc, orthonormal, Matrix.mul_one, values]

/-- The directions of a weight matrix from the last one to the first, the weak ones before the strong
ones. -/
def weakFirst (v : Mat ℝ n n) (d : Int) (strong weak : ℝ) : Eigenpairs ℝ n :=
  ⟨.ofFn fun j => directionWeight n d strong weak j.rev, .ofFn fun i j => v.entry i j.rev⟩

theorem get_weakFirst (v : Mat ℝ n n) {d : ℕ} (inside : d ≤ n) (j : Fin n) :
    (weakFirst v d strong weak).values.get j = if j.val < n - d then weak else strong := by
  have mirrored : j.rev.val < d ↔ ¬j.val < n - d := by
    rw [Fin.val_rev]
    omega
  rw [weakFirst, get_ofFn, directionWeight_eq inside]
  simp only [mirrored, ite_not]

theorem weakFirst_resolve (orthonormal : v.toMatrixᵀ * v.toMatrix = 1) (d : Int) :
    (weakFirst v d strong weak).Resolve (weightMatrix v d strong weak) := by
  refine (resolve_weightMatrix orthonormal d).reorder Fin.rev_injective ?_ ?_
  · intro j
    rw [weakFirst, get_ofFn, get_ofFn]
  · exact fun i j => Mat.entry_ofFn _ i j

theorem antitone_weakFirst (ordered : strong ≤ weak) (v : Mat ℝ n n) {d : ℕ} (inside : d ≤ n) :
    Antitone (weakFirst v d strong weak).values.get := by
  intro i j before
  rw [get_weakFirst v inside, get_weakFirst v inside]
  split_ifs with later earlier
  · exact le_rfl
  · exact absurd ((Fin.le_def.mp before).trans_lt later) earlier
  · exact ordered
  · exact le_rfl

theorem toList_weakFirst (v : Mat ℝ n n) {d : ℕ} (inside : d ≤ n) :
    (weakFirst v d strong weak).values.toList =
      List.replicate (n - d) weak ++ List.replicate d strong := by
  apply List.ext_getElem
  · rw [Vector.length_toList, List.length_append, List.length_replicate, List.length_replicate]
    omega
  · intro i here there
    rw [Vector.length_toList] at here
    simp only [List.getElem_append, List.length_replicate, List.getElem_replicate, dite_eq_ite,
      Vector.getElem_toList]
    exact get_weakFirst v inside ⟨i, here⟩

/-- Whatever eigenvectors are found for a weight matrix, its eigenvalues in descending order are the two
weights. -/
theorem toList_sortedEigenpairs_weightMatrix {solver : Solver ℝ} {d : ℕ}
    (resolves : solver.Resolves (weightMatrix v d strong weak))
    (orthonormal : v.toMatrixᵀ * v.toMatrix = 1) (ordered : strong ≤ weak) (inside : d ≤ n) :
    (sortedEigenpairs solver (weightMatrix v d strong weak)).values.toList =
      List.replicate (n - d) weak ++ List.replicate d strong := by
  have found := resolves.sorted (weightMatrix_isSymm v d)
  rw [found.values_unique (weakFirst_resolve orthonormal d)
    (antitone_sortedEigenpairs solver _) (antitone_weakFirst ordered v inside),
    toList_weakFirst v inside]

end Spectra

section Readings

variable {solver other : Solver ℝ} {config : Config ℝ} {r : LocalPca ℝ}

def Tensor.Semidefinite (t : Tensor ℝ) : Prop :=
  ∃ (n : ℕ) (a : Mat ℝ n n), 0 < n ∧ a.toMatrix.PosSemidef ∧ .ofMat a = t

namespace LocalPca

/-- A semidefinite weight matrix is taken over as it stands. -/
theorem exists_reading (exact : other.Exact) {t : Tensor ℝ} (semidefinite : t.Semidefinite) :
    ∃ r', ofWeights other t none = .ok r' ∧ .ofMat r'.weights = t := by
  obtain ⟨n, a, positive, form, rfl⟩ := semidefinite
  have resolves := exact _ a.symmetricPart_isSymm
  obtain ⟨r', taken⟩ := exists_ofWeights (d := none) resolves positive form nofun
  exact ⟨r', taken, (takesOver_of_ok resolves taken).weights⟩

theorem eigenvalues_of_ofWeights {n : ℕ} {a : Mat ℝ n n} {d : Option Int}
    (taken : ofWeights other (.ofMat a) d = .ok r) (symmetric : a.toMatrix.IsSymm) :
    r.eigenvalues = (sortedEigenpairs other a).values.toList.map (max · 0) := by
  have same : a.symmetricPart = a := Mat.toMatrix_injective (a.toMatrix_symmetricPart symmetric)
  have clipped : (Scalar.nonNegative : ℝ → ℝ) = (max · 0) := funext Scalar.nonNegative_eq_max
  obtain ⟨_, _, made⟩ := ofWeights_ok_iff.mp taken
  obtain ⟨_, _, _, rfl⟩ := make_ok_iff.mp made
  rw [same, clipped]

end LocalPca

/-- The weight matrix of an outcome weights an orthonormal basis, as many of its members with the strong
weight as there are strong directions. -/
def LocalPca.WeightsBasis (r : LocalPca ℝ) (strong weak : ℝ) : Prop :=
  ∃ v : Mat ℝ r.dim r.dim, v.toMatrixᵀ * v.toMatrix = 1 ∧
    r.weights = weightMatrix v r.correlationDimension strong weak

namespace LocalPca

theorem weightsBasis_of_compute {anchor points : Tensor ℝ} (exact : solver.Exact)
    (answered : compute solver config anchor points = .ok r) :
    r.WeightsBasis config.strong config.weak := by
  obtain ⟨s, _, analysed⟩ := Checked.bind_ok_iff.mp answered
  obtain ⟨d, one_le, inside, _, outcome⟩ := exists_ofNeighborhood solver config s
  rw [analysed] at outcome
  cases outcome
  exact ⟨_, (Neighborhood.pairs_resolve (exact _ (s.scatter_isSymm _))).orthonormal, rfl⟩

variable {strong weak : ℝ}

theorem WeightsBasis.semidefinite (weights : r.WeightsBasis strong weak) (nonneg : 0 ≤ strong)
    (ordered : strong ≤ weak) : (Tensor.ofMat r.weights).Semidefinite := by
  obtain ⟨v, _, same⟩ := weights
  refine ⟨r.dim, r.weights, r.one_le_dimension.trans r.dimension_le, ?_, rfl⟩
  rw [same]
  exact posSemidef_weightMatrix nonneg (nonneg.trans ordered) v _

/-- What is read from the weight matrix of an analysis has the two weights for its eigenvalues. -/
theorem WeightsBasis.eigenvalues_reading (weights : r.WeightsBasis strong weak) (positive : 0 < strong)
    (ordered : strong ≤ weak) (exact : other.Exact) {r' : LocalPca ℝ}
    (taken : ofWeights other (.ofMat r.weights) none = .ok r') : r'.eigenvalues =
      List.replicate (r.dim - r.correlationDimension) weak ++
        List.replicate r.correlationDimension strong := by
  obtain ⟨v, orthonormal, same⟩ := weights
  have symmetric : (weightMatrix v r.correlationDimension strong weak).toMatrix.IsSymm :=
    weightMatrix_isSymm v r.correlationDimension
  rw [same] at taken
  rw [eigenvalues_of_ofWeights taken symmetric,
    toList_sortedEigenpairs_weightMatrix (exact _ symmetric) orthonormal ordered r.dimension_le,
    List.map_append, List.map_replicate, List.map_replicate, max_eq_left positive.le,
    max_eq_left (positive.le.trans ordered)]

end LocalPca

end Readings

section Replacement

variable {α : Type} [Scalar α]

omit [Scalar α] in
theorem Checked.mapM_map_eq {β γ δ : Type} (f : β → Checked α γ) (g : γ → δ) (xs : List β) :
    xs.mapM (fun x => (f x).map g) = (xs.mapM f).map (List.map g) := by
  induction xs with
  | nil => rfl
  | cons x xs ih =>
      rw [List.mapM_cons, List.mapM_cons, ih]
      cases f x with
      | error fault => rfl
      | ok y =>
          cases xs.mapM f with
          | error fault => rfl
          | ok ys => rfl

namespace Database

def stored (db : Database α) (id : Int) : Checked α (Tensor α) :=
  (db.outcome id).map fun r => .ofMat r.weights

/-- Replaces the outcome of a point by what is read from its weight matrix. -/
def reread (other : Solver α) (db : Database α) (id : Int) : Checked α (Database α) := do
  let r ← LocalPca.ofWeights other (← db.stored id) none
  return { db with associations := db.associations.set .localPca id (.localPca r) }

def rereadAll (other : Solver α) (db : Database α) (ids : List Int) : Checked α (Database α) :=
  ids.foldlM (reread other) db

/-- Two databases with the same points and the same weight matrices for them. -/
structure Alike (new old : Database α) : Prop where
  points : new.points = old.points
  stored : ∀ id, new.stored id = old.stored id

section Distances

def fittedArray (n : ℕ) (t : Tensor α) : Checked α (Mat α n n) :=
  match t.asMat? n n with
  | some a => .ok a
  | none => .error .shapeMismatch

/-- A distance sees the weight matrices that are stored and nothing else of the outcomes. -/
theorem distance_eq_stored (db : Database α) (p q : Int) : db.distance p q = (do
    let t ← db.stored p
    let t' ← db.stored q
    let x ← db.points.vector p
    let y ← db.points.vector q
    return weightedDistance x y (← fittedArray db.points.dim t) (← fittedArray db.points.dim t')) := by
  rw [distance, stored, stored]
  cases db.outcome p with
  | error fault => rfl
  | ok r =>
      cases db.outcome q with
      | error fault => rfl
      | ok r' => rfl

theorem distanceMatrix_eq_stored (db : Database α) (ids : List Int) : db.distanceMatrix ids = (do
    let arrays ← ids.mapM db.stored
    let vectors ← db.points.rows ids
    let weights ← arrays.mapM (fittedArray db.points.dim)
    return matrixOf (List.zipWith Site.mk vectors weights)) := by
  have arrays : ids.mapM db.stored =
      (ids.mapM db.outcome).map (List.map fun r : LocalPca α => .ofMat r.weights) :=
    Checked.mapM_map_eq db.outcome _ ids
  rw [distanceMatrix, arrays]
  cases ids.mapM db.outcome with
  | error fault => rfl
  | ok outcomes =>
      have weights : (outcomes.map fun r : LocalPca α => Tensor.ofMat r.weights).mapM
          (fittedArray db.points.dim) = outcomes.mapM (fitted db.points.dim) := List.mapM_map
      change _ = do
        let vectors ← db.points.rows ids
        let weights ← (outcomes.map fun r : LocalPca α => Tensor.ofMat r.weights).mapM
          (fittedArray db.points.dim)
        return matrixOf (List.zipWith Site.mk vectors weights)
      rw [weights]
      rfl

variable {new old : Database α}

theorem Alike.distance (alike : new.Alike old) (p q : Int) : new.distance p q = old.distance p q := by
  obtain ⟨points, stored⟩ := alike
  simp only [distance_eq_stored, stored]
  obtain ⟨newPoints, associations⟩ := new
  cases points
  rfl

theorem Alike.distanceMatrix (alike : new.Alike old) (ids : List Int) :
    new.distanceMatrix ids = old.distanceMatrix ids := by
  obtain ⟨points, stored⟩ := alike
  simp only [distanceMatrix_eq_stored, funext stored]
  obtain ⟨newPoints, associations⟩ := new
  cases points
  rfl

end Distances

section Steps

variable {other : Solver ℝ} {new mid old : Database ℝ} {id : Int} {ids : List Int}

theorem outcome_set_self (db : Database α) (id : Int) (r : LocalPca α) :
    outcome { db with associations := db.associations.set .localPca id (.localPca r) } id = .ok r :=
  outcome_of_find? (db.associations.find?_set_self .localPca id _)

theorem outcome_set_of_ne (db : Database α) {id point : Int} (apart : point ≠ id) (r : LocalPca α) :
    outcome { db with associations := db.associations.set .localPca id (.localPca r) } point =
      db.outcome point := by
  simp only [outcome, Associations.get, Associations.find?_set_of_id_ne _ _ apart]

/-- What becomes of a database if the outcomes of some points are replaced by what is read from their
weight matrices. -/
structure Rereads (other : Solver ℝ) (ids : List Int) (old new : Database ℝ) : Prop where
  alike : new.Alike old
  read : ∀ id ∈ ids, ∃ t r, old.stored id = .ok t ∧ LocalPca.ofWeights other t none = .ok r ∧
    new.outcome id = .ok r
  others : ∀ id, id ∉ ids → new.outcome id = old.outcome id

theorem stored_of_outcome {r : LocalPca α} {db : Database α} {id : Int}
    (outcome : db.outcome id = .ok r) :
    db.stored id = .ok (.ofMat r.weights) := by
  rw [stored, outcome]
  rfl

theorem exists_reread (exact : other.Exact) {t : Tensor ℝ} (stored : old.stored id = .ok t)
    (semidefinite : t.Semidefinite) :
    ∃ new, old.reread other id = .ok new ∧ Rereads other [id] old new := by
  obtain ⟨r, taken, same⟩ := LocalPca.exists_reading exact semidefinite
  refine ⟨_, Checked.bind_ok_iff.mpr ⟨t, stored, Checked.bind_ok_iff.mpr ⟨r, taken, rfl⟩⟩, ?_⟩
  constructor
  · refine ⟨rfl, fun point => ?_⟩
    by_cases here : point = id
    · rw [here, stored_of_outcome (outcome_set_self old id r), same, stored]
    · rw [Database.stored, outcome_set_of_ne old here, Database.stored]
  · intro point member
    rw [List.mem_singleton.mp member]
    exact ⟨t, r, stored, taken, outcome_set_self old id r⟩
  · intro point outside
    exact outcome_set_of_ne old (List.mem_singleton.not.mp outside) r

theorem Rereads.cons (first : Rereads other [id] old mid) (rest : Rereads other ids mid new) :
    Rereads other (id :: ids) old new := by
  constructor
  · refine ⟨rest.alike.points.trans first.alike.points, fun point => ?_⟩
    rw [rest.alike.stored, first.alike.stored]
  · intro point member
    by_cases later : point ∈ ids
    · obtain ⟨t, r, stored, taken, outcome⟩ := rest.read point later
      exact ⟨t, r, (first.alike.stored point).symm.trans stored, taken, outcome⟩
    · obtain ⟨t, r, stored, taken, outcome⟩ :=
        first.read point (List.mem_singleton.mpr ((List.mem_cons.mp member).resolve_right later))
      exact ⟨t, r, stored, taken, (rest.others point later).trans outcome⟩
  · intro point outside
    rw [List.mem_cons, not_or] at outside
    rw [rest.others point outside.2, first.others point (List.mem_singleton.not.mpr outside.1)]

/-- Semidefinite weight matrices can be read again for any points, in any order and repeatedly. -/
theorem exists_rereadAll (exact : other.Exact)
    (semidefinite : ∀ id ∈ ids, ∃ t, old.stored id = .ok t ∧ t.Semidefinite) :
    ∃ new, old.rereadAll other ids = .ok new ∧ Rereads other ids old new := by
  induction ids generalizing old with
  | nil => exact ⟨old, rfl, ⟨rfl, fun _ => rfl⟩, nofun, fun _ _ => rfl⟩
  | cons id ids ih =>
      obtain ⟨t, stored, form⟩ := semidefinite id List.mem_cons_self
      obtain ⟨mid, step, first⟩ := exists_reread exact stored form
      have remain : ∀ point ∈ ids, ∃ t, mid.stored point = .ok t ∧ t.Semidefinite := by
        intro point member
        rw [first.alike.stored]
        exact semidefinite point (List.mem_cons_of_mem id member)
      obtain ⟨new, steps, rest⟩ := ih remain
      exact ⟨new, Checked.bind_ok_iff.mpr ⟨mid, step, steps⟩, first.cons rest⟩

end Steps

end Database

end Replacement

section Returns

variable {other : Solver ℝ}

def LocalPca.Computed (r : LocalPca ℝ) : Prop :=
  ∃ (solver : Solver ℝ) (config : Config ℝ) (anchor points : Tensor ℝ), solver.Exact ∧
    config.Accepted ∧ compute solver config anchor points = .ok r

theorem LocalPca.Computed.semidefinite {r : LocalPca ℝ} (computed : r.Computed) :
    (Tensor.ofMat r.weights).Semidefinite := by
  obtain ⟨solver, config, anchor, points, exact, accepted, answered⟩ := computed
  have sound := Config.accepted_iff.mp accepted
  exact (weightsBasis_of_compute exact answered).semidefinite sound.strong_pos.le sound.ordered

theorem Preprocessor.computed_of_compute {p : Preprocessor ℝ} {s : PointSet ℝ} {id : Int}
    {r : LocalPca ℝ} (exact : p.solver.Exact) (accepted : p.config.Accepted)
    (answered : p.compute s id = .ok r) : r.Computed := by
  obtain ⟨points, _, rest⟩ := Checked.bind_ok_iff.mp answered
  obtain ⟨anchor, _, analysed⟩ := Checked.bind_ok_iff.mp rest
  exact ⟨p.solver, p.config, _, points, exact, accepted, analysed⟩

/-- What is read from the weight matrix of an outcome: the same matrix, with as many eigenvalues of the
weak weight as there are weak directions and then as many of the strong one as there are strong ones. -/
structure LocalPca.Returns (other : Solver ℝ) (config : Config ℝ) (r r' : LocalPca ℝ) : Prop where
  taken : ofWeights other (.ofMat r.weights) none = .ok r'
  weights : Tensor.ofMat r'.weights = .ofMat r.weights
  eigenvalues : r'.eigenvalues = List.replicate (r.dim - r.correlationDimension) config.weak ++
    List.replicate r.correlationDimension config.strong

theorem LocalPca.exists_returns {solver : Solver ℝ} {config : Config ℝ} {anchor points : Tensor ℝ}
    {s : Neighborhood ℝ} (exact' : other.Exact) (exact : solver.Exact) (accepted : config.Accepted)
    (valid : Neighborhood.ofTensors anchor points = .ok s) :
    ∃ r r', compute solver config anchor points = .ok r ∧ r.dim = s.dim ∧
      r.Returns other config r' := by
  obtain ⟨d, one_le, inside, _, analysed⟩ := exists_ofNeighborhood solver config s
  have answered := Checked.bind_ok_iff.mpr ⟨s, valid, analysed⟩
  have sound := Config.accepted_iff.mp accepted
  have basis := weightsBasis_of_compute exact answered
  obtain ⟨r', taken, weights⟩ :=
    exists_reading exact' (basis.semidefinite sound.strong_pos.le sound.ordered)
  exact ⟨_, r', answered, rfl, taken, weights,
    basis.eigenvalues_reading sound.strong_pos sound.ordered exact' taken⟩

namespace Session

variable {s : Session ℝ} {d : ℕ} {db : Database ℝ}

/-- The weight matrix of every analysis with accepted settings is taken over as it stands, whatever exact
solver reads it, and its eigenvalues are the two weights. If the outcomes of any points are replaced by
what is read from their weight matrices, no distance changes, and neither does a refusal. -/
theorem computed_weights_return (exact' : other.Exact) :
    (∀ (solver : Solver ℝ) (config : Config ℝ) (anchor points : Tensor ℝ) (s : Neighborhood ℝ),
      solver.Exact → config.Accepted → Neighborhood.ofTensors anchor points = .ok s →
      ∃ r r', LocalPca.compute solver config anchor points = .ok r ∧ r.dim = s.dim ∧
        r.Returns other config r') ∧
    ∀ (s : Session ℝ) (d : ℕ) (db : Database ℝ) (ids : List Int), s.databases[d]? = some db →
      (∀ id ∈ ids, ∃ r, db.outcome id = .ok r ∧ r.Computed) →
      ∃ new, s.change d (·.rereadAll other ids) = (.ok (), s.setDatabase d new) ∧
        Database.Rereads other ids db new ∧
        ∀ k, s.Bound k d →
          (∀ p q, ((s.setDatabase d new).distance k p q).1 = (s.distance k p q).1) ∧
          ∀ chosen, ((s.setDatabase d new).distanceMatrix k chosen).1 =
            (s.distanceMatrix k chosen).1 := by
  refine ⟨fun _ _ _ _ _ exact accepted valid => LocalPca.exists_returns exact' exact accepted valid, ?_⟩
  intro s d db ids found computed
  have semidefinite : ∀ id ∈ ids, ∃ t, db.stored id = .ok t ∧ t.Semidefinite := by
    intro id member
    obtain ⟨r, outcome, origin⟩ := computed id member
    exact ⟨_, Database.stored_of_outcome outcome, origin.semidefinite⟩
  obtain ⟨new, answered, rereads⟩ := Database.exists_rereadAll exact' semidefinite
  have after := getElem?_setDatabase_self found new
  refine ⟨new, ?_, rereads, fun k bound => ?_⟩
  · have changed : (lookup s.databases d).bind (·.rereadAll other ids) = .ok new := by
      rw [lookup_eq_of_getElem? found]
      exact answered
    rw [change, changed]
  · have bound' : (s.setDatabase d new).Bound k d := bound
    refine ⟨fun p q => ?_, fun chosen => ?_⟩
    · rw [distance_of_bound bound' after, distance_of_bound bound found, rereads.alike.distance]
    · rw [distanceMatrix_of_bound bound' after, distanceMatrix_of_bound bound found, Database.ids,
        rereads.alike.points, rereads.alike.distanceMatrix]
      rfl

noncomputable def holding (db : Database ℝ) : Session ℝ where
  databases := #[db]
  metrics := #[⟨.surveying .spectral .usual, false, 0, some 0⟩]

theorem computed_weights_return_plane :
    (∃ r r', LocalPca.compute .spectral .usual ⟨[2], (#v[0, 0] : Vector ℝ 2)⟩
      (.ofMat (#v[#v[3, 4]] : Mat ℝ 1 2)) = .ok r ∧ r.dim = 2 ∧ r.Returns .spectral .usual r') ∧
    ∃ old new : Database ℝ, old.points = .ofPair #v[0, 0] #v[3, 4] Nat.two_pos ∧
      old.PreparedBy (.surveying .spectral .usual) ∧ Database.Rereads .spectral [1, 2] old new ∧
      (((holding old).setDatabase 0 new).distance 0 1 2).1 = ((holding old).distance 0 1 2).1 := by
  let s : Neighborhood ℝ := .ofRows #v[0, 0] #v[#v[3, 4]] ⟨Nat.one_pos, Nat.two_pos⟩
  let points : PointSet ℝ := .ofPair #v[0, 0] #v[3, 4] Nat.two_pos
  let old : Database ℝ := Preprocessor.surveyed .spectral .usual points
  have fresh : Preprocessor.Thorough ({ points := points } : Database ℝ) false := .inr rfl
  obtain ⟨count, run⟩ := (Preprocessor.exists_run_ok_iff fresh).mpr
    (Preprocessor.exists_neighborhood_surveying .spectral .usual points)
  have prepared : old.PreparedBy (.surveying .spectral .usual) :=
    Preprocessor.preparedBy_of_run fresh run
  have same : old.points = points := Preprocessor.run_points _ _ _
  have ids : old.ids = [1, 2] := congrArg (fun s : PointSet ℝ => s.ids.toList) same
  obtain ⟨returns, replaces⟩ := computed_weights_return Solver.spectral_exact
  have computed : ∀ id ∈ [1, 2], ∃ r, old.outcome id = .ok r ∧ r.Computed := by
    intro id member
    obtain ⟨r, answered, outcome⟩ := prepared id (ids ▸ member)
    exact ⟨r, outcome,
      Preprocessor.computed_of_compute Solver.spectral_exact Config.usual_accepted answered⟩
  obtain ⟨new, _, rereads, distances⟩ := replaces (holding old) 0 _ [1, 2] rfl computed
  have bound : (holding old).Bound 0 0 := ⟨_, rfl, rfl⟩
  refine ⟨?_, old, new, same, prepared, rereads, (distances 0 bound).1 1 2⟩
  exact returns .spectral .usual _ _ s Solver.spectral_exact Config.usual_accepted s.ofTensors_self

end Session

end Returns

end LocalMetric
