import LocalMetric.Proofs.Analyses
import LocalMetric.Proofs.Distances
import LocalMetric.Proofs.Runs
/-!
# Databases that were prepared throughout

A forced run, or a run on a database without associations, computes every point. If it is answered,
the outcome of each point is that of the analysis of its own neighborhood, and the point takes part in
distances. It is answered exactly if each point has a neighborhood.
-/
namespace LocalMetric

variable {α : Type} [Scalar α]

section Neighborhoods

def Provider.neighborhood (provider : Provider α) (s : PointSet α) (id : Int) :
    Checked α (Neighborhood α) := do
  let points ← provider.points s id
  let anchor ← s.vector id
  Neighborhood.ofTensors ⟨[s.dim], anchor⟩ points

theorem Neighborhood.dim_of_ofTensors {n : ℕ} {anchor : Vector α n} {points : Tensor α}
    {s : Neighborhood α} (valid : Neighborhood.ofTensors ⟨[n], anchor⟩ points = .ok s) :
    s.dim = n := by
  obtain ⟨cloud, _, around⟩ := Checked.bind_ok_iff.mp valid
  have entries : Tensor.toList ⟨[n], anchor⟩ = anchor.toList := List.flatMap_singleton' _
  have length := congrArg List.length (Cloud.of_around around).2
  rwa [entries, Vector.length_toList, Vector.length_toList] at length

theorem Provider.dim_of_neighborhood {provider : Provider α} {s : PointSet α} {id : Int}
    {hood : Neighborhood α} (found : provider.neighborhood s id = .ok hood) : hood.dim = s.dim := by
  obtain ⟨_, _, chosen⟩ := Checked.bind_ok_iff.mp found
  obtain ⟨_, _, valid⟩ := Checked.bind_ok_iff.mp chosen
  exact Neighborhood.dim_of_ofTensors valid

theorem PointSet.vector_finite {s : PointSet α} {id : Int} {x : Vector α s.dim}
    (found : s.vector id = .ok x) : x.all Scalar.isFinite = true := by
  have finite := s.vectors_finite
  rw [Mat.allFinite, Vector.all_eq_true] at finite
  unfold PointSet.vector PointSet.row at found
  split at found
  · rename_i i _
    cases found
    exact finite i i.isLt
  · cases found

theorem PointSet.exists_rows {s : PointSet α} {ids : List Int} (filled : ids ≠ [])
    (inside : ∀ i ∈ ids, i ∈ s.ids.toList) :
    ∃ (m : ℕ) (rows : Mat α m s.dim), 0 < m ∧ s.rows ids = .ok rows.toList := by
  obtain ⟨vectors, related⟩ := Checked.exists_forall₂_of_forall
    fun i known => s.exists_vector (inside i known)
  refine ⟨vectors.length, ⟨vectors.toArray, by simp⟩, ?_, Checked.mapM_ok_iff.mpr related⟩
  exact related.length_eq ▸ List.length_pos_iff.mpr filled

theorem PointSet.stacked_of_rows {s : PointSet α} {ids : List Int} {m : ℕ} {rows : Mat α m s.dim}
    (found : s.rows ids = .ok rows.toList) : s.stacked ids = .ok ⟨[m, s.dim], rows⟩ := by
  obtain ⟨⟨vectors⟩, length⟩ := rows
  cases length
  exact Checked.bind_ok_iff.mpr ⟨vectors, found, rfl⟩

theorem Provider.exists_neighborhood {provider : Provider α} {s : PointSet α} {id : Int}
    {ids : List Int} (chosen : provider.points s id = s.stacked ids) (filled : ids ≠ [])
    (inside : ∀ i ∈ ids, i ∈ s.ids.toList) (member : id ∈ s.ids.toList) :
    ∃ hood, provider.neighborhood s id = .ok hood := by
  obtain ⟨anchor, found⟩ := s.exists_vector member
  obtain ⟨m, rows, positive, answered⟩ := PointSet.exists_rows filled inside
  have finite : rows.allFinite = true := by
    rw [Mat.allFinite, Vector.all_eq_true_iff_forall_mem]
    intro row known
    obtain ⟨_, _, here⟩ := Checked.exists_mem_zip (Checked.mapM_ok_iff.mp answered).flip
      (Vector.mem_toList_iff.mpr known)
    exact PointSet.vector_finite here
  let hood : Neighborhood α :=
    ⟨⟨m, s.dim, rows, positive, s.nonempty.2⟩, anchor, PointSet.vector_finite found, finite⟩
  refine ⟨hood, Checked.bind_ok_iff.mpr ⟨_, chosen.trans (PointSet.stacked_of_rows answered), ?_⟩⟩
  exact Checked.bind_ok_iff.mpr ⟨anchor, found, hood.ofTensors_self⟩

namespace Preprocessor

variable {p : Preprocessor α} {s : PointSet α} {id : Int}

theorem compute_eq (p : Preprocessor α) (s : PointSet α) (id : Int) :
    p.compute s id = p.provider.neighborhood s id >>= LocalPca.ofNeighborhood p.solver p.config := by
  rw [compute, Provider.neighborhood]
  cases p.provider.points s id with
  | error fault => rfl
  | ok points =>
      cases s.vector id with
      | error fault => rfl
      | ok anchor => rfl

theorem exists_analyzed_of_compute {r : LocalPca α} (answered : p.compute s id = .ok r) :
    ∃ hood, p.provider.neighborhood s id = .ok hood ∧ hood.Analyzed p.solver p.config r := by
  rw [compute_eq] at answered
  obtain ⟨hood, found, analysis⟩ := Checked.bind_ok_iff.mp answered
  exact ⟨hood, found, analyzed_of_ok analysis⟩

/-- The weight matrix of a computed outcome fits the points. -/
theorem exists_fitted_of_compute {r : LocalPca α} (answered : p.compute s id = .ok r) :
    ∃ w, Database.fitted s.dim r = .ok w := by
  obtain ⟨hood, found, analyzed⟩ := exists_analyzed_of_compute answered
  exact Provider.dim_of_neighborhood found ▸ ⟨_, analyzed.weights⟩

/-- Only the provider decides whether a point can be computed. -/
theorem exists_compute_iff :
    (∃ r, p.compute s id = .ok r) ↔ ∃ hood, p.provider.neighborhood s id = .ok hood := by
  constructor
  · rintro ⟨r, answered⟩
    obtain ⟨hood, found, _⟩ := exists_analyzed_of_compute answered
    exact ⟨hood, found⟩
  · rintro ⟨hood, found⟩
    obtain ⟨r, analysis, _⟩ := exists_analyzed p.solver p.config hood
    exact ⟨r, by rw [compute_eq, found]; exact analysis⟩

end Preprocessor

end Neighborhoods

section Prepared

/-- The outcome of each point is what a preprocessor computes for it. -/
def Database.PreparedBy (db : Database α) (p : Preprocessor α) : Prop :=
  ∀ id ∈ db.ids, ∃ r, p.compute db.points id = .ok r ∧ db.outcome id = .ok r

namespace Preprocessor

variable {p : Preprocessor α} {db : Database α} {force : Bool}

/-- A run that computes every point: it is forced, or nothing is stored yet. -/
def Thorough (db : Database α) (force : Bool) : Prop :=
  force = true ∨ db.associations = .empty

theorem not_idle_of_thorough (thorough : Thorough db force) : ¬Idle db force := by
  rintro ⟨ready, unforced⟩
  rcases thorough with forced | empty
  · rw [forced] at unforced
    cases unforced
  · rw [empty] at ready
    cases ready

theorem pending_of_thorough (thorough : Thorough db force) : pending db force = db.ids := by
  rcases thorough with forced | empty
  · rw [pending, if_pos forced]
  · rw [pending, empty]
    split
    · rfl
    · exact List.filter_eq_self.mpr fun _ _ => rfl

theorem preparedBy_of_run (thorough : Thorough db force) {count : ℕ}
    (answered : (p.run db force).1 = .ok count) : (p.run db force).2.PreparedBy p := by
  have pass := p.run_pass db force
  generalize p.run db force = result at pass answered
  cases pass with
  | skipped idle => exact absurd idle (not_idle_of_thorough thorough)
  | abandoned => cases answered
  | completed _ left =>
      rw [pending_of_thorough thorough] at left
      intro id member
      rw [Database.ids, left.points] at member
      obtain ⟨r, computed, stored⟩ := left.computed id member
      exact ⟨r, by rwa [left.points], Database.outcome_of_find? stored⟩

/-- Such a run answers how many points there are. -/
theorem count_of_run (thorough : Thorough db force) {count : ℕ}
    (answered : (p.run db force).1 = .ok count) : count = db.ids.length := by
  have pass := p.run_pass db force
  generalize p.run db force = result at pass answered
  cases pass with
  | skipped idle => exact absurd idle (not_idle_of_thorough thorough)
  | abandoned => cases answered
  | completed =>
      rw [pending_of_thorough thorough] at answered
      exact (Except.ok.inj answered).symm

/-- A run that is due for every point is answered exactly if each one has a neighborhood. -/
theorem exists_run_ok_iff (thorough : Thorough db force) :
    (∃ count, (p.run db force).1 = .ok count) ↔
      ∀ id ∈ db.ids, ∃ hood, p.provider.neighborhood db.points id = .ok hood := by
  constructor
  · rintro ⟨count, answered⟩ id member
    have points := p.run_points db force
    obtain ⟨r, computed, _⟩ := preparedBy_of_run thorough answered id (by rwa [Database.ids, points])
    rw [points] at computed
    exact exists_compute_iff.mp ⟨r, computed⟩
  · intro every
    have pass := p.run_pass db force
    generalize p.run db force = result at pass
    cases pass with
    | skipped => exact ⟨_, rfl⟩
    | completed => exact ⟨_, rfl⟩
    | @abandoned id _ _ _ member failed =>
        rw [pending_of_thorough thorough] at member
        obtain ⟨r, computed⟩ := exists_compute_iff.mpr (every id member)
        rw [computed] at failed
        cases failed

end Preprocessor

variable {db : Database α} {p : Preprocessor α} {id : Int}

theorem Database.PreparedBy.exists_analyzed (prepared : db.PreparedBy p) (member : id ∈ db.ids) :
    ∃ hood r, p.provider.neighborhood db.points id = .ok hood ∧ hood.dim = db.points.dim ∧
      hood.Analyzed p.solver p.config r ∧ db.outcome id = .ok r := by
  obtain ⟨r, computed, stored⟩ := prepared id member
  obtain ⟨hood, found, analyzed⟩ := Preprocessor.exists_analyzed_of_compute computed
  exact ⟨hood, r, found, Provider.dim_of_neighborhood found, analyzed, stored⟩

theorem Database.PreparedBy.exists_outcome (prepared : db.PreparedBy p) (member : id ∈ db.ids) :
    ∃ r, db.outcome id = .ok r ∧
      1 ≤ r.correlationDimension ∧ r.correlationDimension ≤ db.points.dim := by
  obtain ⟨hood, r, _, dim, analyzed, stored⟩ := prepared.exists_analyzed member
  exact ⟨r, stored, r.one_le_dimension, dim ▸ analyzed.inside⟩

/-- Preprocessors with one provider answer thorough runs alike, and analyse the same
neighborhoods. -/
theorem Preprocessor.exists_analyzed_both (p p' : Preprocessor α) {force : Bool}
    (thorough : Thorough db force) (provider : p'.provider = p.provider) {count : ℕ}
    (answered : (p.run db force).1 = .ok count) :
    (∃ count', (p'.run db force).1 = .ok count') ∧
      ∀ id ∈ db.ids, ∃ hood r r', p.provider.neighborhood db.points id = .ok hood ∧
        hood.dim = db.points.dim ∧
        hood.Analyzed p.solver p.config r ∧ (p.run db force).2.outcome id = .ok r ∧
        hood.Analyzed p'.solver p'.config r' ∧ (p'.run db force).2.outcome id = .ok r' := by
  have answered' : ∃ count', (p'.run db force).1 = .ok count' := by
    rw [exists_run_ok_iff thorough, provider]
    exact (exists_run_ok_iff thorough).mp ⟨count, answered⟩
  refine ⟨answered', fun id member => ?_⟩
  obtain ⟨count', answered'⟩ := answered'
  have points := p.run_points db force
  have points' := p'.run_points db force
  have left : id ∈ (p.run db force).2.ids := by rwa [Database.ids, points]
  have left' : id ∈ (p'.run db force).2.ids := by rwa [Database.ids, points']
  obtain ⟨hood, r, found, dim, analyzed, stored⟩ :=
    (preparedBy_of_run thorough answered).exists_analyzed left
  obtain ⟨hood', r', found', _, analyzed', stored'⟩ :=
    (preparedBy_of_run thorough answered').exists_analyzed left'
  rw [points] at found dim
  rw [points', provider] at found'
  obtain rfl : hood = hood' := Except.ok.inj (found.symm.trans found')
  exact ⟨hood, r, r', found, dim, analyzed, stored, analyzed', stored'⟩

end Prepared

def Preprocessor.surveying (solver : Solver α) (config : Config α) : Preprocessor α where
  name := standardName
  provider := ⟨fun s _ => s.stacked s.ids.toList, .null, none⟩
  config := config
  solver := solver
  workers := .int 1
  workers_nonzero := rfl

theorem Preprocessor.exists_neighborhood_surveying (solver : Solver α) (config : Config α)
    (s : PointSet α) (id : Int) (member : id ∈ s.ids.toList) :
    ∃ hood, (surveying solver config).provider.neighborhood s id = .ok hood :=
  Provider.exists_neighborhood rfl (List.ne_nil_of_mem member) (fun _ known => known) member

/-- What an unforced run of such a preprocessor leaves of a fresh database. -/
def Preprocessor.surveyed (solver : Solver α) (config : Config α) (s : PointSet α) : Database α :=
  ((surveying solver config).run { points := s } false).2

noncomputable abbrev PointSet.ofPair {n : ℕ} (x y : Vector ℝ n) (positive : 0 < n) : PointSet ℝ where
  size := 2
  dim := n
  vectors := #v[x, y]
  ids := #v[1, 2]
  nonempty := ⟨Nat.two_pos, positive⟩
  ids_nodup := by decide
  vectors_finite := Mat.allFinite_real _

end LocalMetric
