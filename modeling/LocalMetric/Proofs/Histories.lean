import LocalMetric.Proofs.Runs
import LocalMetric.Session
/-!
# Histories of sessions

A history is a list of operations on the databases, counters and distance functions of a session, in
any order. What it does to one database is a chain of changes of five kinds, and only a run stores
outcomes that were computed.
-/
namespace LocalMetric.Session

variable {α : Type} [Scalar α]

/-- An operation of a session. Objects are known by their handles. -/
inductive Event (α : Type) [Scalar α] where
  | addDatabase (points : PointSet α)
  | addCounter
  | addMetric (preprocessor : Preprocessor α) (force : Bool) (counter : Nat)
  /-- Stores a value for a point, which has to be a point of the database. -/
  | associate (database : Nat) (kind : Kind) (id : Int) (value : Associated α)
  /-- Stores a value for any id. -/
  | store (database : Nat) (kind : Kind) (id : Int) (value : Associated α)
  | clear (database : Nat) (kind : Kind)
  | setState (database : Nat) (kind : Kind) (state : Readiness)
  | run (preprocessor : Preprocessor α) (database : Nat) (force : Bool)
  | bind (metric database : Nat)
  | distance (metric : Nat) (p q : Int)
  | distanceMatrix (metric : Nat) (ids : Option (List Int))
  | increment (counter : Nat) (n : Int)
  | reset (counter : Nat)

/-- Changes a database unless the change is refused. -/
def change (s : Session α) (database : Nat) (f : Database α → Checked α (Database α)) :
    Checked α Unit × Session α :=
  match (lookup s.databases database).bind f with
  | .error fault => (.error fault, s)
  | .ok db => (.ok (), s.setDatabase database db)

def changeStore (s : Session α) (database : Nat)
    (f : Associations (Associated α) → Associations (Associated α)) : Checked α Unit × Session α :=
  s.change database fun db => .ok { db with associations := f db.associations }

/-- The session after an operation, whether the operation was refused or not. -/
def after (s : Session α) : Event α → Session α
  | .addDatabase points => (s.addDatabase points).2
  | .addCounter => s.addCounter.2
  | .addMetric preprocessor force counter => (s.addMetric preprocessor force counter).2
  | .associate database kind id value => (s.change database (·.associate kind id value)).2
  | .store database kind id value => (s.changeStore database (·.set kind id value)).2
  | .clear database kind => (s.changeStore database (·.clear kind)).2
  | .setState database kind state => (s.changeStore database (·.setState kind state)).2
  | .run preprocessor database force => (s.run preprocessor database force).2
  | .bind metric database => (s.bind metric database).2
  | .distance metric p q => (s.distance metric p q).2
  | .distanceMatrix metric ids => (s.distanceMatrix metric ids).2
  | .increment counter n => (s.increment counter n).2
  | .reset counter => (s.reset counter).2

def replay : Session α → List (Event α) → Session α
  | s, [] => s
  | s, e :: rest => replay (s.after e) rest

/-- The preprocessor that an operation runs on a database, if any, and whether it is forced. Binding
runs the preprocessor of the distance function. -/
def runOn (s : Session α) (d : Nat) : Event α → Option (Preprocessor α × Bool)
  | .run preprocessor database force => if database = d then some (preprocessor, force) else none
  | .bind metric database =>
    if database = d then (s.metrics[metric]?).map fun m => (m.preprocessor, m.force) else none
  | _ => none

/-- The kind of value that an operation other than a run stores in a database, if any. -/
def Event.storesIn (d : Nat) : Event α → Option Kind
  | .associate database kind _ _ => if database = d then some kind else none
  | .store database kind _ _ => if database = d then some kind else none
  | _ => none

/-- What an operation makes of the database with a handle. -/
inductive Change (s : Session α) (d : Nat) (db : Database α) : Event α → Database α → Prop
  | ran {e p force} : s.runOn d e = some (p, force) → Change s d db e (p.run db force).2
  | stored {e kind} (id : Int) (value : Associated α) : e.storesIn d = some kind →
      Change s d db e { db with associations := db.associations.set kind id value }
  | cleared (kind : Kind) :
      Change s d db (.clear d kind) { db with associations := db.associations.clear kind }
  | marked (kind : Kind) (state : Readiness) :
      Change s d db (.setState d kind state)
        { db with associations := db.associations.setState kind state }
  | kept {e} : s.runOn d e = none → Change s d db e db

section Lookup

omit [Scalar α] in
theorem lookup_ok_iff {β : Type} {objects : Array β} {handle : Nat} {object : β} :
    lookup (α := α) objects handle = .ok object ↔ objects[handle]? = some object := by
  unfold lookup
  cases objects[handle]? with
  | none => simp only [reduceCtorEq]
  | some found => simp only [Except.ok.injEq, Option.some.injEq]

omit [Scalar α] in
theorem lookup_eq_of_getElem? {β : Type} {objects : Array β} {handle : Nat} {object : β}
    (found : objects[handle]? = some object) : lookup (α := α) objects handle = .ok object :=
  lookup_ok_iff.mpr found

variable {s : Session α} {d : Nat} {db : Database α}

theorem getElem?_setDatabase_self (found : s.databases[d]? = some db) (new : Database α) :
    (s.setDatabase d new).databases[d]? = some new := by
  have inside : d < s.databases.size := (Array.getElem?_eq_some_iff.mp found).1
  simp only [setDatabase, Array.getElem?_setIfInBounds, if_true, inside]

theorem getElem?_setDatabase_of_ne {other : Nat} (apart : other ≠ d) (new : Database α) :
    (s.setDatabase other new).databases[d]? = s.databases[d]? := by
  simp only [setDatabase, Array.getElem?_setIfInBounds, if_neg apart]

theorem getElem?_change_of_ne {other : Nat} (apart : other ≠ d)
    (f : Database α → Checked α (Database α)) :
    (s.change other f).2.databases[d]? = s.databases[d]? := by
  unfold change
  split
  · rfl
  · exact getElem?_setDatabase_of_ne apart _

theorem getElem?_change_self (found : s.databases[d]? = some db)
    {f : Database α → Checked α (Database α)} {new : Database α} (answered : f db = .ok new) :
    (s.change d f).2.databases[d]? = some new := by
  have changed : (lookup s.databases d).bind f = .ok new := by
    rw [lookup_eq_of_getElem? found]
    exact answered
  rw [change, changed]
  exact getElem?_setDatabase_self found new

theorem change_of_error (found : s.databases[d]? = some db)
    {f : Database α → Checked α (Database α)} {fault : Fault α} (refused : f db = .error fault) :
    s.change d f = (.error fault, s) := by
  have changed : (lookup s.databases d).bind f = .error fault := by
    rw [lookup_eq_of_getElem? found]
    exact refused
  rw [change, changed]

theorem getElem?_run_self (found : s.databases[d]? = some db) (p : Preprocessor α) (force : Bool) :
    (s.run p d force).2.databases[d]? = some (p.run db force).2 := by
  rw [run, lookup_eq_of_getElem? found]
  exact getElem?_setDatabase_self found _

theorem getElem?_run_of_ne {other : Nat} (apart : other ≠ d) (p : Preprocessor α) (force : Bool) :
    (s.run p other force).2.databases[d]? = s.databases[d]? := by
  unfold run
  split
  · rfl
  · exact getElem?_setDatabase_of_ne apart _

omit [Scalar α] in
theorem not_due_iff {V : Type} {store : Associations V} {force : Bool} :
    ¬(force || !store.isReady .localPca) = true ↔ (store.isReady .localPca && !force) = true := by
  cases force <;> cases store.isReady .localPca <;> decide

/-- Binding prepares the database exactly as a run of the distance function's preprocessor does. -/
theorem getElem?_bind_self (found : s.databases[d]? = some db) {m : Nat} {metric : Metric α}
    (known : s.metrics[m]? = some metric) :
    (s.bind m d).2.databases[d]? = some (metric.preprocessor.run db metric.force).2 := by
  rw [bind, lookup_eq_of_getElem? found, lookup_eq_of_getElem? known]
  simp only
  split
  · let bound : Session α :=
      { s with metrics := s.metrics.setIfInBounds m { metric with database := some d } }
    have there : bound.databases[d]? = some db := found
    exact getElem?_run_self there _ _
  · rename_i idle
    rw [Preprocessor.run, if_pos (not_due_iff.mp idle), found]

/-- Binding is refused exactly if that run is. -/
theorem bind_answer (found : s.databases[d]? = some db) {m : Nat} {metric : Metric α}
    (known : s.metrics[m]? = some metric) :
    (s.bind m d).1 = (metric.preprocessor.run db metric.force).1.map fun _ => () := by
  rw [bind, lookup_eq_of_getElem? found, lookup_eq_of_getElem? known]
  simp only
  split
  · have there : lookup (α := α) s.databases d = .ok db := lookup_eq_of_getElem? found
    rw [run, there]
  · rename_i idle
    rw [Preprocessor.run, if_pos (not_due_iff.mp idle)]
    rfl

theorem exists_run_of_bind {m : Nat} {metric : Metric α} (known : s.metrics[m]? = some metric)
    (found : s.databases[d]? = some db) (answered : (s.bind m d).1 = .ok ()) :
    ∃ count, (metric.preprocessor.run db metric.force).1 = .ok count := by
  rw [bind_answer found known] at answered
  cases run : (metric.preprocessor.run db metric.force).1 with
  | ok count => exact ⟨count, rfl⟩
  | error fault =>
      rw [run] at answered
      cases answered

theorem metrics_run (p : Preprocessor α) (database : Nat) (force : Bool) :
    (s.run p database force).2.metrics = s.metrics := by
  unfold run
  split <;> rfl

theorem metrics_bind (found : s.databases[d]? = some db) {m : Nat} {metric : Metric α}
    (known : s.metrics[m]? = some metric) :
    (s.bind m d).2.metrics = s.metrics.setIfInBounds m { metric with database := some d } := by
  rw [bind, lookup_eq_of_getElem? found, lookup_eq_of_getElem? known]
  simp only
  split
  · exact metrics_run _ _ _
  · rfl

theorem getElem?_bind_of_ne {other : Nat} (apart : other ≠ d) (m : Nat) :
    (s.bind m other).2.databases[d]? = s.databases[d]? := by
  unfold bind
  split
  · rfl
  · rfl
  · simp only
    split
    · exact getElem?_run_of_ne (s := { s with metrics := _ }) apart _ _
    · rfl

theorem getElem?_bind_of_unknown {m : Nat} (unknown : s.metrics[m]? = none) (other : Nat) :
    (s.bind m other).2 = s := by
  rw [bind, lookup, unknown]

theorem databases_increment (counter : Nat) (n : Int) :
    (s.increment counter n).2.databases = s.databases := by
  unfold increment
  split <;> rfl

theorem databases_reset (counter : Nat) : (s.reset counter).2.databases = s.databases := by
  unfold reset
  split <;> rfl

theorem databases_distance (m : Nat) (p q : Int) :
    (s.distance m p q).2.databases = s.databases := by
  unfold distance
  split
  · rfl
  · split
    · rfl
    · exact databases_increment _ _

theorem databases_distanceMatrix (m : Nat) (ids : Option (List Int)) :
    (s.distanceMatrix m ids).2.databases = s.databases := by
  unfold distanceMatrix
  split
  · rfl
  · split
    · rfl
    · split
      · rfl
      · exact databases_increment _ _

end Lookup

section Changes

variable {s : Session α} {d : Nat} {db : Database α}

/-- A change of the store of some database is a change of the one in question or of another. -/
theorem change_of_changeStore (found : s.databases[d]? = some db) {e : Event α} (database : Nat)
    {f : Associations (Associated α) → Associations (Associated α)}
    (after : s.after e = (s.changeStore database f).2) (idle : s.runOn d e = none)
    (here : database = d → Change s d db e { db with associations := f db.associations }) :
    ∃ new, (s.after e).databases[d]? = some new ∧ Change s d db e new := by
  rw [after]
  by_cases same : database = d
  · subst same
    exact ⟨_, getElem?_change_self found rfl, here rfl⟩
  · exact ⟨db, (getElem?_change_of_ne same _).trans found, .kept idle⟩

/-- Every operation changes a database in one of the five ways. -/
theorem change_after (found : s.databases[d]? = some db) (e : Event α) :
    ∃ new, (s.after e).databases[d]? = some new ∧ Change s d db e new := by
  have inside : d < s.databases.size := (Array.getElem?_eq_some_iff.mp found).1
  cases e with
  | addDatabase points =>
      refine ⟨db, ?_, .kept rfl⟩
      change (s.databases.push _)[d]? = some db
      rw [Array.getElem?_push_lt inside, ← Array.getElem?_eq_getElem inside, found]
  | addCounter => exact ⟨db, found, .kept rfl⟩
  | addMetric preprocessor force counter => exact ⟨db, found, .kept rfl⟩
  | associate database kind id value =>
      by_cases same : database = d
      · subst same
        cases known : db.points.row id with
        | error fault =>
            refine ⟨db, ?_, .kept rfl⟩
            rw [after, change_of_error found (by rw [Database.associate, known]; rfl), found]
        | ok row =>
            refine ⟨_, getElem?_change_self found ?_, .stored id value (if_pos rfl)⟩
            rw [Database.associate, known]
            rfl
      · exact ⟨db, (getElem?_change_of_ne same _).trans found, .kept rfl⟩
  | store database kind id value =>
      exact change_of_changeStore found database rfl rfl
        fun same => .stored id value (if_pos same)
  | clear database kind =>
      refine change_of_changeStore found database rfl rfl fun same => ?_
      subst same
      exact .cleared kind
  | setState database kind state =>
      refine change_of_changeStore found database rfl rfl fun same => ?_
      subst same
      exact .marked kind state
  | run preprocessor database force =>
      by_cases same : database = d
      · subst same
        exact ⟨_, getElem?_run_self found _ _, .ran (if_pos rfl)⟩
      · exact ⟨db, (getElem?_run_of_ne same _ _).trans found, .kept (if_neg same)⟩
  | bind metric database =>
      by_cases same : database = d
      · subst same
        cases known : s.metrics[metric]? with
        | none =>
            refine ⟨db, ?_, .kept ?_⟩
            · rw [after, getElem?_bind_of_unknown known, found]
            · simp only [runOn, if_true, known, Option.map_none]
        | some m =>
            refine ⟨_, getElem?_bind_self found known, .ran ?_⟩
            simp only [runOn, if_true, known, Option.map_some]
      · exact ⟨db, (getElem?_bind_of_ne same _).trans found, .kept (if_neg same)⟩
  | distance metric p q =>
      exact ⟨db, by rw [after, databases_distance, found], .kept rfl⟩
  | distanceMatrix metric ids =>
      exact ⟨db, by rw [after, databases_distanceMatrix, found], .kept rfl⟩
  | increment counter n =>
      exact ⟨db, by rw [after, databases_increment, found], .kept rfl⟩
  | reset counter =>
      exact ⟨db, by rw [after, databases_reset, found], .kept rfl⟩

theorem Change.points {e : Event α} {new : Database α} (step : Change s d db e new) :
    new.points = db.points := by
  cases step with
  | ran => exact Preprocessor.run_points _ _ _
  | stored => rfl
  | cleared => rfl
  | marked => rfl
  | kept => rfl

/-- A property that every change keeps is kept by a whole history. -/
theorem replay_induction {Inv : Database α → Prop} {Allowed : Event α → Prop}
    (step : ∀ {s : Session α} {db new : Database α} {e : Event α}, Allowed e → Inv db →
      Change s d db e new → Inv new)
    (s : Session α) {events : List (Event α)} (allowed : ∀ e ∈ events, Allowed e)
    (found : s.databases[d]? = some db) (start : Inv db) :
    ∃ new, (s.replay events).databases[d]? = some new ∧ new.points = db.points ∧ Inv new := by
  induction events generalizing s db with
  | nil => exact ⟨db, found, rfl, start⟩
  | cons e rest ih =>
      obtain ⟨next, there, changed⟩ := change_after found e
      have held := step (allowed e List.mem_cons_self) start changed
      obtain ⟨new, final, samePoints, kept⟩ :=
        ih (s.after e) (fun x member => allowed x (List.mem_cons_of_mem e member)) there held
      exact ⟨new, final, samePoints.trans changed.points, kept⟩

end Changes

section Measurements

variable {s : Session α} {d : Nat} {db : Database α}

/-- A distance function that is bound to the database with a handle. -/
def Bound (s : Session α) (m d : Nat) : Prop :=
  ∃ metric, s.metrics[m]? = some metric ∧ metric.database = some d

/-- Binding a distance function to a database unbinds no other one from it. -/
theorem Bound.bind {m k : Nat} {metric : Metric α} (bound : s.Bound k d)
    (found : s.databases[d]? = some db) (known : s.metrics[m]? = some metric) :
    (s.bind m d).2.Bound k d := by
  obtain ⟨other, there, handle⟩ := bound
  unfold Bound
  rw [metrics_bind found known, Array.getElem?_setIfInBounds]
  by_cases same : m = k
  · have inside : m < s.metrics.size := (Array.getElem?_eq_some_iff.mp known).1
    exact ⟨_, by rw [if_pos same, if_pos inside], rfl⟩
  · exact ⟨other, by rw [if_neg same, there], handle⟩

theorem bound_after_bind (found : s.databases[d]? = some db) {m : Nat} {metric : Metric α}
    (known : s.metrics[m]? = some metric) : (s.bind m d).2.Bound m d := by
  have inside : m < s.metrics.size := (Array.getElem?_eq_some_iff.mp known).1
  refine ⟨{ metric with database := some d }, ?_, rfl⟩
  rw [metrics_bind found known, Array.getElem?_setIfInBounds, if_pos rfl, if_pos inside]

theorem boundDatabase_eq (found : s.databases[d]? = some db) {metric : Metric α}
    (bound : metric.database = some d) : s.boundDatabase metric = .ok db := by
  rw [boundDatabase, bound]
  exact lookup_eq_of_getElem? found

/-- A bound distance function answers what its database answers. -/
theorem distance_of_bound {m : Nat} (bound : s.Bound m d) (found : s.databases[d]? = some db)
    (p q : Int) : (s.distance m p q).1 = db.distance p q := by
  obtain ⟨metric, known, handle⟩ := bound
  rw [distance, lookup_eq_of_getElem? known]
  simp only [boundDatabase_eq found handle]

theorem distanceMatrix_of_bound {m : Nat} (bound : s.Bound m d)
    (found : s.databases[d]? = some db) (ids : Option (List Int)) :
    (s.distanceMatrix m ids).1 = db.distanceMatrix (ids.getD db.ids) := by
  obtain ⟨metric, known, handle⟩ := bound
  rw [distanceMatrix, lookup_eq_of_getElem? known]
  simp only [boundDatabase_eq found handle]
  cases db.distanceMatrix (ids.getD db.ids) <;> rfl

/-- A session with one database, one counter and one distance function that is not bound yet. -/
def single (points : PointSet α) (p : Preprocessor α) (force : Bool) : Session α where
  databases := #[{ points }]
  counters := #[{}]
  metrics := #[⟨p, force, 0, none⟩]

end Measurements

end LocalMetric.Session
