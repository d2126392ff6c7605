import LocalMetric.Distance.Counter
import LocalMetric.Registry
/-!
# Sessions

Databases, counters and distance functions that live side by side. Distance functions refer to a
counter, which others may share, and once bound to a database, so all of them are known by handles,
in the order in which they were made.
-/
namespace LocalMetric

/-- A distance function: how its database is prepared, and what it counts with. -/
structure Metric (α : Type) [Scalar α] where
  preprocessor : Preprocessor α
  /-- Whether binding computes every point again. -/
  force : Bool
  counter : Nat
  database : Option Nat := none

/-- What a session holds. -/
structure Session (α : Type) [Scalar α] where
  databases : Array (Database α) := #[]
  counters : Array Counter := #[]
  metrics : Array (Metric α) := #[]

namespace Session

variable {α : Type} [Scalar α]

def lookup {β : Type} (objects : Array β) (handle : Nat) : Checked α β :=
  match objects[handle]? with
  | some object => .ok object
  | none => .error (.noSuchObject handle)

def addDatabase (s : Session α) (points : PointSet α) : Nat × Session α :=
  (s.databases.size, { s with databases := s.databases.push { points } })

def addCounter (s : Session α) : Nat × Session α :=
  (s.counters.size, { s with counters := s.counters.push {} })

def addMetric (s : Session α) (preprocessor : Preprocessor α) (force : Bool) (counter : Nat) :
    Nat × Session α :=
  (s.metrics.size, { s with metrics := s.metrics.push { preprocessor, force, counter } })

def setDatabase (s : Session α) (handle : Nat) (db : Database α) : Session α :=
  { s with databases := s.databases.setIfInBounds handle db }

def setCounter (s : Session α) (handle : Nat) (c : Counter) : Session α :=
  { s with counters := s.counters.setIfInBounds handle c }

def run (s : Session α) (p : Preprocessor α) (database : Nat) (force : Bool) :
    Checked α Nat × Session α :=
  match lookup s.databases database with
  | .error fault => (.error fault, s)
  | .ok db =>
    let (answer, db) := p.run db force
    (answer, s.setDatabase database db)

/-- Binds a distance function to a database, which is prepared if forced or not ready. The binding
stays even if the preparation fails. -/
def bind (s : Session α) (metric database : Nat) : Checked α Unit × Session α :=
  match lookup s.metrics metric, lookup s.databases database with
  | .error fault, _ => (.error fault, s)
  | _, .error fault => (.error fault, s)
  | .ok m, .ok db =>
    let m := { m with database := some database }
    let s := { s with metrics := s.metrics.setIfInBounds metric m }
    if m.force || !db.associations.isReady .localPca then
      let (answer, s) := s.run m.preprocessor database m.force
      (answer.map fun _ => (), s)
    else (.ok (), s)

def boundDatabase (s : Session α) (m : Metric α) : Checked α (Database α) :=
  match m.database with
  | some handle => lookup s.databases handle
  | none => .error .unbound

def increment (s : Session α) (counter : Nat) (n : Int) : Checked α Unit × Session α :=
  match (lookup s.counters counter).bind (·.increment n) with
  | .error fault => (.error fault, s)
  | .ok c => (.ok (), s.setCounter counter c)

/-- Starts a counter again and answers its count until then. -/
def reset (s : Session α) (counter : Nat) : Checked α Int × Session α :=
  match lookup s.counters counter with
  | .error fault => (.error fault, s)
  | .ok c => (.ok c.reset.1, s.setCounter counter c.reset.2)

/-- The distance between two points of the bound database. It counts before it looks at the
points. -/
def distance (s : Session α) (metric : Nat) (p q : Int) : Checked α α × Session α :=
  match lookup s.metrics metric with
  | .error fault => (.error fault, s)
  | .ok m =>
    match s.boundDatabase m with
    | .error fault => (.error fault, s)
    | .ok db => (db.distance p q, (s.increment m.counter 1).2)

/-- The distances between all pairs of the given points of the bound database, or of all its points.
Each pair is counted once all distances are there. -/
def distanceMatrix (s : Session α) (metric : Nat) (ids : Option (List Int)) :
    Checked α (Grid α) × Session α :=
  match lookup s.metrics metric with
  | .error fault => (.error fault, s)
  | .ok m =>
    match s.boundDatabase m with
    | .error fault => (.error fault, s)
    | .ok db =>
      match db.distanceMatrix (ids.getD db.ids) with
      | .error fault => (.error fault, s)
      | .ok matrix => (.ok matrix, (s.increment m.counter (pairCount matrix.rows)).2)

end Session

end LocalMetric
