import LocalMetric.Database
import LocalMetric.Json.Conversion
import LocalMetric.Provider
/-!
# Preprocessing

A preprocessor associates the outcome of a local analysis with every point of a database. Outcomes
are stored only once all of them are there, so a failure for one point leaves the values as they
were.
-/
namespace LocalMetric

/-- Computes the local analysis of the points of a database. -/
structure Preprocessor (α : Type) [Scalar α] where
  name : String
  provider : Provider α
  config : Config α
  solver : Solver α
  /-- How many workers share the points, as stated. No outcome depends on it. -/
  workers : Json α
  workers_nonzero : workers.isZero = false

namespace Preprocessor

variable {α : Type} [Scalar α]

def version : String := "1.0.0"

def standardName : String := "CorrelationDimensionPreprocessor"

/-- A preprocessor; without a configuration the standard one is used. -/
def make (solver : Solver α) (provider : Provider α) (config : Option (Config α))
    (workers : Json α) (name : String) : Checked α (Preprocessor α) :=
  match h : workers.isZero with
  | true => .error .noWorkers
  | false => do
    let config ← match config with
      | some c => pure c
      | none => Config.standard
    return ⟨if name = "" then standardName else name, provider, config, solver, workers, h⟩

def compute (p : Preprocessor α) (s : PointSet α) (id : Int) : Checked α (LocalPca α) := do
  let points ← p.provider.points s id
  let anchor ← s.vector id
  LocalPca.compute p.solver p.config ⟨[s.dim], anchor⟩ points

/-- The ids that a run computes: all of them if forced, else those without an outcome. -/
def pending (db : Database α) (force : Bool) : List Int :=
  if force then db.ids else db.associations.missing .localPca db.ids

/-- Computes the outcomes that are missing, or all of them if forced, and answers how many. A
database that is ready is left alone unless forced. The kind is being computed from the start of a
pass until it is abandoned or all outcomes are stored. -/
def run (p : Preprocessor α) (db : Database α) (force : Bool) : Checked α Nat × Database α :=
  if db.associations.isReady .localPca && !force then (.ok 0, db)
  else
    let ids := pending db force
    let started := db.associations.setState .localPca .computing
    match ids.mapM (p.compute db.points) with
    | .error fault =>
      (.error fault, { db with associations := started.setState .localPca .unset })
    | .ok outcomes =>
      let stored := started.setAll .localPca (ids.zip (outcomes.map .localPca))
      (.ok ids.length, { db with associations := stored.setState .localPca .ready })

def describe (p : Preprocessor α) : Json α :=
  .obj [("name", .str p.name), ("version", .str version), ("neighborhood", p.provider.description),
    ("local_pca", p.config.toJson), ("n_jobs", p.workers)]

end Preprocessor

end LocalMetric
