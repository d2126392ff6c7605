import LocalMetric.Json.Printer
import LocalMetric.Run.Effect
/-!
# Run directories

A run keeps its files in a directory of its own, with one directory for computed features and one
for reports. At the end it writes down its settings, its files and its timings.
-/
namespace LocalMetric

/-- Where a run keeps its files, and what it has to tell about them. -/
structure RunContext (α : Type) where
  pipeline : String
  outputRoot : Path
  runId : String
  /-- The files of the run, by what they are. -/
  artifacts : Table String String := {}
  /-- How many seconds the steps of the run took. -/
  timings : Table String α := {}

namespace RunContext

variable {α : Type} {m : Type → Type} [Monad m] [Host α m]

def directory (c : RunContext α) : Path := (c.outputRoot.child c.pipeline).child c.runId

def features (c : RunContext α) : Path := c.directory.child "features"

def reports (c : RunContext α) : Path := c.directory.child "reports"

def addArtifact (c : RunContext α) (key : String) (path : Path) : RunContext α :=
  { c with artifacts := c.artifacts.set key path.text }

def addTiming (c : RunContext α) (key : String) (seconds : α) : RunContext α :=
  { c with timings := c.timings.set key seconds }

def perform (effect : Effect α) : RunM α m Unit := ExceptT.lift (Host.perform effect)

/-- Writes a file into a directory, which is made if it is missing. -/
def writeText (path : Path) (text : String) : RunM α m Unit := do
  perform (.makeDirectory path.parent)
  perform (.write path (.text text))

def writeJson [Numeral α] (path : Path) (value : Json α) : RunM α m Unit :=
  writeText path value.text

/-- Starts a run: makes its directories. Without an id, or with an empty one, the run is named after
the time. -/
def create (pipeline : String) (outputRoot : Path) (runId : Option String) :
    RunM α m (RunContext α) := do
  let runId ← match runId with
    | some id => if id = "" then ExceptT.lift (Instant.runName <$> Host.now) else pure id
    | none => ExceptT.lift (Instant.runName <$> Host.now)
  let c : RunContext α := { pipeline, outputRoot, runId }
  perform (.makeDirectory c.features)
  perform (.makeDirectory c.reports)
  return c

/-- Ends a run: writes down its settings, its files and its timings. -/
def finalize [Numeral α] (c : RunContext α) (settings : Json α) : RunM α m Unit := do
  writeJson (c.directory.child "run_config.json") settings
  writeJson (c.directory.child "artifact_index.json")
    (.obj (c.artifacts.entries.map fun (key, path) => (key, .str path)))
  writeJson (c.directory.child "timings.json")
    (.obj (c.timings.entries.map fun (key, seconds) => (key, .num seconds)))

end RunContext

end LocalMetric
