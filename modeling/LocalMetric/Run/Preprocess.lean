import LocalMetric.Report.Csv
import LocalMetric.Run.Request
/-!
# Preprocessing runs

A preprocessing run analyses every point of a feature file and reports the outcomes as a table.
-/
namespace LocalMetric.Preprocess

variable {α : Type} [Scalar α] [Numeral α] {m : Type → Type} [Monad m] [Host α m]

def pipeline : String := "preprocess"

structure Result where
  directory : Path
  report : Path
  table : Path

def Result.toJson (r : Result) : Json α :=
  .obj [("run_dir", .str r.directory.text), ("report", .str r.report.text),
    ("table", .str r.table.text)]

/-- Writes the table of points, if there are any. -/
def writeTable (path : Path) (rows : List (PointSummary α)) : RunM α m Unit := do
  match ← Csv.tableText? (rows.map PointSummary.fields) with
  | some text => RunContext.writeText path text
  | none => pure ()

def report (time : Instant) (r : RunRequest α) (bundle : FeatureBundle α) (computed : Nat)
    (p : Preprocessor α) (dimensions : DimensionSummary α) : Json α :=
  .obj [("timestamp_utc", .str time.text), ("feature_file", .str r.featureFile.text),
    ("shape", .arr [.int bundle.rows, .int bundle.columns]), ("n_computed", .int computed),
    ("preprocessor", p.describe), ("correlation_dimensions", dimensions.toJson)]

def run (tools : Toolbox α) (r : RunRequest α) (files : FeatureFiles α) : RunM α m Result := do
  let bundle ← FeatureBundle.load r.featureFile files
  let context ← RunContext.create pipeline r.outputRoot r.runId
  let points ← bundle.points
  let p ← r.makePreprocessor tools
  let (outcome, seconds) ← ExceptT.lift (Host.timed fun _ => p.run { points } true)
  let computed ← outcome.1
  let context := context.addTiming "local_pca_seconds" seconds
  let rows ← summarizePoints outcome.2 bundle.names
  let table := context.reports.child "local_pca_points.csv"
  writeTable table rows
  let context := context.addArtifact "local_pca_table" table
  let time ← ExceptT.lift Host.now
  let dimensions := summarizeDimensions rows points.dim
  let reportPath := context.reports.child "preprocess_report.json"
  RunContext.writeJson reportPath (report time r bundle computed p dimensions)
  let context := context.addArtifact "report" reportPath
  context.finalize (.obj (("pipeline", .str pipeline) :: r.settings))
  return ⟨context.directory, reportPath, table⟩

end LocalMetric.Preprocess
