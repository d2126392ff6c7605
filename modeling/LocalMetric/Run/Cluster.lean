import LocalMetric.Clustering.Selection
import LocalMetric.Run.Request
import LocalMetric.Session
/-!
# Clustering runs

A clustering run computes the distances between all points of a feature file, clusters them once for
each usable radius, and reports which clustering wins.
-/
namespace LocalMetric.Cluster

variable {α : Type} [Scalar α] [Numeral α] {m : Type → Type} [Monad m] [Host α m]

def pipeline : String := "clustering"

def version : String := "1.0.0"

structure Request (α : Type) extends RunRequest α where
  /-- Whether every point is analysed again. -/
  force : Bool
  radii : List α
  minimum : Int
  /-- Whether clusterings are compared with the true labels. -/
  evaluate : Bool

structure Result where
  directory : Path
  report : Path
  distances : Path

def Result.toJson (r : Result) : Json α :=
  .obj [("run_dir", .str r.directory.text), ("report", .str r.report.text),
    ("distances", .str r.distances.text)]

/-- What a run has computed before it reports. -/
structure Findings (α : Type) [Scalar α] where
  bundle : FeatureBundle α
  preprocessor : Preprocessor α
  dimensions : DimensionSummary α
  /-- How many distances were computed. -/
  counted : Int
  variants : List (Variant α)

/-- Refuses a request that cannot be run on the features: one that needs labels without there being
any, one without a usable radius, and one whose minimum is not positive. -/
def check (r : Request α) (bundle : FeatureBundle α) : Checked α Unit := do
  if r.evaluate && bundle.labels.isNone then throw .labelsRequired
  if (Selection.usableRadii r.radii).isEmpty then throw (.noUsableRadius r.radii)
  if r.minimum < 1 then throw (.minimumNotPositive r.minimum)

/-- Clusters the points of a database by their distances, which the session has computed. -/
def findings (r : Request α) (bundle : FeatureBundle α) (preprocessor : Preprocessor α)
    (distances : Tensor α) (db : Database α) (counter : Counter) : Checked α (Findings α) := do
  let variants ← Clustering.run distances bundle.labels (Selection.usableRadii r.radii) r.minimum
    r.evaluate
  let rows ← summarizePoints db bundle.names
  let dimensions := summarizeDimensions rows db.points.dim
  return { bundle, preprocessor, dimensions, counted := counter.value, variants }

def report (r : Request α) (f : Findings α) : Json α :=
  let candidates := f.variants.map Variant.candidate
  .obj [("data_info", .obj [("n_samples", .int f.bundle.rows),
      ("n_features", .int f.bundle.columns), ("point_names", .arr (f.bundle.names.map .str))]),
    ("preprocessor", f.preprocessor.describe),
    ("correlation_dimensions", f.dimensions.toJson),
    ("distance_computations", .int f.counted),
    ("unsupervised_selection", Selection.winner candidates),
    ("offline_eval", if r.evaluate then Selection.bestAgreement candidates else .obj []),
    ("warnings", .arr ((Selection.radiusWarnings r.radii).map .str)),
    ("algorithm_results", .arr (f.variants.map Variant.toJson))]

def settings (time : Instant) (r : Request α) : Json α :=
  .obj ([("pipeline", .str pipeline), ("script_version", .str version),
      ("timestamp_utc", .str time.text)] ++ r.settings ++
    [("force_preprocessing", .bool r.force),
      ("resolved_eps_list", .arr ((Selection.usableRadii r.radii).map .num)),
      ("min_samples", .int r.minimum), ("use_offline_label_metrics", .bool r.evaluate),
      ("warnings", .arr ((Selection.radiusWarnings r.radii).map .str))])

def run (tools : Toolbox α) (r : Request α) (files : FeatureFiles α) : RunM α m Result := do
  let bundle ← FeatureBundle.load r.featureFile files
  check r bundle
  let context ← RunContext.create pipeline r.outputRoot r.runId
  let points ← bundle.points
  let preprocessor ← r.makePreprocessor tools
  let (database, session) := Session.addDatabase {} points
  let (counter, session) := session.addCounter
  let (metric, session) := session.addMetric preprocessor r.force counter
  let (bound, seconds) ← ExceptT.lift (Host.timed fun _ => session.bind metric database)
  bound.1
  let context := context.addTiming "local_pca_seconds" seconds
  let (measured, seconds) ← ExceptT.lift (Host.timed fun _ => bound.2.distanceMatrix metric none)
  let matrix ← measured.1
  let session := measured.2
  let context := context.addTiming "distance_matrix_seconds" seconds
  let distances : Tensor α := .ofMat matrix.entries
  let distancesPath := context.features.child "locally_weighted_distances.npy"
  RunContext.perform (.write distancesPath (.data (.numbers distances)))
  let context := context.addArtifact "distances" distancesPath
  let db ← (Session.lookup session.databases database : Checked α (Database α))
  let counted ← (Session.lookup session.counters counter : Checked α Counter)
  let findings ← findings r bundle preprocessor distances db counted
  let reportPath := context.reports.child "clustering_report.json"
  RunContext.writeJson reportPath (report r findings)
  let context := context.addArtifact "report" reportPath
  let time ← ExceptT.lift Host.now
  context.finalize (settings time r)
  return ⟨context.directory, reportPath, distancesPath⟩

end LocalMetric.Cluster
