import LocalMetric.Registry
import LocalMetric.Report.Points
import LocalMetric.Run.Context
import LocalMetric.Run.Features
/-!
# What runs are asked for

Both kinds of runs prepare the points of a feature file with a registered preprocessor.
-/
namespace LocalMetric

def Parameters.toJson {α : Type} (p : Parameters α) : Json α :=
  .obj ((p.neighbors.map fun k => ("k", k)).toList ++
    (p.radius.map fun radius => ("epsilon", radius)).toList)

structure RunRequest (α : Type) where
  featureFile : Path
  outputRoot : Path
  /-- The name of the run; without one it is named after the time. -/
  runId : Option String
  preprocessor : String
  parameters : Parameters α
  config : Config α
  workers : Json α

/-- What the preprocessors of runs are made with. -/
structure Toolbox (α : Type) where
  solver : Solver α
  registry : Registry α

namespace RunRequest

variable {α : Type} [Scalar α]

/-- Makes the preprocessor. The configuration and the workers may not be parameters as well. -/
def makePreprocessor (r : RunRequest α) (tools : Toolbox α) : Checked α (Preprocessor α) :=
  if r.parameters.config.isSome || r.parameters.workers.isSome then .error .wrongParameters
  else tools.registry.create tools.solver r.preprocessor
    { r.parameters with config := some (some r.config), workers := some r.workers }

/-- The settings that every run writes down. -/
def settings (r : RunRequest α) : List (String × Json α) :=
  [("feature_file", .str r.featureFile.text), ("preprocessor_name", .str r.preprocessor),
    ("preprocessor_params", r.parameters.toJson), ("local_pca", r.config.toJson),
    ("n_jobs", r.workers)]

end RunRequest

def FeatureBundle.points {α : Type} [Scalar α] [Numeral α] (b : FeatureBundle α) :
    Checked α (PointSet α) := do
  PointSet.ofTensor (← b.features.toNumbers) none

end LocalMetric
