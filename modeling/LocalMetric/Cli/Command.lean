import LocalMetric.Cli.Grammar
import LocalMetric.Run.Cluster
import LocalMetric.Run.Preprocess
import LocalMetric.Text.Number
/-!
# The commands

The command line of the program: what its commands are, and what they do. A command answers the
lines that it shows.
-/
namespace LocalMetric.Cli

structure RunOptions where
  featureFile : Path
  outputRoot : Path
  runId : Option String
  preprocessor : String
  neighbors : Option Int
  radius : Option Float
  threshold : Float
  strong : Float
  weak : Float
  center : String
  workers : Int

structure ClusterOptions where
  force : Bool
  radii : List Float
  minimum : Int
  evaluate : Bool

inductive Command where
  | cluster (run : RunOptions) (options : ClusterOptions)
  | preprocess (run : RunOptions)
  | listPreprocessors

/-- A command and how much is logged meanwhile. -/
structure Invocation where
  logLevel : String
  command : Command

def RunOptions.fields (o : RunOptions) : List (String × Json Float) :=
  [("feature_file", .str o.featureFile.text), ("output_root", .str o.outputRoot.text),
    ("run_id", .ofString? o.runId), ("preprocessor", .str o.preprocessor),
    ("k", .ofInt? o.neighbors), ("epsilon", .ofNum? o.radius),
    ("variance_threshold", .num o.threshold),
    ("strong_weight", .num o.strong), ("weak_weight", .num o.weak), ("center", .str o.center),
    ("n_jobs", .int o.workers)]

def ClusterOptions.fields (o : ClusterOptions) : List (String × Json Float) :=
  [("force_preprocessing", .bool o.force), ("eps_list", .arr (o.radii.map .num)),
    ("min_samples", .int o.minimum), ("use_offline_label_metrics", .bool o.evaluate)]

/-- Everything that a command line says, under the names of its options and of the choices between
commands. -/
def Invocation.toJson (i : Invocation) : Json Float :=
  .obj (("log_level", .str i.logLevel) :: match i.command with
    | .cluster run options => [("command_group", .str "run"), ("run_command", .str "clustering")] ++
        run.fields ++ options.fields
    | .preprocess run => ("command_group", .str "preprocess") :: run.fields
    | .listPreprocessors =>
      [("command_group", .str "preprocessors"), ("preprocessors_command", .str "list")])

/-! ## Reading -/

def logLevels : List String := ["DEBUG", "INFO", "WARNING", "ERROR"]

def runSpecs (preprocessors : List String) : List OptionSpec := [
  { name := "--feature-file", required := true },
  { name := "--output-root" },
  { name := "--run-id" },
  { name := "--preprocessor", accepts := preprocessors.contains },
  { name := "--k", accepts := fun s => (Text.integer? s).isSome },
  { name := "--epsilon", accepts := fun s => (Text.number? s).isSome },
  { name := "--variance-threshold", accepts := fun s => (Text.number? s).isSome },
  { name := "--strong-weight", accepts := fun s => (Text.number? s).isSome },
  { name := "--weak-weight", accepts := fun s => (Text.number? s).isSome },
  { name := "--center", accepts := Fault.centerNames.contains },
  { name := "--n-jobs", accepts := fun s => (Text.integer? s).isSome }]

def clusterSpecs : List OptionSpec := [
  { name := "--force-preprocessing", arity := .flag },
  { name := "--eps-list", arity := .oneOrMore, accepts := fun s => (Text.number? s).isSome },
  { name := "--min-samples", accepts := fun s => (Text.integer? s).isSome },
  { name := "--use-offline-label-metrics", arity := .flag }]

def grammar (preprocessors : List String) : Grammar :=
  .group [{ name := "--log-level", accepts := logLevels.contains }] [
    ("run", .group [] [("clustering", .command (runSpecs preprocessors ++ clusterSpecs))]),
    ("preprocess", .command (runSpecs preprocessors)),
    ("preprocessors", .group [] [("list", .command [])])]

def usage : String :=
  "usage: [--log-level LEVEL] run clustering | preprocess | preprocessors list [options]"

namespace Parsed

def values? (p : Parsed) (name : String) : Option (List String) :=
  findEntry name p.settings.reverse

def value? (p : Parsed) (name : String) : Option String := (p.values? name).bind List.head?

def integer? (p : Parsed) (name : String) : Option Int := (p.value? name).bind Text.integer?

def number? (p : Parsed) (name : String) : Option Float := (p.value? name).bind Text.number?

def runOptions (p : Parsed) : RunOptions where
  featureFile := .ofText ((p.value? "--feature-file").getD "")
  outputRoot := .ofText ((p.value? "--output-root").getD "runs")
  runId := p.value? "--run-id"
  preprocessor := (p.value? "--preprocessor").getD Registry.defaultName
  neighbors := p.integer? "--k"
  radius := p.number? "--epsilon"
  threshold := (p.number? "--variance-threshold").getD 0.85
  strong := (p.number? "--strong-weight").getD 1
  weak := (p.number? "--weak-weight").getD 100
  center := (p.value? "--center").getD Center.centroid.name
  workers := (p.integer? "--n-jobs").getD 1

def clusterOptions (p : Parsed) : ClusterOptions where
  force := (p.values? "--force-preprocessing").isSome
  radii := ((p.values? "--eps-list").map (·.filterMap Text.number?)).getD [0.5, 1, 2, 4]
  minimum := (p.integer? "--min-samples").getD 5
  evaluate := (p.values? "--use-offline-label-metrics").isSome

def command (p : Parsed) : Command :=
  match p.commands with
  | "run" :: _ => .cluster p.runOptions p.clusterOptions
  | "preprocess" :: _ => .preprocess p.runOptions
  | _ => .listPreprocessors

end Parsed

def read (preprocessors args : List String) : Except Refusal Invocation := do
  let p ← parseAll (grammar preprocessors) args
  return { logLevel := (p.value? "--log-level").getD "WARNING", command := p.command }

/-! ## Doing -/

/-- Where the program runs. -/
structure Surroundings where
  /-- The working directory. -/
  directory : Path
  /-- The home directories of users; the empty name stands for the user who runs the program. -/
  home : String → Option Path

namespace RunOptions

def parameters (o : RunOptions) : Checked Float (Parameters Float) :=
  if o.preprocessor = "range" then
    match o.radius with
    | some radius => .ok { radius := some (.num radius) }
    | none => .error .radiusRequired
  else if o.preprocessor = "knn" then .ok { neighbors := some (.ofInt? o.neighbors) }
  else .ok {}

def config (o : RunOptions) : Checked Float (Config Float) :=
  Config.make { threshold := o.threshold, strong := o.strong, weak := o.weak, center := o.center }

/-- The run that is asked for. Its files go where the caller's runs go. -/
def request (o : RunOptions) (place : Surroundings) (caller : String) :
    Checked Float (RunRequest Float) := do
  let outputRoot ← Path.outputRoot place.home place.directory o.outputRoot caller
  let parameters ← o.parameters
  let config ← o.config
  return { o with outputRoot, parameters, config, workers := .int o.workers }

end RunOptions

def Command.featureFile? : Command → Option Path
  | cluster run _ => some run.featureFile
  | preprocess run => some run.featureFile
  | listPreprocessors => none

/-- The registered preprocessors, with a line each for name and description. -/
def preprocessorLines (r : Registry Float) : List String :=
  r.describe.flatMap fun (name, description) =>
    [if name = Registry.defaultName then name ++ " (default)" else name, "    " ++ description]

variable {m : Type → Type} [Monad m] [Host Float m]

/-- Carries out a command, given the feature file it reads, and answers the lines it shows. -/
def Command.execute (tools : Toolbox Float) (place : Surroundings) (files : FeatureFiles Float) :
    Command → RunM Float m (List String)
  | cluster run options => do
    let request ← run.request place "run_clustering"
    let result ← Cluster.run tools { request, options with } files
    return ["Run complete", "Run dir: " ++ result.directory.text, "Report: " ++ result.report.text,
      "Distances: " ++ result.distances.text]
  | preprocess run => do
    let request ← run.request place "preprocess"
    let result ← Preprocess.run tools request files
    return ["Local PCA preprocessing complete", "Run dir: " ++ result.directory.text,
      "Report: " ++ result.report.text, "Point table: " ++ result.table.text]
  | listPreprocessors => return preprocessorLines tools.registry

end LocalMetric.Cli
