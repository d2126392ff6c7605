import LocalMetric.Cli.Command
import LocalMetric.Run.ArrayFile
import LocalMetric.Json.Reader
import Std.Time.Format
/-!
# The program

Reads the command line, carries out the command on the file system, and shows what it answers.
-/
namespace LocalMetric.Main

def writeContent (path : String) : Content Float → IO Unit
  | .text s => IO.FS.writeFile path s
  | .data (.numbers values) => IO.FS.writeBinFile path (ArrayFile.encode values)
  | .data values => IO.FS.writeFile path values.toJson.text

def currentTime : IO Instant := do
  let t ← Std.Time.Timestamp.now
  return ⟨(t.toNanosecondsSinceUnixEpoch.val / 1000).toNat⟩

instance : Host Float IO where
  perform
    | .makeDirectory path => IO.FS.createDirAll path.text
    | .write path content => writeContent path.text content
  timed f := do
    let start ← IO.monoNanosNow
    let value ← IO.lazyPure f
    let stop ← IO.monoNanosNow
    return (value, (stop - start).toFloat / 1e9)
  now := currentTime

/-- Reads a file if it is there. -/
def readIfThere {β : Type} (path : Path) (decode : ByteArray → Option β) :
    IO (Option (Checked Float β)) := do
  let name : String := path.text
  try
    let bytes ← IO.FS.readBinFile name
    return some (match decode bytes with
      | some value => .ok value
      | none => .error (.malformedFile name))
  catch
    | .noFileOrDirectory .. => return none
    | _ => return some (.error (.malformedFile name))

def readFeatures (path : Path) : IO (FeatureFiles Float) := do
  return {
    features := ← readIfThere path ArrayFile.decode?
    labels := ← readIfThere (FeatureBundle.labelsPath path) ArrayFile.decode?
    names := ← readIfThere (FeatureBundle.namesPath path) fun bytes =>
      (String.fromUTF8? bytes).bind Json.read? }

def surroundings : IO Cli.Surroundings := do
  let directory ← IO.currentDir
  let home ← IO.getEnv "HOME"
  return {
    directory := .ofText directory.toString
    home := fun user => if user = "" then home.map Path.ofText else none }

def execute (command : Cli.Command) : IO UInt32 := do
  let tools : Toolbox Float := ⟨.rotations, .standard⟩
  let files ← match command.featureFile? with
    | some path => readFeatures path
    | none => pure {}
  match ← (command.execute tools (← surroundings) files : RunM Float IO (List String)) with
  | .ok lines =>
    for line in lines do
      IO.println line
    return 0
  | .error fault =>
    IO.eprintln fault.message
    return 1

end LocalMetric.Main

def main (args : List String) : IO UInt32 := do
  match LocalMetric.Cli.read (LocalMetric.Registry.standard (α := Float)).names args with
  | .ok invocation => LocalMetric.Main.execute invocation.command
  | .error .helpWanted =>
    IO.println LocalMetric.Cli.usage
    return 0
  | .error .misuse =>
    IO.eprintln LocalMetric.Cli.usage
    return 2
