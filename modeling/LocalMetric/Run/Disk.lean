import LocalMetric.Json.Reader
import LocalMetric.Run.Effect
import LocalMetric.Run.Features
import LocalMetric.Table
/-!
# Disks

Directories and files as a value. A path is followed from the root, segment by segment, so `..`
leads out of a directory only if there is one; there are no symbolic links.
-/
namespace LocalMetric

/-- What is at a place: a directory with what is in it by name, or a file. -/
inductive Node (α : Type) where
  | directory (entries : List (String × Node α))
  | file (content : Content α)

/-- The directories and files below the root. -/
structure Disk (α : Type) where
  entries : List (String × Node α) := []

namespace Node

variable {α : Type}

/-- Puts something at the place that names lead to, with the directories on the way. Nothing can be
put below a file. -/
def put (new : Node α) : List String → Node α → Node α
  | [], _ => new
  | name :: place, directory entries =>
    let inner := (findEntry name entries).getD (directory [])
    directory (setEntry name (put new place inner) entries)
  | _ :: _, file content => file content

def at? : List String → Node α → Option (Node α)
  | [], node => some node
  | name :: place, directory entries => (findEntry name entries).bind (at? place)
  | _ :: _, file _ => none

mutual

/-- What is below a place, with the paths that lead there after a leading text. -/
def inside (lead : String) : Node α → List (String × Node α)
  | directory entries => insideAll lead entries
  | file _ => []

def insideAll (lead : String) : List (String × Node α) → List (String × Node α)
  | [] => []
  | (name, node) :: entries =>
    (lead ++ name, node) :: (inside (lead ++ name ++ "/") node ++ insideAll lead entries)

end

end Node

namespace Disk

variable {α : Type}

def root (d : Disk α) : Node α := .directory d.entries

def node? (d : Disk α) (place : List String) : Option (Node α) := d.root.at? place

def absolute (segments : List String) : String := (Path.mk .slash segments).text

/-- The names that lead to a place, the last one first, each with what is there. -/
abbrev Trail (α : Type) := List (String × Option (Node α))

def Trail.place (t : Trail α) : List String := (t.map (·.1)).reverse

/-- What is at the end of a trail; a trail without names ends at the root. -/
def last? (d : Disk α) : Trail α → Option (Node α)
  | [] => some d.root
  | (_, node) :: _ => node

/-- Follows one segment from the end of a trail, where a directory has to be. -/
def follow (d : Disk α) (t : Trail α) (segment : String) : Checked α (Trail α) :=
  match d.last? t with
  | none => .error (.noSuchFile (absolute t.place))
  | some (.file _) => .error (.notDirectory (absolute t.place))
  | some (.directory entries) =>
    if 255 < segment.utf8ByteSize then .error (.nameTooLong segment)
    else if segment = ".." then .ok t.tail
    else .ok ((segment, findEntry segment entries) :: t)

/-- The trail to the place that segments lead to. There need not be anything at it. -/
def locate (d : Disk α) (segments : List String) : Checked α (Trail α) :=
  segments.foldlM d.follow []

/-- The longest path that is looked up, in bytes. -/
def longestPath : Nat := 4095

/-- Refuses a path that is not even looked up: one that holds a zero or is too long. -/
def checkPath (p : Path) : Checked α Unit :=
  if p.holdsZero then .error (.malformedFile p.text)
  else if longestPath < p.text.utf8ByteSize then .error (.nameTooLong p.text)
  else .ok ()

/-- What segments lead to, if there is anything. -/
def find? (d : Disk α) (segments : List String) : Option (Node α) :=
  match d.locate segments with
  | .ok t => d.last? t
  | .error _ => none

def isDirectory (d : Disk α) (segments : List String) : Bool :=
  match d.find? segments with
  | some (.directory _) => true
  | _ => false

def put (d : Disk α) (place : List String) (node : Node α) : Disk α :=
  match Node.put node place d.root with
  | .directory entries => ⟨entries⟩
  | .file _ => d

/-- Makes one directory in a directory that is there. -/
def makeOne (d : Disk α) (segments : List String) : Checked α (Disk α) := do
  let t ← d.locate segments
  match d.last? t with
  | some _ => throw (.fileExists (absolute t.place))
  | none => return d.put t.place (.directory [])

/-- Makes one directory unless it is there. -/
def ensureOne (d : Disk α) (segments : List String) : Checked α (Disk α) :=
  match d.makeOne segments with
  | .ok d => .ok d
  | .error fault => if d.isDirectory segments then .ok d else .error fault

/-- How many missing directories can be made one inside the other. -/
def deepest : Nat := 985

/-- Makes a directory, given by its segments in reverse, after those around it that are missing, of
which there may be a limited number. -/
def ensureAll (d : Disk α) : (limit : Nat) → List String → Checked α (Disk α)
  | _, [] => .ok d
  | limit, name :: parents =>
    match d.ensureOne (name :: parents).reverse, limit with
    | .error (.noSuchFile place), 0 => .error (.tooDeep place)
    | .error (.noSuchFile _), limit + 1 => do
      (← d.ensureAll limit parents).ensureOne (name :: parents).reverse
    | outcome, _ => outcome

def write (d : Disk α) (segments : List String) (content : Content α) : Checked α (Disk α) := do
  let t ← d.locate segments
  match d.last? t with
  | some (.directory _) => throw (.isDirectory (absolute t.place))
  | _ => return d.put t.place (.file content)

/-- What an effect makes of a disk. Paths are taken from the working directory. -/
def perform (directory : Path) (d : Disk α) : Effect α → Checked α (Disk α)
  | .makeDirectory path => do
    checkPath path
    d.ensureAll deepest (directory.join path).segments.reverse
  | .write path content => do
    checkPath path
    d.write (directory.join path).segments content

def performAll (directory : Path) (d : Disk α) (effects : List (Effect α)) : Checked α (Disk α) :=
  effects.foldlM (perform directory) d

/-- Runs on a disk. What the run asks for is done in order, and the first failure ends it. -/
def run {β : Type} (directory : Path) (d : Disk α) (r : RunM α (Record α) β) :
    Checked α (β × Disk α) := do
  let (answer, effects) := record r
  let d ← d.performAll directory effects
  return (← answer, d)

/-- The directories from the root to a place, with nothing else. -/
def ofDirectory (place : List String) : Disk α := Disk.put {} place (.directory [])

def below (d : Disk α) (place : List String) : List (String × Node α) :=
  let found := ((d.node? place).map (Node.inside "")).getD []
  found.mergeSort fun a b => !decide (b.1 < a.1)

/-- What a path leads to, if there is anything. A path or a name that is too long is refused. -/
def nodeAt? (directory : Path) (d : Disk α) (p : Path) : Option (Checked α (Node α)) :=
  match (do
    checkPath p
    d.locate (directory.join p).segments : Checked α (Trail α)) with
  | .ok t => (d.last? t).map .ok
  | .error (.nameTooLong name) => some (.error (.nameTooLong name))
  | .error _ => none

/-- The array in a file. Values of several kinds are not read back. -/
def readArray (directory : Path) (d : Disk α) (p : Path) : Option (Checked α (DataArray α)) :=
  (nodeAt? directory d p).map fun node => do
    match ← node with
    | .directory _ => throw (.isDirectory p.text)
    | .file (.data (.objects _)) | .file (.text _) => throw (.malformedFile p.text)
    | .file (.data values) => return values

def readJson (directory : Path) (d : Disk Float) (p : Path) : Option (Checked Float (Json Float)) :=
  (nodeAt? directory d p).map fun node => do
    match ← node with
    | .directory _ => throw (.isDirectory p.text)
    | .file (.data _) => throw (.malformedFile p.text)
    | .file (.text s) =>
      match Json.read? s with
      | some v => return v
      | none => throw (.malformedFile p.text)

def featureFiles (directory : Path) (d : Disk Float) (p : Path) : FeatureFiles Float where
  features := readArray directory d p
  labels := readArray directory d (FeatureBundle.labelsPath p)
  names := readJson directory d (FeatureBundle.namesPath p)

end Disk

end LocalMetric
