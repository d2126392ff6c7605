import LocalMetric.Fault
/-!
# Paths

A path is its root and the names that lead from it. Writing a path down drops empty and `.`
segments; resolving it against a working directory also removes `..` segments, so no symbolic links
are followed.
-/
namespace LocalMetric

/-- Where a path starts: at the directory it is taken from, or at a root, which may be written with
two slashes. -/
inductive Root where
  | relative
  | slash
  | doubleSlash
  deriving Repr, DecidableEq

structure Path where
  root : Root
  segments : List String
  deriving Repr, DecidableEq

namespace Path

/-- The parts of a text between its slashes. -/
def splitSlashes : List Char → List (List Char)
  | [] => [[]]
  | c :: cs =>
    if c = '/' then [] :: splitSlashes cs
    else match splitSlashes cs with
      | [] => [[c]]
      | part :: parts => (c :: part) :: parts

/-- The parts of a text between its slashes, without empty and `.` parts. -/
def splitSegments (s : String) : List String :=
  ((splitSlashes s.toList).map String.ofList).filter fun segment => segment ≠ "" ∧ segment ≠ "."

/-- Exactly two slashes in front are kept apart from one; more count as one. -/
def rootOf : List Char → Root
  | '/' :: '/' :: '/' :: _ => .slash
  | '/' :: '/' :: _ => .doubleSlash
  | '/' :: _ => .slash
  | _ => .relative

def ofText (s : String) : Path := ⟨rootOf s.toList, splitSegments s⟩

/-- Writes a path. An empty relative path is a point. -/
def text (p : Path) : String :=
  let names := "/".intercalate p.segments
  match p.root with
  | .relative => if p.segments.isEmpty then "." else names
  | .slash => "/" ++ names
  | .doubleSlash => "//" ++ names

/-- Whether a text holds a zero character, which no name does. -/
def zeroIn (s : String) : Bool := s.toList.contains '\x00'

/-- Whether a segment of a path holds a zero character. -/
def holdsZero (p : Path) : Bool := p.segments.any zeroIn

def isAbsolute (p : Path) : Bool := p.root ≠ .relative

def join (p q : Path) : Path := if q.isAbsolute then q else ⟨p.root, p.segments ++ q.segments⟩

def child (p : Path) (name : String) : Path := p.join (ofText name)

/-- The path without its last segment. -/
def parent (p : Path) : Path := ⟨p.root, p.segments.dropLast⟩

/-- Follows `..` segments upwards, staying at the root. The result is in reverse. -/
def climb (visited : List String) (segment : String) : List String :=
  if segment = ".." then visited.tail else segment :: visited

/-- The absolute path without `..` segments that a path stands for in a working directory. -/
def resolve (directory p : Path) : Path :=
  ⟨.slash, ((directory.join p).segments.foldl climb []).reverse⟩

/-- Replaces a leading `~` or `~name` by the home directory of the user. -/
def expandHome {α : Type} (home : String → Option Path) (p : Path) : Checked α Path :=
  match p.root, p.segments with
  | .relative, first :: rest =>
    match first.toList with
    | '~' :: user =>
      match home (String.ofList user) with
      | some directory => .ok ⟨directory.root, directory.segments ++ rest⟩
      | none => .error (if zeroIn first then .malformedFile first else .homeUnknown)
    | _ => .ok p
  | _, _ => .ok p

/-- Where a caller's runs go: the resolved path, unless that is the working directory itself or the
root of the file system, where nothing is ever written; then `runs/<caller>`. A path that holds a
zero character is refused. -/
def outputRoot {α : Type} (home : String → Option Path) (directory p : Path) (caller : String) :
    Checked α Path := do
  let expanded ← p.expandHome home
  if expanded.holdsZero then throw (.malformedFile expanded.text)
  let resolved := directory.resolve expanded
  if resolved = directory.resolve ⟨.relative, []⟩ ∨ resolved.segments = [] then
    let own := (ofText "runs").child caller
    if own.holdsZero then throw (.malformedFile own.text)
    return directory.resolve own
  return resolved

end Path

end LocalMetric
