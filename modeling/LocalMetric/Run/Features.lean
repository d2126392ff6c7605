import LocalMetric.Json.Basic
import LocalMetric.Linear.DataArray
import LocalMetric.Path
/-!
# Features

A feature file holds one row of numbers for each point. Files beside it may give the points true
labels and names.
-/
namespace LocalMetric

/-- A feature file and the files beside it. Each of them may be missing, or be there but not
readable. -/
structure FeatureFiles (α : Type) where
  features : Option (Checked α (DataArray α)) := none
  labels : Option (Checked α (DataArray α)) := none
  names : Option (Checked α (Json α)) := none

/-- The features of points, one row each, with a name for every point. -/
structure FeatureBundle (α : Type) where
  rows : Nat
  columns : Nat
  features : DataArray α
  features_shape : features.shape = [rows, columns]
  labels : Option (DataArray α)
  names : List String
  names_length : names.length = rows

namespace FeatureBundle

variable {α : Type}

def labelsPath (featureFile : Path) : Path := featureFile.parent.child "labels.npy"

def namesPath (featureFile : Path) : Path := featureFile.parent.child "point_names.json"

def standardName (row : Nat) : String := s!"point_{row}"

/-- The names that a value lists: the items of a list, the names of fields, or the characters of a
string. -/
def listedNames [Numeral α] : Json α → Checked α (List String)
  | .arr items => .ok (items.map Json.display)
  | .obj fields => .ok (fields.map (·.1))
  | .str s => .ok (s.toList.map fun c => String.ofList [c])
  | _ => .error .namesNotListed

/-- The labels, one for each row along the first axis. -/
def loadLabels (rows : Nat) : Option (Checked α (DataArray α)) → Checked α (Option (DataArray α))
  | none => .ok none
  | some file => do
    let labels ← file
    match labels.shape with
    | [] => throw .missingAxis
    | n :: _ => if n = rows then return some labels else throw (.labelCount n rows)

def loadNames [Numeral α] (rows : Nat) :
    Option (Checked α (Json α)) → Checked α { names : List String // names.length = rows }
  | none => .ok ⟨(List.range rows).map standardName, by simp⟩
  | some file => do
    let names ← listedNames (← file)
    if h : names.length = rows then return ⟨names, h⟩ else throw (.nameCount names.length rows)

def load [Numeral α] (featureFile : Path) (files : FeatureFiles α) : Checked α (FeatureBundle α) :=
  match files.features with
  | none => .error (.featureFileMissing featureFile.text)
  | some file => do
    let features ← file
    match h : features.shape with
    | [rows, columns] =>
      let labels ← loadLabels rows files.labels
      let names ← loadNames rows files.names
      return ⟨rows, columns, features, h, labels, names.1, names.2⟩
    | shape => throw (.featureRank shape)

end FeatureBundle

end LocalMetric
