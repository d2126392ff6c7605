/-!
# Tables

A finite map that remembers the order in which its keys first came. Giving a known key a new value
keeps its place.
-/
namespace LocalMetric

/-- The value of the first entry with a key. -/
def findEntry {κ ν : Type} [BEq κ] (key : κ) : List (κ × ν) → Option ν
  | [] => none
  | (k, v) :: rest => if k == key then some v else findEntry key rest

/-- Gives a key a value: a new key is added at the end, a known one keeps its place. -/
def setEntry {κ ν : Type} [BEq κ] (key : κ) (value : ν) : List (κ × ν) → List (κ × ν)
  | [] => [(key, value)]
  | (k, v) :: rest => if k == key then (k, value) :: rest else (k, v) :: setEntry key value rest

/-- Entries given one after the other. -/
def mergeEntries {κ ν : Type} [BEq κ] (entries : List (κ × ν)) : List (κ × ν) :=
  entries.foldl (fun merged (k, v) => setEntry k v merged) []

/-- A finite map from keys to values, in the order of its keys. -/
structure Table (κ ν : Type) where
  entries : List (κ × ν) := []

namespace Table

variable {κ ν : Type} [BEq κ]

def empty : Table κ ν := {}

def find? (t : Table κ ν) (key : κ) : Option ν := findEntry key t.entries

def contains (t : Table κ ν) (key : κ) : Bool := (t.find? key).isSome

def set (t : Table κ ν) (key : κ) (value : ν) : Table κ ν := ⟨setEntry key value t.entries⟩

def erase (t : Table κ ν) (key : κ) : Table κ ν := ⟨t.entries.filter fun entry => !(entry.1 == key)⟩

def size (t : Table κ ν) : Nat := t.entries.length

def keys (t : Table κ ν) : List κ := t.entries.map (·.1)

end Table

end LocalMetric
