import LocalMetric.Fault
import LocalMetric.Table
/-!
# Associations

Values stored for points, by kind. Each kind has a state of its own, which tells whether its values
are complete. Clearing a kind forgets its values and its state; no operation touches another kind.
-/
namespace LocalMetric

/-- How far the values of a kind are. -/
inductive Readiness where
  | unset
  | computing
  | ready
  deriving Repr, DecidableEq

def Readiness.name : Readiness → String
  | .unset => "unset"
  | .computing => "computing"
  | .ready => "ready"

def Readiness.ofName {α : Type} (name : String) : Checked α Readiness :=
  match [Readiness.unset, .computing, .ready].find? (·.name == name) with
  | some state => .ok state
  | none => .error (.unknownState name)

/-- A kind of association, known by its name. -/
structure Kind where
  name : String
  deriving Repr, DecidableEq

def Kind.localPca : Kind := ⟨"local_pca"⟩

/-- How callers refer to a kind: as the one of local analyses, or by any name. -/
inductive Kind.Label where
  | localPca
  | named (name : String)
  deriving Repr, DecidableEq

def Kind.Label.kind : Kind.Label → Kind
  | .localPca => .localPca
  | .named name => ⟨name⟩

/-- Values of type `V` for points, by kind, and the state of each kind. -/
structure Associations (V : Type) where
  values : Table Kind (Table Int V) := {}
  states : Table Kind Readiness := {}

namespace Associations

variable {α V : Type}

def empty : Associations V := {}

def state (s : Associations V) (kind : Kind) : Readiness := (s.states.find? kind).getD .unset

def setState (s : Associations V) (kind : Kind) (state : Readiness) : Associations V :=
  { s with states := s.states.set kind state }

def isReady (s : Associations V) (kind : Kind) : Bool := s.state kind = .ready

def ofKind (s : Associations V) (kind : Kind) : Table Int V := (s.values.find? kind).getD {}

def set (s : Associations V) (kind : Kind) (id : Int) (value : V) : Associations V :=
  { s with values := s.values.set kind ((s.ofKind kind).set id value) }

def setAll (s : Associations V) (kind : Kind) (values : List (Int × V)) : Associations V :=
  values.foldl (fun s (id, value) => s.set kind id value) s

def find? (s : Associations V) (kind : Kind) (id : Int) : Option V := (s.ofKind kind).find? id

def has (s : Associations V) (kind : Kind) (id : Int) : Bool := (s.find? kind id).isSome

def get (s : Associations V) (kind : Kind) (id : Int) : Checked α V :=
  match s.find? kind id with
  | some value => .ok value
  | none => .error (.missingAssociation kind.name id)

/-- Those of the given points for which no value is stored. -/
def missing (s : Associations V) (kind : Kind) (ids : List Int) : List Int :=
  ids.filter fun id => !s.has kind id

def count (s : Associations V) (kind : Kind) : Nat := (s.ofKind kind).size

def clear (s : Associations V) (kind : Kind) : Associations V :=
  { values := s.values.erase kind, states := s.states.erase kind }

end Associations

end LocalMetric
