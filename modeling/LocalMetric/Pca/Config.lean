import LocalMetric.Json.Conversion
/-!
# Settings of the local analysis

A configuration is made by `Config.make` only from values that pass its checks. An incomparable
number fails the first check alone, since it is neither above zero nor below anything.
-/
namespace LocalMetric

/-- What a scatter matrix measures deviations from. -/
inductive Center where
  | centroid
  | anchor
  deriving Repr, DecidableEq

def Center.name : Center → String
  | .centroid => "centroid"
  | .anchor => "anchor"

def Center.ofName {α : Type} (name : String) : Checked α Center :=
  if name = Center.centroid.name then .ok .centroid
  else if name = Center.anchor.name then .ok .anchor
  else .error (.unknownCenter name)

/-- The settings of a local analysis. -/
structure Config (α : Type) where
  /-- The share of the variance that the strong directions have to explain. -/
  threshold : α
  /-- The weight of a displacement along a strong direction. -/
  strong : α
  /-- The weight of a displacement along a weak direction. -/
  weak : α
  /-- What deviations are measured from. -/
  center : Center
  /-- The share of the largest eigenvalue up to which an eigenvalue counts as zero. -/
  tolerance : α

/-- The values that a configuration is asked for, before they are checked. -/
structure Config.Request (α : Type) [Scalar α] where
  threshold : α := 0.85
  strong : α := 1
  weak : α := 100.0
  center : String := "centroid"
  tolerance : α := 1e-10

namespace Config

variable {α : Type} [Scalar α]

/-- Changes one value of a request. A center that is not given by its name is known by its text. -/
def Request.setField [Numeral α] (r : Request α) (name : String) (value : Json α) :
    Checked α (Request α) :=
  match name with
  | "variance_threshold" => do return { r with threshold := ← value.number }
  | "strong_weight" => do return { r with strong := ← value.number }
  | "weak_weight" => do return { r with weak := ← value.number }
  | "center" => .ok { r with center := value.display }
  | "eigen_tolerance" => do return { r with tolerance := ← value.number }
  | _ => .error .wrongParameters

/-- Reads the values that a configuration is asked for. Those that are not stated are the standard
ones. -/
def Request.ofJson [Numeral α] : Json α → Checked α (Request α)
  | .null => .ok {}
  | .obj fields => fields.foldlM (fun r (name, value) => r.setField name value) {}
  | _ => .error .wrongParameters

/-- Checks the values of a configuration, in this order. -/
def make (r : Request α) : Checked α (Config α) :=
  if ¬(0 < r.threshold ∧ r.threshold ≤ 1) then .error (.thresholdOutside r.threshold)
  else if r.strong ≤ 0 then .error (.strongWeightNotPositive r.strong)
  else if r.weak < r.strong then .error (.weightsReversed r.weak r.strong)
  else do
    let center ← Center.ofName r.center
    if r.tolerance < 0 then .error (.negativeTolerance r.tolerance)
    else .ok ⟨r.threshold, r.strong, r.weak, center, r.tolerance⟩

def ofJson [Numeral α] (v : Json α) : Checked α (Config α) := do make (← Request.ofJson v)

/-- The configuration of callers that state none. -/
def standard : Checked α (Config α) := make {}

def toJson (c : Config α) : Json α :=
  .obj [("variance_threshold", .num c.threshold), ("strong_weight", .num c.strong),
    ("weak_weight", .num c.weak), ("center", .str c.center.name),
    ("eigen_tolerance", .num c.tolerance)]

end Config

end LocalMetric
