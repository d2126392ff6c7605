import LocalMetric.Preprocessor
/-!
# Registered preprocessors

Preprocessors are made by name. A name stands for a factory, which accepts certain parameters; a
preset is a factory with parameters filled in, which the caller's own override.
-/
namespace LocalMetric

structure Parameters (α : Type) where
  /-- The number of neighbors, which may be null. -/
  neighbors : Option (Json α) := none
  radius : Option (Json α) := none
  config : Option (Option (Config α)) := none
  workers : Option (Json α) := none
  /-- Names that no factory knows. -/
  others : List String := []

/-- The caller's parameters, and those of a preset where the caller states none. -/
def Parameters.over {α : Type} (caller preset : Parameters α) : Parameters α where
  neighbors := caller.neighbors <|> preset.neighbors
  radius := caller.radius <|> preset.radius
  config := caller.config <|> preset.config
  workers := caller.workers <|> preset.workers
  others := caller.others ++ preset.others

/-- Makes preprocessors from parameters. -/
inductive Factory (α : Type) where
  | nearest
  | within
  | preset (base : Factory α) (parameters : Parameters α)

/-- States one parameter. A radius that is an integer counts as a number from then on. -/
def Parameters.setField {α : Type} [Scalar α] [Numeral α] (p : Parameters α) (name : String)
    (value : Json α) : Checked α (Parameters α) :=
  match name, value with
  | "k", _ => .ok { p with neighbors := some value }
  | "epsilon", .int _ => do return { p with radius := some (.num (← value.number)) }
  | "epsilon", _ => .ok { p with radius := some value }
  | "config", .null => .ok { p with config := some none }
  | "config", _ => do return { p with config := some (some (← Config.ofJson value)) }
  | "n_jobs", _ => .ok { p with workers := some value }
  | _, _ => .ok { p with others := name :: p.others }

def Parameters.ofJson {α : Type} [Scalar α] [Numeral α] : Json α → Checked α (Parameters α)
  | .null => .ok {}
  | .obj fields => fields.foldlM (fun p (name, value) => p.setField name value) {}
  | _ => .error .wrongParameters

/-- The factories that can be asked for by name, each with a description. -/
structure Registry (α : Type) where
  factories : Table String (Factory α × String)

variable {α : Type} [Scalar α]

/-- The stated number of neighbors, none for null. -/
def Parameters.neighborCount (p : Parameters α) : Checked α (Option (Quantity α)) :=
  match p.neighbors with
  | none | some .null => .ok none
  | some k => some <$> Json.stated (Quantity.ofJson? k)

/-- Makes a preprocessor. Parameters that a factory does not know or that it needs and does not get
are refused before their values are looked at. -/
def Factory.make (solver : Solver α) : Factory α → Parameters α → Checked α (Preprocessor α)
  | .nearest, p =>
    if p.radius.isSome || !p.others.isEmpty then .error .wrongParameters
    else do
      let provider ← Provider.nearest (← p.neighborCount)
      Preprocessor.make solver provider (p.config.getD none) (p.workers.getD (.int 1)) "knn"
  | .within, p =>
    match p.radius with
    | none => .error .wrongParameters
    | some radius =>
      if p.neighbors.isSome || !p.others.isEmpty then .error .wrongParameters
      else do
        let provider ← Provider.within (← radius.number)
        Preprocessor.make solver provider (p.config.getD none) (p.workers.getD (.int 1)) "range"
  | .preset base settings, p => base.make solver (p.over settings)

namespace Registry

def defaultName : String := "knn"

/-- The registry with the two standard factories. -/
def standard : Registry α where
  factories := ⟨[
    ("knn", .nearest,
      "Local PCA over the k nearest neighbors of each point (k defaults to 3 x dimensionality)"),
    ("range", .within, "Local PCA over all points within distance epsilon of each point")]⟩

/-- Registers a factory under a name, in place of any earlier one. -/
def register (r : Registry α) (name : String) (factory : Factory α) (description : String) :
    Registry α :=
  ⟨r.factories.set name (factory, description)⟩

def names (r : Registry α) : List String :=
  r.factories.keys.mergeSort fun a b => !decide (b < a)

def factory (r : Registry α) (name : String) : Checked α (Factory α) :=
  match r.factories.find? name with
  | some (factory, _) => .ok factory
  | none => .error (.missingFactory name)

/-- The names in ascending order, each with its description. -/
def describe (r : Registry α) : List (String × String) :=
  r.names.map fun name => (name, ((r.factories.find? name).map (·.2)).getD "")

def create (r : Registry α) (solver : Solver α) (name : String) (parameters : Parameters α) :
    Checked α (Preprocessor α) :=
  match r.factories.find? name with
  | some (factory, _) => factory.make solver parameters
  | none => .error (.unknownPreprocessor name r.names)

end Registry

end LocalMetric
