import LocalMetric.Linear.DataArray
import LocalMetric.Path
import LocalMetric.Run.Clock
/-!
# What a run does to its surroundings

A run makes directories and writes files, measures how long its steps take and asks what time it is.
It does so through a host. The recording host does nothing but list what was asked for, in order, so
that a run can be looked at as a value.
-/
namespace LocalMetric

inductive Content (α : Type) where
  | text (value : String)
  | data (values : DataArray α)

/-- What a run asks for. -/
inductive Effect (α : Type) where
  /-- Makes a directory and those around it that are missing. -/
  | makeDirectory (path : Path)
  /-- Writes a file, in place of any earlier one. -/
  | write (path : Path) (content : Content α)

/-- A place where runs happen. -/
class Host (α : outParam Type) (m : Type → Type) where
  /-- Does what a run asks for. -/
  perform : Effect α → m Unit
  /-- Computes a value and tells how many seconds that took. -/
  timed : {β : Type} → (Unit → β) → m (β × α)
  /-- What time it is. -/
  now : m Instant

/-- A run on a host, which may be refused. -/
abbrev RunM (α : Type) (m : Type → Type) := ExceptT (Fault α) m

/-- Runs that only record what they ask for. -/
abbrev Record (α : Type) := StateM (List (Effect α))

/-- Recording takes no time and happens at the start of time. -/
instance {α : Type} [Scalar α] : Host α (Record α) where
  perform effect := modify (· ++ [effect])
  timed f := pure (f (), 0)
  now := pure ⟨0⟩

/-- What a run answers, and what it asked for until it ended. -/
def record {α β : Type} (run : RunM α (Record α) β) : Checked α β × List (Effect α) :=
  StateT.run (ExceptT.run run) []

end LocalMetric
