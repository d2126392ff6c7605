import LocalMetric.Json.Basic
/-!
# Stated counts

A caller may state a count by any number. Most are integers; a truth value counts as zero or one,
and a number that need not be whole can be compared with a count but not used as one.
-/
namespace LocalMetric

/-- A count as it is stated. -/
inductive Quantity (α : Type) where
  | int (value : Int)
  | flag (value : Bool)
  | num (value : α)
  deriving Repr

namespace Quantity

variable {α : Type}

def ofJson? : Json α → Option (Quantity α)
  | .int n => some (int n)
  | .bool b => some (flag b)
  | .num x => some (num x)
  | _ => none

def toJson : Quantity α → Json α
  | int n => .int n
  | flag b => .bool b
  | num x => .num x

variable [Scalar α]

/-- Whether a count is zero or less. An incomparable number is not. -/
def isNonPositive : Quantity α → Bool
  | int n => decide (n ≤ 0)
  | flag b => !b
  | num x => decide (x ≤ 0)

/-- A count, but no more than `n`. -/
def capped (n : Nat) : Quantity α → Quantity α
  | int k => int (min k n)
  | flag b => if b && n = 0 then int 0 else flag b
  | num x => if (n : α) < x then int n else num x

/-- The integer that a count is, unless it is stated by a number of another kind. -/
def whole? : Quantity α → Option Int
  | int n => some n
  | flag b => some (if b then 1 else 0)
  | num _ => none

end Quantity

end LocalMetric
