import LocalMetric.Fault
import LocalMetric.Text.Number
/-!
# Conversions of JSON values

What a value counts as where a number, an integer or a truth value is needed. A value of another
kind is refused, and so is an integer too large for a number.
-/
namespace LocalMetric.Json

variable {α : Type}

/-- The words that stand for numbers without digits. -/
def numberWords [Scalar α] : List (String × α) := [("nan", 0 / 0), ("inf", 1 / 0), ("-inf", -1 / 0)]

/-- Puts numbers in the places of the words that stand for them. -/
def withNumbers [Scalar α] : Json α → Json α :=
  substitute .num fun s =>
    match findEntry s numberWords with
    | some x => .num x
    | none => .str s

def stated {β : Type} (value : Option β) : Checked α β :=
  match value with
  | some x => .ok x
  | none => .error .wrongParameters

/-- Whether a value counts as true: numbers other than zero do, and what is not empty. -/
def isTrue [Scalar α] : Json α → Bool
  | .null => false
  | .bool b => b
  | .int n => n ≠ 0
  | .num x => !(x == 0)
  | .str s => s ≠ ""
  | .arr items => !items.isEmpty
  | .obj fields => !fields.isEmpty

/-- Whether a value is a number equal to zero. -/
def isZero [Scalar α] : Json α → Bool
  | .bool b => !b
  | .int n => n = 0
  | .num x => x == 0
  | _ => false

def number [Scalar α] : Json α → Checked α α
  | .int n =>
    let x : α := Scalar.ofInt n
    if Scalar.isFinite x then .ok x else .error .numberTooLarge
  | v => stated v.number?

variable [Scalar α] [Numeral α]

/-- The number that a value is or that its text writes. -/
def readNumber : Json α → Checked α α
  | .str s =>
    match Numeral.ofText? s with
    | some x => .ok x
    | none => .error .notNumber
  | v => v.number

/-- The integer that is left of a number when its fraction is cut off. -/
def truncated (x : α) : Checked α Int :=
  match Numeral.truncated? x with
  | some n => .ok n
  | none => .error (if x == x then .numberTooLarge else .notNumber)

/-- The integer that a value is, that is left of its fraction, or that its text writes. -/
def readInteger : Json α → Checked α Int
  | .num x => truncated x
  | .str s =>
    match Text.integer? s with
    | some n => .ok n
    | none => .error .notNumber
  | v => stated v.integer?

/-- The integer that a value is equal to, if there is one. -/
def equalInteger? : Json α → Option Int
  | .num x => Numeral.integer? x
  | v => v.integer?

end LocalMetric.Json
