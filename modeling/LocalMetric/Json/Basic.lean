import LocalMetric.Scalar
import LocalMetric.Table
import LocalMetric.Text.Quoted
/-!
# JSON values

The values that reports hold. Integers are kept apart from other numbers, and the fields of an
object keep the order in which their names first came.
-/
namespace LocalMetric

inductive Json (α : Type) where
  | null
  | bool (value : Bool)
  | int (value : Int)
  | num (value : α)
  | str (value : String)
  | arr (items : List (Json α))
  | obj (fields : List (String × Json α))
  deriving Inhabited

namespace Json

variable {α : Type}

def get? (name : String) : Json α → Option (Json α)
  | .obj fields => findEntry name fields
  | _ => none

/-- The number that a value is; integers are numbers, and truth values count as zero and one. -/
def number? [Scalar α] : Json α → Option α
  | .num x => some x
  | .int n => some (Scalar.ofInt n)
  | .bool b => some (if b then 1 else 0)
  | _ => none

/-- The integer that a value is; truth values count as zero and one. -/
def integer? : Json α → Option Int
  | .int n => some n
  | .bool b => some (if b then 1 else 0)
  | _ => none

def string? : Json α → Option String
  | .str s => some s
  | _ => none

def ofString? : Option String → Json α
  | some s => .str s
  | none => .null

def ofNum? : Option α → Json α
  | some x => .num x
  | none => .null

def ofInt? : Option Int → Json α
  | some n => .int n
  | none => .null

mutual

/-- Puts a value in the place of each number and of each string. -/
def substitute {β : Type} (number : α → Json β) (string : String → Json β) : Json α → Json β
  | .null => .null
  | .bool b => .bool b
  | .int n => .int n
  | .num x => number x
  | .str s => string s
  | .arr items => .arr (substituteItems number string items)
  | .obj fields => .obj (substituteFields number string fields)

def substituteItems {β : Type} (number : α → Json β) (string : String → Json β) :
    List (Json α) → List (Json β)
  | [] => []
  | item :: items => substitute number string item :: substituteItems number string items

def substituteFields {β : Type} (number : α → Json β) (string : String → Json β) :
    List (String × Json α) → List (String × Json β)
  | [] => []
  | (name, value) :: fields =>
    (name, substitute number string value) :: substituteFields number string fields

end

section Display

variable [Numeral α]

mutual

/-- The text of a value inside another one, with strings in quotes. -/
def literal : Json α → String
  | .null => "None"
  | .bool b => if b then "True" else "False"
  | .int n => toString n
  | .num x => Numeral.exact x
  | .str s => Text.quoted s
  | .arr items => Text.listed (itemLiterals items)
  | .obj fields => "\x7b" ++ ", ".intercalate (fieldLiterals fields) ++ "\x7d"

def itemLiterals : List (Json α) → List String
  | [] => []
  | item :: items => literal item :: itemLiterals items

def fieldLiterals : List (String × Json α) → List String
  | [] => []
  | (name, value) :: fields => (Text.quoted name ++ ": " ++ literal value) :: fieldLiterals fields

end

/-- The text of a value on its own, with a string as it stands. -/
def display : Json α → String
  | .str s => s
  | value => literal value

end Display

end Json

end LocalMetric
