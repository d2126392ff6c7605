import LocalMetric.Json.Basic
/-!
# JSON texts

Report files are indented by two blanks a level and hold ASCII characters only.
-/
namespace LocalMetric.Json

variable {α : Type} [Numeral α]

/-- A sixteen-bit unit as an escape. -/
def escapedUnit (n : Nat) : List Char := ['\\', 'u'] ++ Text.hex 4 n

/-- One character inside a string. Characters beyond sixteen bits are written as two units. -/
def escapedChar (c : Char) : List Char :=
  if c = '"' ∨ c = '\\' then ['\\', c]
  else if c = '\n' then ['\\', 'n']
  else if c = '\r' then ['\\', 'r']
  else if c = '\t' then ['\\', 't']
  else if c = '\x08' then ['\\', 'b']
  else if c = '\x0c' then ['\\', 'f']
  else if ' ' ≤ c ∧ c ≤ '~' then [c]
  else if c.toNat < 0x10000 then escapedUnit c.toNat
  else
    let rest := c.toNat - 0x10000
    escapedUnit (0xd800 + rest / 0x400) ++ escapedUnit (0xdc00 + rest % 0x400)

def stringText (s : String) : String :=
  String.ofList (['"'] ++ s.toList.flatMap escapedChar ++ ['"'])

/-- The digits that identify a number, and names for the values without digits. -/
def numberText (x : α) : String :=
  match Numeral.exact x with
  | "nan" => "NaN"
  | "inf" => "Infinity"
  | "-inf" => "-Infinity"
  | digits => digits

/-- Texts between brackets, each on a line of its own one level below the brackets. -/
def block (depth : Nat) (opening closing : String) (texts : List String) : String :=
  let line (d : Nat) := "\n" ++ String.ofList (List.replicate (2 * d) ' ')
  if texts.isEmpty then opening ++ closing
  else
    opening ++ line (depth + 1) ++ ("," ++ line (depth + 1)).intercalate texts ++ line depth ++
      closing

mutual

def textAt (depth : Nat) : Json α → String
  | .null => "null"
  | .bool b => if b then "true" else "false"
  | .int n => toString n
  | .num x => numberText x
  | .str s => stringText s
  | .arr items => block depth "[" "]" (itemTexts (depth + 1) items)
  | .obj fields => block depth "\x7b" "\x7d" (fieldTexts (depth + 1) fields)

def itemTexts (depth : Nat) : List (Json α) → List String
  | [] => []
  | item :: items => textAt depth item :: itemTexts depth items

def fieldTexts (depth : Nat) : List (String × Json α) → List String
  | [] => []
  | (name, value) :: fields =>
    (stringText name ++ ": " ++ textAt depth value) :: fieldTexts depth fields

end

mutual

def line : Json α → String
  | .arr items => "[" ++ ",".intercalate (itemLines items) ++ "]"
  | .obj fields => "\x7b" ++ ",".intercalate (fieldLines fields) ++ "\x7d"
  | value => value.textAt 0

def itemLines : List (Json α) → List String
  | [] => []
  | item :: items => line item :: itemLines items

def fieldLines : List (String × Json α) → List String
  | [] => []
  | (name, value) :: fields => (stringText name ++ ":" ++ line value) :: fieldLines fields

end

def text (value : Json α) : String := textAt 0 value

end LocalMetric.Json
