import LocalMetric.Decimal.Reading
import LocalMetric.Json.Basic
/-!
# Reading JSON

A text is first cut into tokens, character by character, and the tokens are then assembled into a
value on a stack of the lists and objects that are still open. A number is an integer if its text
has neither a point nor an exponent.
-/
namespace LocalMetric.Json

open Decimal (digitsValue splitDigits exponent?)

/-- A bracket, a separator, or a value without parts. -/
inductive Token where
  | openList
  | closeList
  | openObject
  | closeObject
  | colon
  | comma
  | value (v : Json Float)

/-! ## Numbers -/

/-- Digits without a leading zero, then a fraction, then an exponent, both optional. -/
def unsigned? (negative : Bool) (cs : List Char) : Option (Json Float) := do
  let (whole, rest) := splitDigits cs
  guard (whole ≠ [] ∧ (whole.head? = some '0' → whole.length = 1))
  if rest.isEmpty then
    return .int (if negative then -(digitsValue whole : Int) else digitsValue whole)
  let (fraction, tail) := match rest with
    | '.' :: more => splitDigits more
    | _ => ([], rest)
  guard (rest.head? = some '.' → fraction ≠ [])
  let e ← exponent? tail
  return .num (Decimal.toDouble negative ⟨digitsValue (whole ++ fraction), e - fraction.length⟩)

/-- A number. It may have a minus in front, but no plus. -/
def writtenNumber? (cs : List Char) : Option (Json Float) :=
  match cs with
  | '-' :: rest => unsigned? true rest
  | rest => unsigned? false rest

/-- A value written as a bare word. -/
def word? (s : String) : Option (Json Float) :=
  match s with
  | "null" => some .null
  | "true" => some (.bool true)
  | "false" => some (.bool false)
  | "NaN" => some (.num (0.0 / 0.0))
  | "Infinity" => some (.num (1.0 / 0.0))
  | "-Infinity" => some (.num (-1.0 / 0.0))
  | _ => writtenNumber? s.toList

/-! ## Tokens -/

/-- What the characters read last belong to. Characters are collected in reverse. -/
inductive Mode where
  | between
  | word (letters : List Char)
  | text (codes : List Nat)
  | escape (codes : List Nat)
  | unit (codes : List Nat) (value digits : Nat)

def unitChar? (code : Nat) : Option Char :=
  if code.isValidChar then some (Char.ofNat code) else none

/-- The characters of a string whose escapes were read as single units. Half of a pair without its
other half is no character, and such a string is refused. -/
def joinUnits? : List Nat → Option (List Char)
  | high :: low :: rest =>
    if 0xd800 ≤ high ∧ high < 0xdc00 ∧ 0xdc00 ≤ low ∧ low < 0xe000 then
      (joinUnits? rest).map (Char.ofNat (0x10000 + (high - 0xd800) * 0x400 + (low - 0xdc00)) :: ·)
    else (unitChar? high).bind fun c => (joinUnits? (low :: rest)).map (c :: ·)
  | [code] => (unitChar? code).map ([·])
  | [] => some []

/-- The value of a digit in base sixteen. -/
def hexValue? (c : Char) : Option Nat :=
  if c.isDigit then some (c.toNat - '0'.toNat)
  else if 'a' ≤ c ∧ c ≤ 'f' then some (c.toNat - 'a'.toNat + 10)
  else if 'A' ≤ c ∧ c ≤ 'F' then some (c.toNat - 'A'.toNat + 10)
  else none

def punctuation? (c : Char) : Option Token :=
  match c with
  | '[' => some .openList
  | ']' => some .closeList
  | '\x7b' => some .openObject
  | '\x7d' => some .closeObject
  | ':' => some .colon
  | ',' => some .comma
  | _ => none

def escaped? (c : Char) : Option Nat :=
  match c with
  | '"' => some 0x22
  | '\\' => some 0x5c
  | '/' => some 0x2f
  | 'b' => some 8
  | 'f' => some 12
  | 'n' => some 10
  | 'r' => some 13
  | 't' => some 9
  | _ => none

def scanBetween (tokens : List Token) (c : Char) : List Token × Mode :=
  match punctuation? c with
  | some t => (t :: tokens, .between)
  | none =>
    if c = '"' then (tokens, .text [])
    else if c = ' ' ∨ c = '\n' ∨ c = '\r' ∨ c = '\t' then (tokens, .between)
    else (tokens, .word [c])

/-- Reads one character. -/
def scan (state : List Token × Mode) (c : Char) : Option (List Token × Mode) :=
  match state with
  | (tokens, .between) => some (scanBetween tokens c)
  | (tokens, .word letters) =>
    if c.isAlphanum ∨ c = '+' ∨ c = '-' ∨ c = '.' then some (tokens, .word (c :: letters))
    else (word? (String.ofList letters.reverse)).map fun v => scanBetween (.value v :: tokens) c
  | (tokens, .text codes) =>
    if c = '"' then (joinUnits? codes.reverse).map fun cs =>
      (.value (.str (String.ofList cs)) :: tokens, .between)
    else if c = '\\' then some (tokens, .escape codes)
    else if c < ' ' then none
    else some (tokens, .text (c.toNat :: codes))
  | (tokens, .escape codes) =>
    if c = 'u' then some (tokens, .unit codes 0 4)
    else (escaped? c).map fun code => (tokens, .text (code :: codes))
  | (tokens, .unit codes value digits) => (hexValue? c).map fun d =>
    let value := 16 * value + d
    (tokens, if digits ≤ 1 then .text (value :: codes) else .unit codes value (digits - 1))

def tokens? (s : String) : Option (List Token) :=
  match (s.toList ++ ['\n']).foldlM scan ([], .between) with
  | some (tokens, .between) => some tokens.reverse
  | _ => none

/-! ## Assembly -/

/-- A list or an object that is still open, its parts in reverse, with the name of the field that is
being read. -/
inductive Frame where
  | list (items : List (Json Float))
  | object (fields : List (String × Json Float)) (name : String)

/-- What may come next. -/
inductive Expected where
  | value
  | itemOrClose
  | nameOrClose
  | name
  | colon
  | separator
  | done (v : Json Float)

/-- Puts a finished value into the innermost open list or object. -/
def place (v : Json Float) : List Frame → List Frame × Expected
  | [] => ([], .done v)
  | .list items :: frames => (.list (v :: items) :: frames, .separator)
  | .object fields name :: frames => (.object ((name, v) :: fields) name :: frames, .separator)

def closeList? : List Frame → Option (List Frame × Expected)
  | .list items :: frames => some (place (.arr items.reverse) frames)
  | _ => none

def closeObject? : List Frame → Option (List Frame × Expected)
  | .object fields _ :: frames => some (place (.obj (mergeEntries fields.reverse)) frames)
  | _ => none

def assemble (state : List Frame × Expected) (t : Token) : Option (List Frame × Expected) :=
  match state.2, t, state.1 with
  | .value, .value v, frames | .itemOrClose, .value v, frames => some (place v frames)
  | .value, .openList, frames | .itemOrClose, .openList, frames =>
    some (.list [] :: frames, .itemOrClose)
  | .value, .openObject, frames | .itemOrClose, .openObject, frames =>
    some (.object [] "" :: frames, .nameOrClose)
  | .itemOrClose, .closeList, frames | .separator, .closeList, frames => closeList? frames
  | .nameOrClose, .closeObject, frames | .separator, .closeObject, frames => closeObject? frames
  | .nameOrClose, .value (.str name), .object fields _ :: frames
  | .name, .value (.str name), .object fields _ :: frames =>
    some (.object fields name :: frames, .colon)
  | .colon, .colon, frames => some (frames, .value)
  | .separator, .comma, .list items :: frames => some (.list items :: frames, .value)
  | .separator, .comma, .object fields name :: frames => some (.object fields name :: frames, .name)
  | _, _, _ => none

def read? (s : String) : Option (Json Float) :=
  ((tokens? s).bind fun tokens => tokens.foldlM assemble ([], .value)).bind fun state =>
    match state with
    | ([], .done v) => some v
    | _ => none

end LocalMetric.Json
