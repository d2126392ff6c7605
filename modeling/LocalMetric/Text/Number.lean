import LocalMetric.Decimal.Reading
import LocalMetric.Text.Classes
/-!
# Numbers as texts

Written numbers may stand between blanks, have digits of any script, and have underscores between
digits.
-/
namespace LocalMetric.Text

open Decimal (digitsValue splitDigits splitSign exponent?)

/-- The basic character in the place of a character: blanks and digits of all scripts have one, and
basic characters stay as they are. -/
def basicChar (c : Char) : Char :=
  if c.toNat < 0x80 then c
  else match digitValue? c with
    | some d => Char.ofNat ('0'.toNat + d)
    | none => if isBlank c then ' ' else c

def isBasicBlank (c : Char) : Bool := c = ' ' || ('\t' ≤ c && c ≤ '\r')

def trimmed (cs : List Char) : List Char :=
  ((cs.dropWhile isBasicBlank).reverse.dropWhile isBasicBlank).reverse

/-- Drops underscores between digits, provided there are no others. -/
def joinDigits (afterDigit : Bool) : List Char → Option (List Char)
  | [] => some []
  | '_' :: c :: cs =>
    if afterDigit && c.isDigit then (joinDigits true cs).map (c :: ·) else none
  | c :: cs => if c = '_' then none else (joinDigits c.isDigit cs).map (c :: ·)

/-- The characters that a number is read from. -/
def numberChars? (s : String) : Option (List Char) :=
  joinDigits false (trimmed (s.toList.map basicChar))

/-- How many digits an integer that is read may have. -/
def digitLimit : Nat := 4300

def integer? (s : String) : Option Int := do
  let (negative, ds) := splitSign (← numberChars? s)
  guard (ds ≠ [] ∧ ds.all Char.isDigit ∧ ds.length ≤ digitLimit)
  return if negative then -(digitsValue ds : Int) else digitsValue ds

/-- Reads digits with an optional point, which need a digit on one side of it, and an optional
exponent. -/
def decimal? (cs : List Char) : Option Decimal.Scientific := do
  let (whole, rest) := splitDigits cs
  let (fraction, tail) := match rest with
    | '.' :: more => splitDigits more
    | _ => ([], rest)
  guard (whole ≠ [] ∨ fraction ≠ [])
  return ⟨digitsValue (whole ++ fraction), (← exponent? tail) - fraction.length⟩

/-- Reads a number, or one of the words for infinity and for not-a-number in any case. -/
def number? (s : String) : Option Float := do
  let (negative, cs) := splitSign (← numberChars? s)
  let word := String.ofList (cs.map Char.toLower)
  if word = "nan" then return 0.0 / 0.0
  if word = "inf" ∨ word = "infinity" then return (if negative then -1.0 else 1.0) / 0.0
  return Decimal.toDouble negative (← decimal? cs)

end LocalMetric.Text

namespace LocalMetric

instance : Numeral Float where
  exact x := Decimal.shortestText .exact .double x.toBits.toNat
  exactHalved x := Decimal.shortestText .halved .single (Decimal.singleBits x)
  brief x := Decimal.briefText .double x.toBits.toNat
  integer? x := (Decimal.BinaryFormat.double.decode x.toBits.toNat).integer?
  truncated? x := (Decimal.BinaryFormat.double.decode x.toBits.toNat).truncated?
  ofText? := Text.number?

end LocalMetric
