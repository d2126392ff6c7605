import LocalMetric.Decimal.Binary
/-!
# Decimal digits of binary numbers

The digits that identify a number among the stored ones, and the digits of a number rounded to a
given count. All comparisons are between exact integers.
-/
namespace LocalMetric.Decimal

/-- The value `coefficient · 10^exponent`. -/
structure Scientific where
  coefficient : Nat
  exponent : Int
  deriving Repr, DecidableEq

def tenTo (k : Nat) : Nat := Nat.pow 10 k

def digitCount (n : Nat) : Nat := (Nat.toDigits 10 n).length

/-- The power of ten of the leading digit of a positive ratio. -/
def leadingExponent (numerator denominator : Nat) : Int :=
  let e : Int := digitCount numerator - digitCount denominator
  if denominator * tenTo e.toNat ≤ numerator * tenTo (-e).toNat then e else e - 1

namespace Scientific

/-- Drops the zeros at the end of the coefficient, for at most `fuel` digits. -/
def trimmed : Nat → Scientific → Scientific
  | 0, d => d
  | fuel + 1, d =>
    if d.coefficient ≠ 0 ∧ d.coefficient % 10 = 0 then
      trimmed fuel ⟨d.coefficient / 10, d.exponent + 1⟩
    else d

def digits (d : Scientific) : List Char := Nat.toDigits 10 d.coefficient

/-- The power of ten of the leading digit. -/
def leading (d : Scientific) : Int := d.exponent + digitCount d.coefficient - 1

end Scientific

/-- A ratio rounded to `count` significant digits, a half to the even neighbour. -/
def roundedRatio (count numerator denominator : Nat) : Scientific :=
  if numerator = 0 then ⟨0, 0⟩ else
    let place := leadingExponent numerator denominator - count + 1
    let coefficient :=
      roundToEven (numerator * tenTo (-place).toNat) (denominator * tenTo place.toNat)
    if digitCount coefficient ≤ count then ⟨coefficient, place⟩
    else ⟨coefficient / 10, place + 1⟩

def rounded (count mantissa : Nat) (exponent : Int) : Scientific :=
  roundedRatio count (mantissa <<< exponent.toNat) (1 <<< (-exponent).toNat)

/-- Whether a decimal reads back as the positive stored number `mantissa · 2^exponent`: it lies
between the midpoints to the two neighbours, which themselves count if the mantissa is even. -/
def identifies (f : BinaryFormat) (mantissa : Nat) (exponent : Int) (d : Scientific) : Bool :=
  -- the neighbour below a power of two is only half as far away
  let below := if mantissa = 1 <<< f.fractionBits ∧ f.leastExponent < exponent then 1 else 2
  let quarter := exponent - 2
  let scale (n : Nat) := (n * tenTo (-d.exponent).toNat) <<< quarter.toNat
  let value := (d.coefficient * tenTo d.exponent.toNat) <<< (-quarter).toNat
  let low := scale (4 * mantissa - below)
  let high := scale (4 * mantissa + 2)
  if mantissa % 2 = 0 then low ≤ value && value ≤ high else low < value && value < high

/-- Of the two decimals with `count` digits around a positive stored number the one that identifies
it; if both do, the nearer one, and the even one of two equally near. -/
def identifying? (f : BinaryFormat) (mantissa : Nat) (exponent : Int) (count : Nat) :
    Option Scientific :=
  let numerator := mantissa <<< exponent.toNat
  let denominator := 1 <<< (-exponent).toNat
  let place := leadingExponent numerator denominator - count + 1
  let above := numerator * tenTo (-place).toNat
  let unit := denominator * tenTo place.toNat
  let nearer := roundToEven above unit
  let other := if nearer = above / unit then nearer + 1 else above / unit
  [nearer, other].map (⟨·, place⟩) |>.find? (identifies f mantissa exponent)

/-- The shortest decimal that identifies a stored number, and of the shortest the nearest. -/
def shortest (f : BinaryFormat) (mantissa : Nat) (exponent : Int) : Scientific :=
  if mantissa = 0 then ⟨0, 0⟩ else
    (((List.range 17).findSome? fun n => identifying? f mantissa exponent (n + 1)).getD
      (rounded 17 mantissa exponent)).trimmed 17

end LocalMetric.Decimal
