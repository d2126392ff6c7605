/-!
# Binary numbers

A floating-point number is read as the exact value `± m · 2^q`, and an exact ratio is rounded to the
nearest floating-point number. Both directions work on the stored bits, for any format.
-/
namespace LocalMetric.Decimal

/-- How a binary format divides its bits: those of the fraction and those of the exponent. -/
structure BinaryFormat where
  fractionBits : Nat
  exponentBits : Nat

/-- What a stored number stands for. -/
inductive Binary where
  | nan
  | infinite (negative : Bool)
  /-- The value `mantissa · 2^exponent`, negated if `negative`. -/
  | finite (negative : Bool) (mantissa : Nat) (exponent : Int)
  deriving Repr, DecidableEq

/-- The quotient rounded to the nearest integer, a half to the even neighbour. -/
def roundToEven (numerator denominator : Nat) : Nat :=
  let quotient := numerator / denominator
  let twice := 2 * (numerator % denominator)
  if twice < denominator then quotient
  else if denominator < twice then quotient + 1
  else quotient + quotient % 2

namespace BinaryFormat

def double : BinaryFormat := ⟨52, 11⟩

def single : BinaryFormat := ⟨23, 8⟩

def half : BinaryFormat := ⟨10, 5⟩

/-- The exponent of the last place of the smallest numbers. -/
def leastExponent (f : BinaryFormat) : Int :=
  2 - (1 <<< (f.exponentBits - 1) : Nat) - f.fractionBits

/-- Reads stored bits. The smallest exponent field drops the leading one, the largest one marks
infinities and not-a-number. -/
def decode (f : BinaryFormat) (bits : Nat) : Binary :=
  let negative := bits.testBit (f.fractionBits + f.exponentBits)
  let field := (bits >>> f.fractionBits) % (1 <<< f.exponentBits)
  let fraction := bits % (1 <<< f.fractionBits)
  if field = (1 <<< f.exponentBits) - 1 then
    if fraction = 0 then .infinite negative else .nan
  else if field = 0 then .finite negative fraction f.leastExponent
  else .finite negative ((1 <<< f.fractionBits) + fraction) (f.leastExponent + field - 1)

/-- The exponent of the last place of the stored number nearest to a positive ratio. -/
def exponentOf (f : BinaryFormat) (numerator denominator : Nat) : Int :=
  let e : Int := numerator.log2 - denominator.log2
  let reaches := denominator <<< e.toNat ≤ numerator <<< (-e).toNat
  max f.leastExponent ((if reaches then e else e - 1) - f.fractionBits)

/-- The bits of the stored number nearest to a ratio; a value halfway between two goes to the one
whose last bit is zero, and too large a value to infinity. -/
def nearest (f : BinaryFormat) (negative : Bool) (numerator denominator : Nat) : Nat :=
  let q := f.exponentOf numerator denominator
  let mantissa := roundToEven (numerator <<< (-q).toNat) (denominator <<< q.toNat)
  let bits := ((q - f.leastExponent).toNat <<< f.fractionBits) + mantissa
  let largest := ((1 <<< f.exponentBits) - 1) <<< f.fractionBits
  (if negative then 1 <<< (f.fractionBits + f.exponentBits) else 0) +
    (if numerator = 0 then 0 else min bits largest)

/-- The bits of the stored number nearest to a value; not-a-number has one bit of its fraction
set. -/
def encode (f : BinaryFormat) : Binary → Nat
  | .nan => ((1 <<< (f.exponentBits + 1)) - 1) <<< (f.fractionBits - 1)
  | .infinite negative => f.nearest negative (1 <<< (1 <<< f.exponentBits)) 1
  | .finite negative mantissa exponent =>
    f.nearest negative (mantissa <<< exponent.toNat) (1 <<< (-exponent).toNat)

end BinaryFormat

/-- The integer that a value is, if it is one. -/
def Binary.integer? : Binary → Option Int
  | .finite negative mantissa exponent =>
    let denominator := 1 <<< (-exponent).toNat
    let quotient := (mantissa <<< exponent.toNat) / denominator
    if mantissa % denominator = 0 then
      some (if negative then -(quotient : Int) else quotient)
    else none
  | _ => none

/-- The integer that is left of a finite value when its fraction is cut off. -/
def Binary.truncated? : Binary → Option Int
  | .finite negative mantissa exponent =>
    let magnitude := (mantissa <<< exponent.toNat) >>> (-exponent).toNat
    some (if negative then -(magnitude : Int) else magnitude)
  | _ => none

end LocalMetric.Decimal
