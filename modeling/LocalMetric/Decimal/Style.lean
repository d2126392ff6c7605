import LocalMetric.Scalar
import LocalMetric.Decimal.Digits
/-!
# Number texts

A style says where positional writing ends and what is kept of it. Reports use three: the fewest
digits that identify a double, those that identify a number of half the precision, and six
significant digits.
-/
namespace LocalMetric.Decimal

/-- Where positional writing ends and how a whole number is written. -/
structure Style where
  /-- The least power of ten of the leading digit that is written positionally. -/
  least : Int
  /-- The power of ten of the leading digit from which on an exponent is written. -/
  bound : Int
  /-- Whether a whole number keeps a point and a zero. -/
  keepsPoint : Bool
  /-- Whether the leading digit is that of the number itself rather than of its text. -/
  byValue : Bool

/-- Doubles are positional from `1e-4` up to below `1e16`, and whole ones end in `.0`. -/
def Style.exact : Style := ⟨-4, 16, true, false⟩

/-- Numbers of half the precision follow the same bounds by their value, so that one just below
`1e-4` has an exponent even if its digits round up to `1e-4`. -/
def Style.halved : Style := ⟨-4, 16, true, true⟩

/-- Short numbers are positional from `1e-4` up to below `1e6`, and whole ones have no point. -/
def Style.brief : Style := ⟨-4, 6, false, false⟩

/-- An exponent with its sign and at least two digits. -/
def exponentText (e : Int) : List Char :=
  let ds := Nat.toDigits 10 e.natAbs
  ['e', if e < 0 then '-' else '+'] ++ List.replicate (2 - ds.length) '0' ++ ds

def pointAfterFirst : List Char → List Char
  | d :: e :: rest => d :: '.' :: e :: rest
  | ds => ds

/-- Writes digits without an exponent, the leading one at the given power of ten. -/
def Style.positional (s : Style) (ds : List Char) (leading : Int) : List Char :=
  if leading < 0 then ['0', '.'] ++ List.replicate (-leading - 1).toNat '0' ++ ds
  else
    let whole := leading.toNat + 1
    let fraction := ds.drop whole
    ds.take whole ++ List.replicate (whole - ds.length) '0' ++
      (if fraction.isEmpty then if s.keepsPoint then ['.', '0'] else [] else '.' :: fraction)

/-- Writes digits, the leading one at the given power of ten. The power of ten of the number itself
or of its digits decides how. -/
def Style.layout (s : Style) (ds : List Char) (leading deciding : Int) : List Char :=
  if deciding < s.least ∨ s.bound ≤ deciding then pointAfterFirst ds ++ exponentText leading
  else s.positional ds leading

/-- The text of a stored number in a style, with its digits chosen by `choose`. -/
def Style.text (s : Style) (choose : Nat → Int → Scientific) : Binary → String
  | .nan => "nan"
  | .infinite negative => if negative then "-inf" else "inf"
  | .finite negative mantissa exponent =>
    let d := choose mantissa exponent
    let deciding := if s.byValue ∧ mantissa ≠ 0
      then leadingExponent (mantissa <<< exponent.toNat) (1 <<< (-exponent).toNat) else d.leading
    String.ofList ((if negative then ['-'] else []) ++ s.layout d.digits d.leading deciding)

/-- The shortest text that reads back as the stored number, in a style. -/
def shortestText (s : Style) (f : BinaryFormat) (bits : Nat) : String :=
  s.text (shortest f) (f.decode bits)

/-- Six significant digits without zeros at the end. -/
def briefText (f : BinaryFormat) (bits : Nat) : String :=
  Style.brief.text (fun m q => (rounded 6 m q).trimmed 6) (f.decode bits)

/-- A number with a fixed count of digits after the point and an exponent. -/
def scientificText (places : Nat) : Binary → String
  | .nan => "nan"
  | .infinite negative => if negative then "-inf" else "inf"
  | .finite negative mantissa exponent =>
    let d := rounded (places + 1) mantissa exponent
    let padded := d.digits ++ List.replicate (places + 1 - d.digits.length) '0'
    let sign := if negative ∧ mantissa ≠ 0 then ['-'] else []
    String.ofList (sign ++ pointAfterFirst padded ++ exponentText d.leading)

/-- The double nearest to a signed decimal. Decimals far beyond the range of doubles are settled by
their size alone. -/
def toDouble (negative : Bool) (d : Scientific) : Float :=
  let size := d.exponent + digitCount d.coefficient
  let bits :=
    if d.coefficient = 0 ∨ size < -400 then BinaryFormat.double.nearest negative 0 1
    else if 400 < size then BinaryFormat.double.nearest negative (1 <<< 1100) 1
    else BinaryFormat.double.nearest negative (d.coefficient * tenTo d.exponent.toNat)
      (tenTo (-d.exponent).toNat)
  Float.ofBits (UInt64.ofNat bits)

/-- The bits of the single-precision number nearest to a double. -/
def singleBits (x : Float) : Nat :=
  BinaryFormat.single.encode (BinaryFormat.double.decode x.toBits.toNat)

def narrowed (f : BinaryFormat) (x : Float) : Float :=
  let bits := f.encode (BinaryFormat.double.decode x.toBits.toNat)
  Float.ofBits (UInt64.ofNat (BinaryFormat.double.encode (f.decode bits)))

end LocalMetric.Decimal
