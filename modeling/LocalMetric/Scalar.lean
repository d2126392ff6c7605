/-!
# Scalars

The numbers that the analysis computes with. `Scalar` lists the operations and states no law, so one
program runs on doubles and is reasoned about over any ordered field with square roots. Comparisons
of an incomparable value (not-a-number) are all false; the functions below say what that entails.
-/
namespace LocalMetric

/-- Numbers with field operations, an order that can be tested, square roots and logarithms. -/
class Scalar (α : Type) extends Add α, Sub α, Mul α, Div α, Neg α, LT α, LE α, BEq α,
    Zero α, One α, NatCast α, OfScientific α where
  /-- Decides `<`. -/
  decideLt : DecidableLT α
  /-- Decides `≤`. -/
  decideLe : DecidableLE α
  /-- The non-negative square root. -/
  sqrt : α → α
  /-- The natural logarithm. -/
  log : α → α
  /-- Whether the value is a number of finite size. -/
  isFinite : α → Bool

/-- How a number is written, with the digits that identify it or with six significant digits, and
how it is read. -/
class Numeral (α : Type) where
  /-- The fewest digits that read back to the same number. -/
  exact : α → String
  /-- The fewest digits that read back to the same number in half the precision. -/
  exactHalved : α → String
  /-- Six significant digits without trailing zeros. -/
  brief : α → String
  /-- The integer that a number is, if it is one. -/
  integer? : α → Option Int
  /-- The integer that is left when the fraction is cut off, if the number is finite. -/
  truncated? : α → Option Int
  /-- The number that a text writes, if it writes one. -/
  ofText? : String → Option α

variable {α : Type} [Scalar α]

instance decidableLT : DecidableLT α := Scalar.decideLt

instance decidableLE : DecidableLE α := Scalar.decideLe

namespace Scalar

def ofInt (n : Int) : α := if n < 0 then -(n.natAbs : α) else (n.natAbs : α)

def abs (x : α) : α := if x < 0 then -x else x

/-- The second argument if it is larger, else the first. An incomparable pair gives the first. -/
def larger (x y : α) : α := if x < y then y else x

/-- The larger argument, or an incomparable one if there is any. -/
def largerOrNaN (x y : α) : α :=
  if x == x then if y == y then larger x y else y else x

/-- Raises negative values to zero and keeps everything else. -/
def nonNegative (x : α) : α := if x < 0 then 0 else x

/-- Whether two values are equal, or differ by at most `1e-8` plus `1e-5` of a finite second one's
magnitude. -/
def isClose (x y : α) : Bool :=
  x == y || (isFinite y && decide (abs (x - y) ≤ 1e-8 + 1e-5 * abs y))

end Scalar

/-- The double nearest to a natural number. Of the bits beyond sixty-four it only matters whether
any is set, which the last of the leading ones then tells. -/
def nearestDouble (n : Nat) : Float :=
  if n.log2 < 64 then Float.ofNat n
  else
    let shift := n.log2 - 63
    let leading := n >>> shift
    (Float.ofNat (if leading <<< shift = n then leading else leading ||| 1)).scaleB shift

instance : Scalar Float where
  zero := 0.0
  one := 1.0
  natCast := nearestDouble
  decideLt := inferInstance
  decideLe := inferInstance
  sqrt := Float.sqrt
  log := Float.log
  isFinite := Float.isFinite

end LocalMetric
