/-!
# Integers of a fixed width

Which integers fit into a number of bits, and what becomes of the others when only their last bits
are kept.
-/
namespace LocalMetric

/-- A type of integers: whether it has negative ones, and how many bits they take. -/
structure IntegerWidth where
  signed : Bool
  bits : Nat

namespace IntegerWidth

/-- The widest type with negative integers. -/
def long : IntegerWidth := ⟨true, 64⟩

/-- The widest type without negative integers. -/
def unsignedLong : IntegerWidth := ⟨false, 64⟩

/-- The least integer of a type. -/
def least (w : IntegerWidth) : Int :=
  if w.signed then -((1 <<< (w.bits - 1) : Nat) : Int) else 0

def count (w : IntegerWidth) : Int := (1 <<< w.bits : Nat)

def contains (w : IntegerWidth) (n : Int) : Bool := decide (w.least ≤ n ∧ n < w.least + w.count)

/-- The integer of a type whose last bits are those of an integer. -/
def wrap (w : IntegerWidth) (n : Int) : Int := (n - w.least) % w.count + w.least

end IntegerWidth

end LocalMetric
