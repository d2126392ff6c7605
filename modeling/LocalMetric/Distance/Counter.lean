import LocalMetric.Fault
/-!
# Counters

How many distances were evaluated since the last reset.
-/
namespace LocalMetric

structure Counter where
  value : Int := 0
  deriving Repr, DecidableEq

namespace Counter

def increment {α : Type} (c : Counter) (n : Int) : Checked α Counter :=
  if n < 0 then .error (.negativeIncrement n) else .ok ⟨c.value + n⟩

/-- Starts again from zero; the first part is the count until now. -/
def reset (c : Counter) : Int × Counter := (c.value, {})

end Counter

/-- How many pairs of distinct positions a list of `n` points has. -/
def pairCount (n : Nat) : Nat := n * (n - 1) / 2

end LocalMetric
