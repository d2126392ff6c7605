import LocalMetric.Linear.Tensor
/-!
# Eigenvalues

Eigenvalues that are small against the largest one, or negative, count as zero. The correlation
dimension is the least number of leading eigenvalues that reach a share of their total.
-/
namespace LocalMetric

variable {α : Type} [Scalar α]

/-- An eigenvalue after clamping: zero if it is at most the bound in magnitude or negative. -/
def clampAt (bound x : α) : α := if Scalar.abs x ≤ bound then 0 else Scalar.nonNegative x

/-- Clamps eigenvalues at a share of the largest magnitude among them. -/
def clampEigenvalues (tolerance : α) (xs : List α) : List α :=
  xs.map (clampAt (tolerance * largestMagnitude xs))

/-- Clamps the entries of an array at a share of the largest magnitude among them. -/
def clampEntries (tolerance : α) (t : Tensor α) : Tensor α :=
  t.map (clampAt (tolerance * largestMagnitude t.toList))

/-- The sums of the leading values of a list, added to a total. -/
def runningSums (total : α) : List α → List α
  | [] => []
  | x :: xs => (total + x) :: runningSums (total + x) xs

/-- The least number of leading eigenvalues whose sum reaches the share of the total. The comparison
leaves room for rounding of the sum; if it never holds, the answer is one. -/
def selectDimension (threshold : α) (eigenvalues : List α) : Checked α Nat :=
  let sums := runningSums 0 eigenvalues
  match sums.getLast? with
  | none => .error .noEigenvalues
  | some total =>
    let target := threshold * total - 1e-12 * total
    .ok ((sums.findIdx? fun s => decide (target ≤ s)).getD 0 + 1)

/-- The share of the total that the leading `d` eigenvalues explain; one if there is no variance. -/
def explainedRatio (d : Nat) (eigenvalues : List α) : α :=
  let total := listSum eigenvalues
  if total ≤ 0 then 1 else listSum (eigenvalues.take d) / total

end LocalMetric
