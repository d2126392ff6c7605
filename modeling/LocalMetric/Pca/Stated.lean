import LocalMetric.Pca.Basic
/-!
# Stated outcomes

An outcome of the local analysis may be stated part by part. Only the weight matrix and the
correlation dimension have to fit together; the eigenvalues and eigenvectors may be arrays of any
shape, and what is derived from them is refused if they have too few axes.
-/
namespace LocalMetric

/-- An outcome of the local analysis as it is stated. -/
structure StatedPca (α : Type) where
  eigenvalues : Tensor α
  eigenvectors : Tensor α
  dim : Nat
  weights : Mat α dim dim
  correlationDimension : Nat
  neighborhoodSize : Int
  one_le_dimension : 1 ≤ correlationDimension
  dimension_le : correlationDimension ≤ dim

namespace StatedPca

variable {α : Type}

def ofParts (eigenvalues eigenvectors matrix : Tensor α) (d size : Int) :
    Checked α (StatedPca α) := do
  if matrix.rank = 0 then throw .missingAxis
  let ⟨n, a⟩ ← LocalPca.squareMatrix matrix
  if h : 1 ≤ d ∧ d ≤ n then
    return ⟨eigenvalues, eigenvectors, n, a, d.toNat, size, Int.lt_toNat.2 h.1, Int.toNat_le.2 h.2⟩
  else throw (.dimensionOutside n d)

/-- A part of an array that is there only if the array has enough axes. -/
def required {β : Type} (part : Option β) : Checked α β :=
  match part with
  | some x => .ok x
  | none => .error .missingAxis

def strong (r : StatedPca α) : Checked α (Tensor α) :=
  required (r.eigenvectors.firstColumns? r.correlationDimension)

def weak (r : StatedPca α) : Checked α (Tensor α) :=
  required (r.eigenvectors.otherColumns? r.correlationDimension)

/-- The share of the total of the eigenvalues that the leading ones along the first axis have; one
if there is no variance. -/
def explainedVarianceRatio [Scalar α] (r : StatedPca α) : Checked α α := do
  let total := listSum r.eigenvalues.toList
  if total ≤ 0 then return 1
  let leading ← required (r.eigenvalues.firstItems? r.correlationDimension)
  return listSum leading.toList / total

end StatedPca

end LocalMetric
