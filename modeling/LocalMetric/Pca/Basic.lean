import LocalMetric.Linear.Eigen
import LocalMetric.Pca.Neighborhood
import LocalMetric.Pca.Spectrum
import LocalMetric.Pca.Weight
/-!
# Local principal component analysis

The leading eigenvectors of a neighborhood's scatter matrix span its strong directions, the others
the weak ones. The result carries the weight matrix that makes displacements along weak directions
expensive.
-/
namespace LocalMetric

/-- The outcome of a local analysis. The eigenvalues and eigenvectors explain the weight matrix;
only the weight matrix and the correlation dimension are tied to each other. -/
structure LocalPca (α : Type) where
  eigenvalues : List α
  eigenvectors : Grid α
  dim : Nat
  weights : Mat α dim dim
  correlationDimension : Nat
  neighborhoodSize : Int
  one_le_dimension : 1 ≤ correlationDimension
  dimension_le : correlationDimension ≤ dim

namespace LocalPca

variable {α : Type} [Scalar α]

/-- Puts an outcome together if the correlation dimension fits the weight matrix. -/
def make {n : Nat} (eigenvalues : List α) (eigenvectors : Grid α) (weights : Mat α n n)
    (d size : Int) : Checked α (LocalPca α) :=
  if h : 1 ≤ d ∧ d ≤ n then
    .ok ⟨eigenvalues, eigenvectors, n, weights, d.toNat, size, by omega, by omega⟩
  else .error (.dimensionOutside n d)

/-- The square matrix in an array, or why it is none. -/
def squareMatrix (t : Tensor α) : Checked α ((n : Nat) × Mat α n n) :=
  match t with
  | ⟨[m, n], a⟩ => if h : m = n then .ok ⟨n, h ▸ a⟩ else .error (.weightMatrixNotSquare [m, n])
  | ⟨shape, _⟩ => .error (.weightMatrixNotSquare shape)

def ofNeighborhood (solver : Solver α) (config : Config α) (s : Neighborhood α) :
    Checked α (LocalPca α) := do
  let pairs := sortedEigenpairs solver (s.scatter config.center)
  let eigenvalues := clampEigenvalues config.tolerance pairs.values.toList
  let d ← selectDimension config.threshold eigenvalues
  make eigenvalues ⟨s.dim, s.dim, pairs.vectors⟩
    (weightMatrix pairs.vectors d config.strong config.weak) d s.count

def compute (solver : Solver α) (config : Config α) (anchor points : Tensor α) :
    Checked α (LocalPca α) := do
  ofNeighborhood solver config (← Neighborhood.ofTensors anchor points)

/-- Whether a matrix is symmetric up to rounding. -/
def isSymmetric {n : Nat} (a : Mat α n n) : Bool :=
  (List.finRange n).all fun i => (List.finRange n).all fun j =>
    Scalar.isClose (a.entry i j) (a.entry j i)

/-- Whether the smallest of descending eigenvalues is negative beyond rounding. -/
def isIndefinite (eigenvalues : List α) : Bool :=
  match eigenvalues.getLast? with
  | none => false
  | some smallest => decide (smallest < -1e-9 * largestMagnitude eigenvalues)

/-- Takes over a weight matrix from elsewhere, if it is symmetric and positive-semidefinite up to
rounding. Without a stated correlation dimension every direction is a strong one. -/
def ofWeights (solver : Solver α) (matrix : Tensor α) (d : Option Int) :
    Checked α (LocalPca α) := do
  let ⟨n, a⟩ ← squareMatrix matrix
  if !isSymmetric a then throw .weightMatrixAsymmetric
  let pairs := sortedEigenpairs solver a.symmetricPart
  let eigenvalues := pairs.values.toList
  if isIndefinite eigenvalues then throw .weightMatrixIndefinite
  make (eigenvalues.map Scalar.nonNegative) ⟨n, n, pairs.vectors⟩ a (d.getD n) 0

def explainedVarianceRatio (r : LocalPca α) : α :=
  explainedRatio r.correlationDimension r.eigenvalues

def strongColumns (r : LocalPca α) : Nat := min r.correlationDimension r.eigenvectors.columns

def weakColumns (r : LocalPca α) : Nat := r.eigenvectors.columns - r.correlationDimension

end LocalPca

end LocalMetric
