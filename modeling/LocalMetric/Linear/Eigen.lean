import LocalMetric.Linear.Rotation
/-!
# Eigenpairs in descending order

How eigenvalues are found is left to a solver, which gets a symmetric matrix. The analysis sees the
solver's pairs in descending order of the eigenvalues.
-/
namespace LocalMetric

/-- Finds the eigenvalues of symmetric matrices and, in the columns of a matrix, eigenvectors. -/
structure Solver (α : Type) where
  solve : {n : Nat} → Mat α n n → Vector α n × Mat α n n

def Solver.rotations {α : Type} [Scalar α] : Solver α := ⟨Rotation.eigenpairs⟩

/-- Eigenvalues with an eigenvector in each column. -/
structure Eigenpairs (α : Type) (n : Nat) where
  values : Vector α n
  vectors : Mat α n n

variable {α : Type} [Scalar α] {n : Nat}

/-- The indices of a vector, those of larger entries first; of equal ones the last comes first. -/
def descendingOrder (x : Vector α n) : Vector (Fin n) n :=
  let order := ((List.finRange n).mergeSort fun i j => decide (x.get i ≤ x.get j)).reverse
  ⟨order.toArray, by simp [order]⟩

/-- The eigenpairs of a matrix in descending order. Only the lower triangle counts. -/
def sortedEigenpairs (solver : Solver α) (a : Mat α n n) : Eigenpairs α n :=
  let (values, vectors) := solver.solve a.ofLowerTriangle
  let order := descendingOrder values
  ⟨order.map values.get, vectors.map fun row => order.map row.get⟩

end LocalMetric
