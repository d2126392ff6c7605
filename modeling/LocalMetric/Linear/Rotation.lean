import LocalMetric.Linear.Mat
/-!
# Eigenvalues by rotations

A symmetric matrix is brought to diagonal form by plane rotations, each of which removes one entry
beside the diagonal. The rotations are collected in an orthonormal matrix whose columns are the
eigenvectors.
-/
namespace LocalMetric.Rotation

variable {α : Type} [Scalar α] {m n : Nat}

/-- A plane rotation: the two axes it turns, and the cosine and sine of the angle. -/
structure Plane (α : Type) (n : Nat) where
  first : Fin n
  second : Fin n
  cosine : α
  sine : α

/-- A matrix on its way to diagonal form, with the rotations done so far. -/
structure Progress (α : Type) (n : Nat) where
  matrix : Mat α n n
  basis : Mat α n n

/-- A row vector after a rotation. -/
def Plane.turn (r : Plane α n) (x : Vector α n) : Vector α n :=
  (x.set r.first (r.cosine * x.get r.first - r.sine * x.get r.second)).set r.second
    (r.sine * x.get r.first + r.cosine * x.get r.second)

def Plane.turnColumns (r : Plane α n) (a : Mat α m n) : Mat α m n := a.map r.turn

def Plane.turnRows (r : Plane α n) (a : Mat α n m) : Mat α n m :=
  let x := a.get r.first
  let y := a.get r.second
  (a.set r.first (Vector.ofFn fun j => r.cosine * x.get j - r.sine * y.get j)).set r.second
    (Vector.ofFn fun j => r.sine * x.get j + r.cosine * y.get j)

/-- The rotation that removes the entry at a row and a column, by the smaller of the two angles. -/
def removing (a : Mat α n n) (p q : Fin n) : Plane α n :=
  let ratio := (a.entry q q - a.entry p p) / (a.entry p q + a.entry p q)
  let size := 1 / (Scalar.abs ratio + Scalar.sqrt (ratio * ratio + 1))
  let tangent := if ratio < 0 then -size else size
  let cosine := 1 / Scalar.sqrt (tangent * tangent + 1)
  ⟨p, q, cosine, tangent * cosine⟩

/-- Whether an entry is too small to change the diagonal entries of its row and column. -/
def negligible (a : Mat α n n) (p q : Fin n) : Bool :=
  let beside := Scalar.abs (a.entry p q)
  let first := Scalar.abs (a.entry p p)
  let second := Scalar.abs (a.entry q q)
  (first + beside == first) && (second + beside == second)

/-- Removes one entry beside the diagonal. -/
def step (s : Progress α n) (p q : Fin n) : Progress α n :=
  if negligible s.matrix p q then s else
    let r := removing s.matrix p q
    let turned := r.turnRows (r.turnColumns s.matrix)
    ⟨(turned.set p ((turned.get p).set q 0)).set q ((turned.get q).set p 0), r.turnColumns s.basis⟩

def pairs (n : Nat) : List (Fin n × Fin n) :=
  (List.finRange n).flatMap fun p => ((List.finRange n).filter (p < ·)).map (p, ·)

def sweep (s : Progress α n) : Progress α n :=
  (pairs n).foldl (fun s (p, q) => step s p q) s

/-- Whether nothing is left to remove. -/
def isDiagonal (a : Mat α n n) : Bool := (pairs n).all fun (p, q) => negligible a p q

/-- Sweeps until nothing is left to remove, at most the given number of times. -/
def run : Nat → Progress α n → Progress α n
  | 0, s => s
  | rounds + 1, s => if isDiagonal s.matrix then s else run rounds (sweep s)

/-- What a matrix is divided by before it is rotated. Very large and very small matrices are divided
by their largest entry, so that the products of entries stay within the range of numbers. -/
def scale (a : Mat α n n) : α :=
  let largest := largestMagnitude a.entries
  if Scalar.isFinite largest ∧ (1e150 < largest ∨ 0 < largest ∧ largest < 1e-150) then largest
  else 1

/-- The eigenvalues of a symmetric matrix and, in the columns, their eigenvectors. -/
def eigenpairs (a : Mat α n n) : Vector α n × Mat α n n :=
  let c := scale a
  let s := run 64 ⟨a.map fun row => row.map (· / c), Mat.identity⟩
  (Vector.ofFn fun i => s.matrix.entry i i * c, s.basis)

end LocalMetric.Rotation
