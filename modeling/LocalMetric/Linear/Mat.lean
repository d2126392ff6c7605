import LocalMetric.Scalar
/-!
# Vectors and matrices

Matrices are vectors of rows, so every entry is stored once it is computed. Sums run from the first
index to the last, starting at zero.
-/
namespace LocalMetric

/-- A matrix of `m` rows and `n` columns. -/
abbrev Mat (α : Type) (m n : Nat) := Vector (Vector α n) m

variable {α : Type} [Scalar α] {k m n : Nat}

def sum (f : Fin n → α) : α := Fin.foldl n (fun total i => total + f i) 0

def dot (x y : Vector α n) : α := sum fun i => x.get i * y.get i

def difference (x y : Vector α n) : Vector α n := Vector.ofFn fun i => x.get i - y.get i

def squaredNorm (x : Vector α n) : α := dot x x

/-- The largest magnitude among the values, incomparable if one of them is; zero if there are
none. -/
def largestMagnitude : List α → α
  | [] => 0
  | x :: xs => xs.foldl (fun largest y => Scalar.largerOrNaN largest (Scalar.abs y)) (Scalar.abs x)

def listSum (xs : List α) : α := xs.foldl (· + ·) 0

namespace Mat

def ofFn (f : Fin m → Fin n → α) : Mat α m n := Vector.ofFn fun i => Vector.ofFn (f i)

def entry (a : Mat α m n) (i : Fin m) (j : Fin n) : α := (a.get i).get j

def transpose (a : Mat α m n) : Mat α n m := ofFn fun i j => a.entry j i

def column (a : Mat α m n) (j : Fin n) : Vector α m := Vector.ofFn fun i => a.entry i j

/-- The matrix with ones on the diagonal. -/
def identity : Mat α n n := ofFn fun i j => if i = j then 1 else 0

def symmetricPart (a : Mat α n n) : Mat α n n :=
  ofFn fun i j => 0.5 * (a.entry i j + a.entry j i)

/-- The symmetric matrix with the same lower triangle. -/
def ofLowerTriangle (a : Mat α n n) : Mat α n n :=
  ofFn fun i j => if i < j then a.entry j i else a.entry i j

/-- The value `xᵀ a x`. -/
def quadraticForm (a : Mat α n n) (x : Vector α n) : α :=
  sum fun j => (sum fun i => x.get i * a.entry i j) * x.get j

def entries (a : Mat α m n) : List α := a.toList.flatMap Vector.toList

def allFinite (a : Mat α m n) : Bool := a.all fun row => row.all Scalar.isFinite

end Mat

/-- A matrix whose size is known only when the program runs. -/
structure Grid (α : Type) where
  rows : Nat
  columns : Nat
  entries : Mat α rows columns

end LocalMetric
