import LocalMetric.Linear.Tensor
/-!
# Point sets

Points with distinct integer ids. Identity is the id: two points may share a vector. Neighbors are
found by Euclidean distance, the nearest first, and points at equal distances stay in the order of
their rows.
-/
namespace LocalMetric

/-- At least one finite vector of at least one entry, each with an id of its own. -/
structure PointSet (α : Type) [Scalar α] where
  size : Nat
  dim : Nat
  vectors : Mat α size dim
  ids : Vector Int size
  nonempty : 0 < size ∧ 0 < dim
  ids_nodup : ids.toList.Nodup
  vectors_finite : vectors.allFinite = true

namespace PointSet

variable {α : Type} [Scalar α]

/-- The ids of points that were given none: the numbers of their rows. -/
def rowNumbers (n : Nat) : List Int := (List.range n).map Int.ofNat

def ofMat {m n : Nat} (vectors : Mat α m n) (ids : Option (List Int)) : Checked α (PointSet α) :=
  if hpos : 0 < m ∧ 0 < n then
    if hfin : vectors.allFinite = true then
      let given := ids.getD (rowNumbers m)
      if hlen : given.length = m then
        if hnodup : given.Nodup then
          .ok ⟨m, n, vectors, ⟨given.toArray, by simpa using hlen⟩, hpos,
            by simpa using hnodup, hfin⟩
        else .error .idsNotUnique
      else .error (.idCount given.length m)
    else .error .vectorsNotFinite
  else .error (.vectorsEmpty [m, n])

/-- The point set of an array of two axes. Without ids the points are numbered by their rows. -/
def ofTensor (vectors : Tensor α) (ids : Option (List Int)) : Checked α (PointSet α) :=
  match vectors with
  | ⟨[_, _], a⟩ => ofMat a ids
  | ⟨shape, _⟩ => .error (.vectorsRank shape)

def rowOf? (s : PointSet α) (id : Int) : Option (Fin s.size) := s.ids.finIdxOf? id

def contains (s : PointSet α) (id : Int) : Bool := (s.rowOf? id).isSome

/-- The row of a point, or the fault that there is none. -/
def row (s : PointSet α) (id : Int) : Checked α (Fin s.size) :=
  match s.rowOf? id with
  | some i => .ok i
  | none => .error (.unknownPoint id)

def vector (s : PointSet α) (id : Int) : Checked α (Vector α s.dim) :=
  (s.row id).map s.vectors.get

def rows (s : PointSet α) (ids : List Int) : Checked α (List (Vector α s.dim)) := ids.mapM s.vector

/-- The rows of an array that holds the vectors of several points. -/
def stacked (s : PointSet α) (ids : List Int) : Checked α (Tensor α) := do
  let vectors ← s.rows ids
  return ⟨[vectors.length, s.dim], (⟨vectors.toArray, by simp⟩ : Mat α vectors.length s.dim)⟩

def squaredDistances (s : PointSet α) (i : Fin s.size) : Vector α s.size :=
  s.vectors.map fun v => squaredNorm (difference v (s.vectors.get i))

/-- All rows, the nearest to a row first. -/
def byDistance (s : PointSet α) (i : Fin s.size) : List (Fin s.size) :=
  let d := s.squaredDistances i
  (List.finRange s.size).mergeSort fun a b => decide (d.get a ≤ d.get b)

/-- The ids of the `k` nearest points to a point, or of all if there are fewer. -/
def nearest (s : PointSet α) (id : Int) (k : Int) : Checked α (List Int) :=
  if k ≤ 0 then .error (.neighborCountNotPositive (.int k))
  else (s.row id).map fun i => ((s.byDistance i).take k.toNat).map s.ids.get

/-- The ids of the nearest points to a point, as many as are stated. A count that is no integer is
refused unless there are fewer points. -/
def nearestStated (s : PointSet α) (id : Int) (k : Quantity α) : Checked α (List Int) :=
  if k.isNonPositive then .error (.neighborCountNotPositive k)
  else do
    let _ ← s.row id
    match (k.capped s.size).whole? with
    | some count => s.nearest id count
    | none => .error .neighborCountNotWhole

/-- The ids of the points at most a radius away from a point, the nearest first. The squares are
compared, so a point whose distance is the radius only after rounding need not be among them. -/
def within (s : PointSet α) (id : Int) (radius : α) : Checked α (List Int) :=
  if radius < 0 then .error (.negativeRadius radius)
  else (s.row id).map fun i =>
    let d := s.squaredDistances i
    ((s.byDistance i).filter fun j => decide (d.get j ≤ radius * radius)).map s.ids.get

end PointSet

end LocalMetric
