import LocalMetric.Linear.Tensor
import LocalMetric.Pca.Config
/-!
# Neighborhoods and their scatter

A neighborhood is an anchor and at least one point of the same dimension, all finite. Its scatter
matrix is the mean of the products of the deviations from a center. The points are checked on their
own before there is an anchor.
-/
namespace LocalMetric

/-- At least one point of at least one entry. -/
structure Cloud (α : Type) where
  count : Nat
  dim : Nat
  points : Mat α count dim
  nonempty : 0 < count ∧ 0 < dim

/-- An anchor and the points around it. -/
structure Neighborhood (α : Type) [Scalar α] extends Cloud α where
  anchor : Vector α dim
  anchor_finite : anchor.all Scalar.isFinite = true
  points_finite : points.allFinite = true

namespace Cloud

variable {α : Type}

def ofMat {count dim : Nat} (points : Mat α count dim) : Checked α (Cloud α) :=
  if hpos : 0 < count ∧ 0 < dim then .ok ⟨count, dim, points, hpos⟩
  else .error .emptyNeighborhood

/-- The points in an array. An array of one axis is a single point. -/
def ofTensor : Tensor α → Checked α (Cloud α)
  | ⟨[dim], point⟩ => ofMat (#v[point] : Mat α 1 dim)
  | ⟨[_, _], rows⟩ => ofMat rows
  | ⟨shape, entries⟩ =>
    if Tensor.size ⟨shape, entries⟩ = 0 then .error .emptyNeighborhood
    else .error (.neighborhoodRank shape)

variable [Scalar α]

/-- The points around an anchor, which is given by its entries. -/
def around (c : Cloud α) (anchor : List α) : Checked α (Neighborhood α) :=
  if hdim : anchor.length = c.dim then
    let anchor : Vector α c.dim := ⟨anchor.toArray, by simpa using hdim⟩
    if hfin : c.points.allFinite = true ∧ anchor.all Scalar.isFinite = true then
      .ok ⟨c, anchor, hfin.2, hfin.1⟩
    else .error .neighborhoodNotFinite
  else .error (.anchorMismatch anchor.length c.dim)

end Cloud

namespace Neighborhood

variable {α : Type} [Scalar α]

/-- Checks an array of points and an anchor of any shape. -/
def ofTensors (anchor points : Tensor α) : Checked α (Neighborhood α) := do
  (← Cloud.ofTensor points).around anchor.toList

def centroid (s : Neighborhood α) : Vector α s.dim :=
  Vector.ofFn fun j => (sum fun i => s.points.entry i j) / (s.count : α)

def origin (s : Neighborhood α) : Center → Vector α s.dim
  | .centroid => s.centroid
  | .anchor => s.anchor

/-- The differences between the points and a center, one in each row. -/
def deviations (s : Neighborhood α) (center : Center) : Mat α s.count s.dim :=
  let origin := s.origin center
  s.points.map fun point => difference point origin

/-- The mean of the products of the deviations from a center. -/
def scatter (s : Neighborhood α) (center : Center) : Mat α s.dim s.dim :=
  let d := s.deviations center
  Mat.symmetricPart <| Mat.ofFn fun r c =>
    (sum fun i => d.entry i r * d.entry i c) / (s.count : α)

end Neighborhood

/-- The scatter matrix of an array of points about the center with a name. -/
def scatterMatrix {α : Type} [Scalar α] (anchor points : Tensor α) (center : String) :
    Checked α (Grid α) := do
  let s ← Neighborhood.ofTensors anchor points
  return ⟨s.dim, s.dim, s.scatter (← Center.ofName center)⟩

end LocalMetric
