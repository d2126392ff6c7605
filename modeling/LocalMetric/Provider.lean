import LocalMetric.PointSet
/-!
# Neighborhood providers

A provider chooses the points around a point that its local analysis looks at. The point itself is
among its nearest points, so both standard providers include it.
-/
namespace LocalMetric

/-- Chooses the points around each point of a set. -/
structure Provider (α : Type) [Scalar α] where
  /-- The points around the point with an id, one in each row. -/
  points : PointSet α → Int → Checked α (Tensor α)
  /-- How a report describes the provider. -/
  description : Json α
  /-- How many neighbors are asked for in a point set, if that does not depend on the point. -/
  neighborCount : Option (PointSet α → Quantity α) := none

namespace Provider

variable {α : Type} [Scalar α]

/-- How many neighbors to ask for: the stated number, or three for each dimension, but no more than
there are points. -/
def countIn (k : Option (Quantity α)) (s : PointSet α) : Quantity α :=
  (k.getD (.int (3 * s.dim))).capped s.size

/-- The `k` nearest points. -/
def nearest (k : Option (Quantity α)) : Checked α (Provider α) :=
  match k with
  | some n => if n.isNonPositive then .error (.neighborCountNotPositive n) else .ok provider
  | none => .ok provider
where
  provider : Provider α :=
    { points := fun s id => do s.stacked (← s.nearestStated id (countIn k s))
      description := .obj [("type", .str "knn"), ("k", (k.map Quantity.toJson).getD .null)]
      neighborCount := some (countIn k) }

def within (radius : α) : Checked α (Provider α) :=
  if radius < 0 then .error (.negativeRadius radius)
  else .ok
    { points := fun s id => do s.stacked (← s.within id radius)
      description := .obj [("type", .str "range"), ("epsilon", .num radius)] }

end Provider

end LocalMetric
