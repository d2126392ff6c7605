import LocalMetric.Associations
import LocalMetric.Distance.Quadratic
import LocalMetric.Pca.Basic
import LocalMetric.PointSet
/-!
# Databases

A point set together with what is associated with its points. The points never change; the
associations are what preprocessing computes and distances read.
-/
namespace LocalMetric

/-- A value associated with a point: the outcome of a local analysis, or anything else. -/
inductive Associated (α : Type) where
  | localPca (outcome : LocalPca α)
  | other (value : Json α)

structure Database (α : Type) [Scalar α] where
  points : PointSet α
  associations : Associations (Associated α) := {}

namespace Database

variable {α : Type} [Scalar α]

def ids (db : Database α) : List Int := db.points.ids.toList

def associate (db : Database α) (kind : Kind) (id : Int) (value : Associated α) :
    Checked α (Database α) :=
  (db.points.row id).map fun _ => { db with associations := db.associations.set kind id value }

/-- The outcome of the local analysis stored for a point. -/
def outcome (db : Database α) (id : Int) : Checked α (LocalPca α) := do
  match ← db.associations.get .localPca id with
  | .localPca r => return r
  | .other _ => throw (.noWeightMatrix id)

/-- The weight matrix of an outcome, if it fits the dimension of the points. -/
def fitted (n : Nat) (r : LocalPca α) : Checked α (Mat α n n) :=
  match (Tensor.ofMat r.weights).asMat? n n with
  | some a => .ok a
  | none => .error .shapeMismatch

/-- The distance between two points under the weight matrices stored for them. -/
def distance (db : Database α) (p q : Int) : Checked α α := do
  let outcomeP ← db.outcome p
  let outcomeQ ← db.outcome q
  let x ← db.points.vector p
  let y ← db.points.vector q
  return weightedDistance x y (← fitted db.points.dim outcomeP) (← fitted db.points.dim outcomeQ)

/-- A point as the distance matrix sees it: its vector and its weight matrix. -/
structure Site (α : Type) (n : Nat) where
  vector : Vector α n
  weights : Mat α n n

/-- The length of the displacement from one site to another under the first one's weight matrix. -/
def Site.lengthTo {n : Nat} (a b : Site α n) : α :=
  Scalar.sqrt (Scalar.nonNegative (a.weights.quadraticForm (difference a.vector b.vector)))

/-- All distances between sites: the larger of the two lengths, and zero on the diagonal. -/
def pairwise {m n : Nat} (sites : Vector (Site α n) m) : Mat α m m :=
  let directed : Mat α m m := Mat.ofFn fun i j => (sites.get i).lengthTo (sites.get j)
  Mat.ofFn fun i j =>
    if i = j then 0 else Scalar.largerOrNaN (directed.entry i j) (directed.entry j i)

/-- The distances between all pairs of the given points. -/
def distanceMatrix (db : Database α) (ids : List Int) : Checked α (Grid α) := do
  let outcomes ← ids.mapM db.outcome
  let vectors ← db.points.rows ids
  let weights ← outcomes.mapM (fitted db.points.dim)
  let sites := List.zipWith Site.mk vectors weights
  return ⟨sites.length, sites.length, pairwise ⟨sites.toArray, by simp⟩⟩

end Database

end LocalMetric
