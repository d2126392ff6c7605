import LocalMetric.Database
import LocalMetric.Linear.IntegerWidth
/-!
# What is reported about points

A row for each point, and how often each correlation dimension occurs.
-/
namespace LocalMetric

structure PointSummary (α : Type) where
  id : Int
  name : String
  correlationDimension : Nat
  neighborhoodSize : Int
  explainedVarianceRatio : α

/-- How often each correlation dimension occurs among points. -/
structure DimensionSummary (α : Type) where
  points : Nat
  dimensionality : Int
  /-- The mean correlation dimension, if there are points. -/
  mean : Option α
  /-- How many points have the dimension one, two, and so on. -/
  histogram : List Nat

variable {α : Type} [Scalar α]

def PointSummary.fields (s : PointSummary α) : List (String × Json α) :=
  [("point_id", .int s.id), ("point_name", .str s.name),
    ("correlation_dimension", .int s.correlationDimension),
    ("neighborhood_size", .int s.neighborhoodSize),
    ("explained_variance_ratio", .num s.explainedVarianceRatio)]

/-- The rows of the points of a database, with names given in the order of its rows. If there are
more names than points or fewer, the shorter list decides. -/
def summarizePoints (db : Database α) (names : List String) : Checked α (List (PointSummary α)) :=
  (names.zip db.ids).mapM fun (name, id) => do
    let r ← db.outcome id
    return ⟨id, name, r.correlationDimension, r.neighborhoodSize, r.explainedVarianceRatio⟩

/-- Counts correlation dimensions, from one to at least the dimensionality. -/
def DimensionSummary.ofDimensions (dims : List Int) (dimensionality : Int) :
    DimensionSummary α where
  points := dims.length
  dimensionality := dimensionality
  mean := if dims.isEmpty then none
    else some (listSum (dims.map Scalar.ofInt) / (dims.length : α))
  histogram := (List.range (dims.foldl max dimensionality).toNat).map fun d : Nat =>
    dims.count (Int.ofNat (d + 1))

/-- How many counts of eight bytes can be addressed. -/
def addressableCounts : Int := (1 <<< 60 : Nat)

/-- How many counts there is room for. -/
def affordableCounts : Int := (1 <<< 27 : Nat)

/-- Counts dimensions that are only stated. All of them have to fit into sixty-four bits, none may
be negative, and there has to be room for the counts. -/
def summarizeStated (dims : List Int) (dimensionality : Int) : Checked α (DimensionSummary α) :=
  let counts := dims.foldl max dimensionality + 1
  if !((dimensionality + 1) :: dims).all IntegerWidth.long.contains then .error .numberTooLarge
  else if dims.any (· < 0) || dimensionality + 1 < 0 then .error .negativeCounts
  else if addressableCounts ≤ counts then .error .countsNotAddressable
  else if affordableCounts ≤ counts then .error .countsNotAffordable
  else .ok (.ofDimensions dims dimensionality)

def DimensionSummary.toJson (s : DimensionSummary α) : Json α :=
  .obj [("n_points", .int s.points), ("dimensionality", .int s.dimensionality),
    ("mean_correlation_dimension", .ofNum? s.mean),
    ("histogram", .obj (s.histogram.mapIdx fun i (count : Nat) => (toString (i + 1), .int count)))]

def summarizeDimensions (rows : List (PointSummary α)) (dim : Nat) : DimensionSummary α :=
  .ofDimensions (rows.map fun row => row.correlationDimension) dim

end LocalMetric
