import LocalMetric.Clustering.Density
import LocalMetric.Clustering.External
import LocalMetric.Clustering.Internal
/-!
# Clusterings of one table of distances

Density clustering is run once for each radius. Every run keeps its labels and their scores, so that
runs can be compared afterwards.
-/
namespace LocalMetric

/-- A clustering with one radius, and its scores. -/
structure Variant (α : Type) where
  radius : α
  minimum : Int
  labels : List Int
  internal : InternalScores α
  /-- The scores against true labels, if they were asked for. -/
  external : Option (ExternalScores α)

/-- What a comparison of clusterings looks at. -/
structure Candidate (α : Type) where
  algorithm : String
  variant : String
  /-- The score by which clusterings compete, if there is one. -/
  selectionValue : Option α
  /-- The scores against true labels. -/
  evaluation : List (String × Json α) := []

def Candidate.ofJson? {α : Type} [Scalar α] (v : Json α) : Option (Candidate α) := do
  let value ← match v.get? "selection_value" with
    | none | some .null => some none
    | some value => value.number?.map some
  return {
    algorithm := ← (← v.get? "algorithm").string?
    variant := ← (← v.get? "variant").string?
    selectionValue := value
    evaluation := match v.get? "partition_offline_metrics" with
      | some (.obj fields) => fields
      | _ => [] }

namespace Variant

variable {α : Type}

def algorithm : String := "dbscan"

def name [Numeral α] (v : Variant α) : String :=
  s!"dbscan_eps{Numeral.brief v.radius}_min{v.minimum}"

def candidate [Numeral α] (v : Variant α) : Candidate α where
  algorithm := algorithm
  variant := v.name
  selectionValue := v.internal.silhouette
  evaluation := (v.external.map ExternalScores.fields).getD []

def toJson [Numeral α] (v : Variant α) : Json α :=
  .obj [("algorithm", .str algorithm), ("variant", .str v.name), ("eps", .num v.radius),
    ("min_samples", .int v.minimum), ("labels_pred", .arr (v.labels.map .int)),
    ("selection_value", .ofNum? v.internal.silhouette),
    ("cluster_sizes", clusterSizesJson v.labels),
    ("partition_internal_metrics", v.internal.toJson),
    ("partition_offline_metrics", match v.external with
      | some scores => .obj scores.fields
      | none => .null)]

end Variant

namespace Clustering

variable {α : Type} [Scalar α]

def square : Tensor α → Checked α ((n : Nat) × Mat α n n)
  | ⟨[m, n], d⟩ =>
    if h : m = n then .ok ⟨n, h ▸ d⟩ else .error (.distancesNotSquare [m, n])
  | ⟨shape, _⟩ => .error (.distancesNotSquare shape)

/-- The labels of one clustering. The radius has to be a positive number and the minimum at least
one; there have to be points, and no distance may be negative or unknown. -/
def labels {n : Nat} (d : Mat α n n) (radius : α) (minimum : Int) : Checked α (List Int) :=
  if ¬(0 < radius ∧ Scalar.isFinite radius ∧ 1 ≤ minimum) then .error .clusteringParameters
  else if n = 0 ∨ ¬(d.allFinite ∧ d.entries.all fun x => decide (0 ≤ x)) then
    .error .unusableDistances
  else .ok (Density.labels d radius minimum.toNat).toList

def variant [Numeral α] (distances : Tensor α) {n : Nat} (d : Mat α n n)
    (truth : Option (DataArray α)) (minimum : Int) (evaluate : Bool) (radius : α) :
    Checked α (Variant α) := do
  let labels ← labels d radius minimum
  let internal ← internalScores distances labels
  let external ← if evaluate then some <$> externalScores truth labels else pure none
  return { radius, minimum, labels, internal, external }

def run [Numeral α] (distances : Tensor α) (truth : Option (DataArray α)) (radii : List α)
    (minimum : Int) (evaluate : Bool) : Checked α (List (Variant α)) := do
  let ⟨_, d⟩ ← square distances
  radii.mapM (variant distances d truth minimum evaluate)

end Clustering

end LocalMetric
