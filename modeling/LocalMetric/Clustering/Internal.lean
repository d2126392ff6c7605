import LocalMetric.Json.Basic
import LocalMetric.Linear.Tensor
/-!
# Scores of a clustering by its distances

How many clusters there are, how much is noise, and the silhouette: for each point the mean distance
to its own cluster against that to the nearest other one. Noise counts as one more cluster there.
-/
namespace LocalMetric

structure InternalScores (α : Type) where
  clusters : Nat
  noiseFraction : α
  silhouette : Option α

def InternalScores.toJson {α : Type} (s : InternalScores α) : Json α :=
  .obj [("n_clusters_excluding_noise", .int s.clusters), ("noise_fraction", .num s.noiseFraction),
    ("silhouette", .ofNum? s.silhouette)]

def distinctLabels (labels : List Int) : List Int :=
  (labels.mergeSort fun a b => decide (a ≤ b)).eraseDups

/-- How many points have each label, in ascending order of the labels. -/
def clusterSizes (labels : List Int) : List (Int × Nat) :=
  (distinctLabels labels).map fun c => (c, labels.count c)

def clusterSizesJson {α : Type} (labels : List Int) : Json α :=
  .obj ((clusterSizes labels).map fun (label, (size : Nat)) => (toString label, .int size))

namespace Silhouette

variable {α : Type} [Scalar α] {n : Nat}

def size (labels : Vector Int n) (c : Int) : Nat := labels.toList.count c

/-- The sum of the distances from a point to the points with a label. -/
def distanceTo (d : Mat α n n) (labels : Vector Int n) (i : Fin n) (c : Int) : α :=
  sum fun j => if labels.get j = c then d.entry i j else 0

/-- The smallest of at least one value; an incomparable pair gives the first. -/
def smallest : List α → Option α
  | [] => none
  | x :: xs => some (xs.foldl (fun least y => if y < least then y else least) x)

/-- The score of a point: zero if it is alone or if all it is compared with is at distance zero, and
also if its distances are too large to be compared. -/
def ofPoint (d : Mat α n n) (labels : Vector Int n) (classes : List Int) (i : Fin n) : α :=
  let own := labels.get i
  if size labels own ≤ 1 then 0 else
    let within := distanceTo d labels i own / ((size labels own - 1 : Nat) : α)
    let others := (classes.filter (· ≠ own)).map fun c =>
      distanceTo d labels i c / (size labels c : α)
    match smallest others with
    | none => 0
    | some nearest =>
      let larger := Scalar.larger within nearest
      let score := (nearest - within) / larger
      if larger == 0 ∨ ¬(score == score) then 0 else score

/-- The mean score of the points. -/
def score (d : Mat α n n) (labels : Vector Int n) : α :=
  let classes := distinctLabels labels.toList
  (sum fun i : Fin n => ofPoint d labels classes i) / (n : α)

/-- Whether distances are finite and non-negative, and zero on the diagonal up to rounding. -/
def isUsable (d : Mat α n n) : Bool :=
  (d.allFinite && (d.entries.all fun x => decide (0 ≤ x))) &&
    (List.finRange n).all fun i => decide (Scalar.abs (d.entry i i) ≤ 2.220446049250313e-14)

/-- The score of a clustering, unless the distances and labels do not allow one. -/
def score? (distances : Tensor α) (labels : List Int) : Option α :=
  (distances.asMat? labels.length labels.length).bind fun d =>
    if isUsable d then some (score d ⟨labels.toArray, by simp⟩) else none

end Silhouette

/-- The scores of a clustering. The silhouette takes at least two labels, and fewer than points. -/
def internalScores {α : Type} [Scalar α] (distances : Tensor α) (labels : List Int) :
    Checked α (InternalScores α) :=
  match distances.shape with
  | [] => .error .missingAxis
  | rows :: _ =>
    let classes := distinctLabels labels
    .ok {
      clusters := (classes.filter (0 ≤ ·)).length
      noiseFraction := if rows = 0 then 0 else
        ((labels.filter (· < 0)).length : α) / (labels.length : α)
      silhouette := if 2 ≤ classes.length ∧ classes.length < rows
        then Silhouette.score? distances labels else none }

end LocalMetric
