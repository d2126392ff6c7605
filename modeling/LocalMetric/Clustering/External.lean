import LocalMetric.Json.Basic
import LocalMetric.Linear.DataArray
/-!
# Scores of a clustering against true labels

The adjusted Rand score compares the pairs of points that each labelling keeps together; the others
compare the information in the two labellings. Labels matter only in so far as they are equal.
-/
namespace LocalMetric

/-- Scores against true labels; none of them without true labels. -/
structure ExternalScores (α : Type) where
  adjustedRand : Option α := none
  mutualInformation : Option α := none
  homogeneity : Option α := none
  vMeasure : Option α := none

def ExternalScores.fields {α : Type} (s : ExternalScores α) : List (String × Json α) :=
  [("adjusted_rand", .ofNum? s.adjustedRand),
    ("normalized_mutual_info", .ofNum? s.mutualInformation),
    ("homogeneity", .ofNum? s.homogeneity), ("v_measure", .ofNum? s.vMeasure)]

namespace External

/-- How many ordered pairs of different positions both labellings keep together, only one of them
keeps together, and both keep apart. -/
structure PairCounts where
  together : Nat
  firstOnly : Nat
  secondOnly : Nat
  apart : Nat

/-- Counts the ordered pairs by whether the first and the second labels agree. -/
def countPairs (labels : List (Int × Int)) (first second : Bool) : Nat :=
  let alike (x y : Int × Int) : Bool := (x.1 == y.1) == first && (x.2 == y.2) == second
  let total := labels.foldl (fun count x => count + labels.countP (alike x)) 0
  if first && second then total - labels.length else total

def pairCounts (labels : List (Int × Int)) : PairCounts :=
  ⟨countPairs labels true true, countPairs labels true false, countPairs labels false true,
    countPairs labels false false⟩

variable {α : Type} [Scalar α]

/-- The adjusted Rand score: one if no pair is treated differently. -/
def adjustedRand (labels : List (Int × Int)) : α :=
  let c := pairCounts labels
  if c.firstOnly = 0 ∧ c.secondOnly = 0 then 1 else
    let both : α := c.together
    let first : α := c.firstOnly
    let second : α := c.secondOnly
    let apart : α := c.apart
    (1 + 1) * (both * apart - first * second) /
      ((both + first) * (first + apart) + (both + second) * (second + apart))

def classes {β : Type} [BEq β] (labels : List β) : List β := labels.eraseDups

/-- What a class adds to the entropy, negated: its share of the labels times the logarithm of it. -/
def entropyTerm (labels : List Int) (c : Int) : α :=
  let k : α := labels.count c
  let n : α := labels.length
  k / n * (Scalar.log k - Scalar.log n)

/-- The entropy of a labelling; zero for a single class. -/
def entropy (labels : List Int) : α :=
  let cs := classes labels
  if cs.length ≤ 1 then 0 else -listSum (cs.map (entropyTerm labels))

/-- The mutual information of two labellings; zero if one of them has a single class. -/
def mutualInformation (labels : List (Int × Int)) : α :=
  let firsts := labels.map (·.1)
  let seconds := labels.map (·.2)
  if (classes firsts).length ≤ 1 ∨ (classes seconds).length ≤ 1 then 0 else
    let n : α := labels.length
    let term (pair : Int × Int) : α :=
      let k : α := labels.count pair
      let expected : α := (firsts.count pair.1 * seconds.count pair.2 : Nat)
      k / n * (Scalar.log k - Scalar.log n) +
        k / n * (Scalar.log n + Scalar.log n - Scalar.log expected)
    Scalar.nonNegative (listSum ((classes labels).map term))

/-- The mutual information as a share of the mean of the entropies. -/
def normalizedMutualInformation (labels : List (Int × Int)) : α :=
  let first := (classes (labels.map (·.1))).length
  let second := (classes (labels.map (·.2))).length
  if first ≤ 1 ∧ second ≤ 1 then 1 else
    let shared : α := mutualInformation labels
    if shared ≤ 2.220446049250313e-16 then 0
    else shared / ((entropy (labels.map (·.1)) + entropy (labels.map (·.2))) / (1 + 1))

/-- The mutual information as a share of an entropy; one if there is no entropy. -/
def share (labels : List (Int × Int)) (entropy : α) : α :=
  if entropy == 0 then 1 else mutualInformation labels / entropy

def harmonicMean (x y : α) : α := if x + y == 0 then 0 else (1 + 1) * x * y / (x + y)

def scores (labels : List (Int × Int)) : ExternalScores α :=
  let homogeneity := share labels (entropy (labels.map (·.1)))
  let completeness := share labels (entropy (labels.map (·.2)))
  { adjustedRand := some (adjustedRand labels)
    mutualInformation := some (normalizedMutualInformation labels)
    homogeneity := some homogeneity
    vMeasure := some (harmonicMean homogeneity completeness) }

end External

/-- The scores of a clustering against the true labels, which come one for each point. Without true
labels there are no scores. -/
def externalScores {α : Type} [Scalar α] [Numeral α] (truth : Option (DataArray α))
    (labels : List Int) : Checked α (ExternalScores α) :=
  match truth with
  | none => .ok {}
  | some truth => do
    if truth.shape ≠ [labels.length] then throw .unusableLabels
    return External.scores ((← truth.classes).zip labels)

end LocalMetric
