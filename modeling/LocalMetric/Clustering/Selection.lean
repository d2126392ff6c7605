import LocalMetric.Clustering.Variant
/-!
# Choosing among clusterings

Which radii are tried, and which of the resulting clusterings wins. Of equal values the first one
wins.
-/
namespace LocalMetric.Selection

variable {α : Type} [Scalar α]

/-- The first item with the largest value; items without a value do not take part. An incomparable
value is beaten by none and beats none. -/
def firstBest {β : Type} (value : β → Option α) (items : List β) : Option β :=
  match items.filterMap fun item => (value item).map (item, ·) with
  | [] => none
  | first :: rest =>
    some (rest.foldl (fun best item => if best.2 < item.2 then item else best) first).1

/-- The radii worth trying, each once and in ascending order: those that are not zero or less. -/
def usableRadii (radii : List α) : List α :=
  ((radii.filter fun r => !decide (r ≤ 0)).eraseDups).mergeSort fun r s => decide (r ≤ s)

/-- A warning for each radius that is left out. -/
def radiusWarnings [Numeral α] (radii : List α) : List String :=
  (radii.filter fun r => decide (r ≤ 0)).map fun r =>
    s!"Ignoring invalid eps={Numeral.exact r}; must be >0"

/-- The candidate with the largest selection value, as a report shows it. -/
def winner (candidates : List (Candidate α)) : Json α :=
  match firstBest Candidate.selectionValue candidates with
  | none => .null
  | some best => .obj [("metric", .str "silhouette"), ("winner", .obj [
      ("algorithm", .str best.algorithm), ("variant", .str best.variant),
      ("selection_value", .ofNum? best.selectionValue)])]

def adjustedRand (c : Candidate α) : Option α :=
  match findEntry "adjusted_rand" c.evaluation with
  | some (.num x) => some x
  | some (.int n) => some (Scalar.ofInt n)
  | _ => none

/-- The candidate that agrees best with the true labels, as a report shows it. -/
def bestAgreement (candidates : List (Candidate α)) : Json α :=
  .obj [("best_partition_model_by_ari", match firstBest adjustedRand candidates with
    | none => .null
    | some best => .obj (mergeEntries
        ([("algorithm", .str best.algorithm), ("variant", .str best.variant)] ++ best.evaluation)))]

end LocalMetric.Selection
