import LocalMetric.Proofs.FirstBests
import LocalMetric.Proofs.JsonTexts
import LocalMetric.Proofs.ResultEntries
import LocalMetric.Run.Preprocess
/-!
# Reports read back

No object in a report has two fields of one name, except perhaps in what describes the preprocessor, which
goes back to what a caller stated. So the rest of a report is read from its file as it was made.
-/
namespace LocalMetric

open Json (AllKept Kept kept_arr kept_obj)

section Parts

theorem kept_ofNum? (x : Option Float) : Kept (.ofNum? x) := by
  cases x <;> rfl

theorem kept_ints (ns : List ℤ) : Kept (.arr (ns.map .int)) := by
  refine kept_arr fun item member => ?_
  obtain ⟨n, _, rfl⟩ := List.mem_map.mp member
  rfl

theorem kept_texts (texts : List String) : Kept (.arr (texts.map .str)) := by
  refine kept_arr fun item member => ?_
  obtain ⟨text, _, rfl⟩ := List.mem_map.mp member
  rfl

theorem natText_injective : Function.Injective (toString : ℕ → String) := by
  intro i j same
  have whole : toString (i : ℤ) = toString (j : ℤ) := same
  exact Int.ofNat.inj (toString_injective whole)

theorem DimensionSummary.kept_toJson (s : DimensionSummary Float) : Kept s.toJson := by
  have names : ["n_points", "dimensionality", "mean_correlation_dimension", "histogram"].Nodup := by
    decide
  have histogram : Kept (.obj (s.histogram.mapIdx fun i (count : ℕ) =>
      (toString (i + 1), .int count))) := by
    refine kept_obj ?_ fun field member => ?_
    · rw [List.mapIdx_eq_ofFn, List.map_ofFn, List.nodup_ofFn]
      refine fun i j same => Fin.ext ?_
      exact Nat.succ_injective (natText_injective same)
    · obtain ⟨i, _, rfl⟩ := List.mem_mapIdx.mp member
      rfl
  exact kept_obj names (.cons rfl (.cons rfl (.cons (kept_ofNum? _) (.cons histogram .nil))))

theorem kept_clusterSizesJson (labels : List ℤ) : Kept (clusterSizesJson labels) := by
  rw [clusterSizesJson_eq]
  refine kept_obj ?_ fun field member => ?_
  · rw [List.map_map]
    exact nodup_namedSizes labels
  · obtain ⟨_, _, rfl⟩ := List.mem_map.mp member
    rfl

theorem InternalScores.kept_toJson (s : InternalScores Float) : Kept s.toJson := by
  have names : ["n_clusters_excluding_noise", "noise_fraction", "silhouette"].Nodup := by decide
  exact kept_obj names (.cons rfl (.cons rfl (.cons (kept_ofNum? _) .nil)))

theorem ExternalScores.allKept_fields (s : ExternalScores Float) : AllKept s.fields :=
  .cons (kept_ofNum? _) (.cons (kept_ofNum? _) (.cons (kept_ofNum? _)
    (.cons (kept_ofNum? _) .nil)))

theorem ExternalScores.kept_fields (s : ExternalScores Float) : Kept (.obj s.fields) := by
  have names : ["adjusted_rand", "normalized_mutual_info", "homogeneity", "v_measure"].Nodup := by
    decide
  exact kept_obj names s.allKept_fields

theorem Variant.kept_toJson (v : Variant Float) : Kept v.toJson := by
  have names : ["algorithm", "variant", "eps", "min_samples", "labels_pred", "selection_value",
      "cluster_sizes", "partition_internal_metrics", "partition_offline_metrics"].Nodup := by decide
  refine kept_obj names (.cons rfl (.cons rfl (.cons rfl (.cons rfl (.cons (kept_ints _)
    (.cons (kept_ofNum? _) (.cons (kept_clusterSizesJson _)
      (.cons v.internal.kept_toJson (.cons ?_ .nil)))))))))
  cases v.external with
  | none => rfl
  | some scores => exact scores.kept_fields

theorem Variant.allKept_evaluation (v : Variant Float) : AllKept v.candidate.evaluation := by
  rw [candidate]
  cases v.external with
  | none => exact .nil
  | some scores => exact scores.allKept_fields

namespace Selection

theorem kept_winner (candidates : List (Candidate Float)) : Kept (winner candidates) := by
  have outer : ["metric", "winner"].Nodup := by decide
  have inner : ["algorithm", "variant", "selection_value"].Nodup := by decide
  rw [winner]
  cases firstBest Candidate.selectionValue candidates with
  | none => rfl
  | some best =>
      refine kept_obj outer (.cons rfl (.cons ?_ .nil))
      exact kept_obj inner (.cons rfl (.cons rfl (.cons (kept_ofNum? _) .nil)))

theorem kept_bestAgreement {candidates : List (Candidate Float)}
    (kept : ∀ c ∈ candidates, AllKept c.evaluation) : Kept (bestAgreement candidates) := by
  rw [bestAgreement]
  refine kept_obj (List.nodup_singleton _) (.cons ?_ .nil)
  cases chosen : firstBest adjustedRand candidates with
  | none => rfl
  | some best =>
      refine kept_obj (nodup_mergeEntries _) fun field member => ?_
      have named : AllKept [("algorithm", .str best.algorithm), ("variant", .str best.variant)] :=
        .cons rfl (.cons rfl .nil)
      rcases List.mem_append.mp (mem_of_mem_mergeEntries member) with known | scored
      · exact named field known
      · exact kept best (mem_of_firstBest chosen).1 field scored

end Selection

end Parts

section Reports

variable {name : String}

/-- Apart from the description of the preprocessor, the report of a clustering run is read as it was
made. -/
theorem Cluster.get?_merged_report (r : Request Float) (f : Findings Float)
    (other : name ≠ "preprocessor") : (report r f).merged.get? name = (report r f).get? name := by
  have names : ["data_info", "preprocessor", "correlation_dimensions", "distance_computations",
      "unsupervised_selection", "offline_eval", "warnings", "algorithm_results"].Nodup := by decide
  have data : ["n_samples", "n_features", "point_names"].Nodup := by decide
  refine Json.get?_merged_of_ne [_] names ?_ ?_ other
  · exact .cons (kept_obj data (.cons rfl (.cons rfl (.cons (kept_texts _) .nil)))) .nil
  · refine .cons f.dimensions.kept_toJson (.cons rfl (.cons (Selection.kept_winner _)
      (.cons ?_ (.cons (kept_texts _) (.cons ?_ .nil)))))
    · cases r.evaluate with
      | false => exact kept_obj List.nodup_nil .nil
      | true =>
          refine Selection.kept_bestAgreement fun c member => ?_
          obtain ⟨v, _, rfl⟩ := List.mem_map.mp member
          exact v.allKept_evaluation
    · refine kept_arr fun item member => ?_
      obtain ⟨v, _, rfl⟩ := List.mem_map.mp member
      exact v.kept_toJson

/-- So is the report of a preprocessing run. -/
theorem Preprocess.get?_merged_report (time : Instant) (r : RunRequest Float)
    (bundle : FeatureBundle Float) (computed : ℕ) (p : Preprocessor Float)
    (dimensions : DimensionSummary Float) (other : name ≠ "preprocessor") :
    (report time r bundle computed p dimensions).merged.get? name =
      (report time r bundle computed p dimensions).get? name := by
  have names : ["timestamp_utc", "feature_file", "shape", "n_computed", "preprocessor",
      "correlation_dimensions"].Nodup := by decide
  refine Json.get?_merged_of_ne [_, _, _, _] names ?_ ?_ other
  · exact .cons rfl (.cons rfl (.cons (kept_ints [_, _]) (.cons rfl .nil)))
  · exact .cons dimensions.kept_toJson .nil

end Reports

end LocalMetric
