import Mathlib.Algebra.Order.Field.Basic
import LocalMetric.Proofs.Ascending
import LocalMetric.Proofs.FirstBests
import LocalMetric.Proofs.GrowingRadii
/-!
# What an entry of the results says

The sizes of the clusters, the share of noise, the number of clusters and the silhouette of an entry are
all computed from its labels, each on its own, and they agree. The silhouette is a mean of numbers from
minus one to one. Entries compete by it, and of the best ones the first wins.
-/
namespace LocalMetric

section Counts

variable {labels : List Int}

theorem mem_distinctLabels {c : Int} : c ∈ distinctLabels labels ↔ c ∈ labels := by
  rw [distinctLabels, List.mem_eraseDups, List.mem_mergeSort]

theorem nodup_distinctLabels (labels : List Int) : (distinctLabels labels).Nodup := by
  refine (distinguished_eraseDups _).apart.imp ?_
  intro x y apart same
  rw [same, beq_self_eq_true] at apart
  cases apart

theorem toFinset_distinctLabels (labels : List Int) :
    (distinctLabels labels).toFinset = labels.toFinset := by
  ext c
  rw [List.mem_toFinset, List.mem_toFinset, mem_distinctLabels]

theorem length_distinctLabels (labels : List Int) :
    (distinctLabels labels).length = labels.toFinset.card := by
  rw [← toFinset_distinctLabels, List.toFinset_card_of_nodup (nodup_distinctLabels labels)]

theorem sum_count_distinctLabels (labels : List Int) :
    ((distinctLabels labels).map labels.count).sum = labels.length := by
  have same : (distinctLabels labels).Perm labels.dedup := by
    refine (List.perm_ext_iff_of_nodup (nodup_distinctLabels labels) labels.nodup_dedup).mpr ?_
    intro c
    rw [mem_distinctLabels, List.mem_dedup]
  rw [(same.map _).sum_eq]
  exact List.sum_map_count_dedup_eq_length labels

end Counts

section Silhouettes

variable {n : ℕ} {d : Mat ℝ n n} {labels : Vector Int n} {classes : List Int} {i : Fin n}

/-- The difference of two non-negative numbers is at most the larger one. -/
theorem sub_div_max_mem {x y : ℝ} (hx : 0 ≤ x) (hy : 0 ≤ y) :
    (y - x) / max x y ∈ Set.Icc (-1) 1 := by
  have nonneg : 0 ≤ max x y := le_max_of_le_left hx
  rw [Set.mem_Icc, ← abs_le, abs_div, abs_of_nonneg nonneg]
  exact div_le_one_of_le₀
    (abs_sub_le_of_nonneg_of_le hy (le_max_right x y) hx (le_max_left x y)) nonneg

namespace Silhouette

theorem distanceTo_nonneg (distances : d.Distances) (labels : Vector Int n) (i : Fin n) (c : Int) :
    0 ≤ distanceTo d labels i c := by
  rw [distanceTo, sum_eq]
  refine Finset.sum_nonneg fun j _ => ?_
  split
  · exact distances.nonneg i j
  · exact le_rfl

theorem smallest_mem {xs : List ℝ} {x : ℝ} (least : smallest xs = some x) : x ∈ xs := by
  cases xs with
  | nil => cases least
  | cons first rest =>
      rw [← Option.some.inj least]
      exact Selection.foldl_mem (fun a b => by split <;> simp) rest first

theorem ofPoint_mem (distances : d.Distances) (labels : Vector Int n) (classes : List Int) (i : Fin n) :
    ofPoint d labels classes i ∈ Set.Icc (-1) 1 := by
  have middle : (0 : ℝ) ∈ Set.Icc (-1 : ℝ) 1 := ⟨by norm_num, zero_le_one⟩
  rw [ofPoint]
  split
  · exact middle
  · simp only
    split
    · exact middle
    · rename_i nearest least
      obtain ⟨c, _, other⟩ := List.mem_map.mp (smallest_mem least)
      have within : 0 ≤ distanceTo d labels i (labels.get i) /
          ((size labels (labels.get i) - 1 : ℕ) : ℝ) :=
        div_nonneg (distanceTo_nonneg distances labels i _) (Nat.cast_nonneg _)
      have nonneg : 0 ≤ nearest :=
        other ▸ div_nonneg (distanceTo_nonneg distances labels i c) (Nat.cast_nonneg _)
      split
      · exact middle
      · rw [Scalar.larger_eq_max]
        exact sub_div_max_mem within nonneg

/-- The mean of the scores of the points lies between the same bounds. -/
theorem score_mem (distances : d.Distances) (labels : Vector Int n) :
    score d labels ∈ Set.Icc (-1) 1 := by
  have each (i : Fin n) : |ofPoint d labels (distinctLabels labels.toList) i| ≤ 1 :=
    abs_le.mpr (ofPoint_mem distances labels _ i)
  have total : |∑ i, ofPoint d labels (distinctLabels labels.toList) i| ≤ n := by
    refine (Finset.abs_sum_le_sum_abs _ _).trans ((Finset.sum_le_sum fun i _ => each i).trans_eq ?_)
    rw [Finset.sum_const, Finset.card_univ, Fintype.card_fin, nsmul_eq_mul, mul_one]
  rw [score, sum_eq, Set.mem_Icc, ← abs_le, abs_div, Nat.abs_cast]
  exact div_le_one_of_le₀ total (Nat.cast_nonneg n)

theorem mem_of_score? (distances : d.Distances) {labels : List Int} (length : labels.length = n) {x : ℝ}
    (scored : score? (.ofMat d) labels = some x) : x ∈ Set.Icc (-1) 1 := by
  subst length
  have square : (Tensor.ofMat d).asMat? labels.length labels.length = some d := dif_pos ⟨rfl, rfl⟩
  rw [score?, square, Option.bind_some, if_pos distances.isUsable] at scored
  exact Option.some.inj scored ▸ score_mem distances _

end Silhouette

end Silhouettes

section Names

variable {labels : List Int}

theorem toString_injective : Function.Injective (toString : Int → String) := by
  intro x y same
  exact Int.repr_injective same

theorem toString_noise : toString (-1 : Int) = "-1" := rfl

theorem findEntry_map {β : Type} (f : Int → β) (xs : List Int) (c : Int) :
    findEntry (toString c) (xs.map fun x => (toString x, f x)) =
      if c ∈ xs then some (f c) else none := by
  induction xs with
  | nil => rfl
  | cons x xs ih =>
      by_cases same : x = c
      · subst same
        rw [List.map_cons, findEntry, if_pos (beq_self_eq_true _), if_pos List.mem_cons_self]
      · have apart : ¬(toString x == toString c) = true := by
          rw [beq_iff_eq]
          exact fun equal => same (toString_injective equal)
        rw [List.map_cons, findEntry, if_neg apart, ih]
        simp only [List.mem_cons, Ne.symm same, false_or]

def namedSizes (labels : List Int) : List (String × ℕ) :=
  (distinctLabels labels).map fun c => (toString c, labels.count c)

theorem clusterSizesJson_eq {α : Type} (labels : List Int) : (clusterSizesJson labels : Json α) =
    .obj ((namedSizes labels).map fun entry => (entry.1, .int entry.2)) := by
  rw [clusterSizesJson, clusterSizes, namedSizes, List.map_map, List.map_map]
  rfl

theorem nodup_namedSizes (labels : List Int) : ((namedSizes labels).map Prod.fst).Nodup := by
  rw [namedSizes, List.map_map]
  exact (nodup_distinctLabels labels).map toString_injective

theorem pos_of_mem_namedSizes {entry : String × ℕ} (member : entry ∈ namedSizes labels) :
    0 < entry.2 := by
  obtain ⟨c, there, rfl⟩ := List.mem_map.mp member
  exact List.count_pos_iff.mpr (mem_distinctLabels.mp there)

theorem sum_namedSizes (labels : List Int) :
    ((namedSizes labels).map Prod.snd).sum = labels.length := by
  rw [namedSizes, List.map_map]
  exact sum_count_distinctLabels labels

theorem findEntry_namedSizes (labels : List Int) (c : Int) :
    (findEntry (toString c) (namedSizes labels)).getD 0 = labels.count c := by
  rw [namedSizes, findEntry_map]
  split
  · rfl
  · rename_i absent
    rw [Option.getD_none, List.count_eq_zero_of_not_mem]
    exact fun there => absent (mem_distinctLabels.mpr there)

/-- Where only noise has a negative label, the clusters are counted under all names but one. -/
theorem length_clusters (noise : ∀ c ∈ labels, c < 0 → c = -1) :
    ((distinctLabels labels).filter (0 ≤ ·)).length =
      ((namedSizes labels).filter (·.1 ≠ "-1")).length := by
  rw [namedSizes, List.filter_map, List.length_map]
  refine congrArg List.length (List.filter_congr fun c member => ?_)
  rw [Function.comp_apply, decide_eq_decide]
  have named : toString c = "-1" ↔ c = -1 := toString_injective.eq_iff' toString_noise
  rw [ne_eq, named]
  have only := noise c (mem_distinctLabels.mp member)
  omega

theorem length_noise (noise : ∀ c ∈ labels, c < 0 → c = -1) :
    (labels.filter (· < 0)).length = labels.count (-1) := by
  rw [← List.countP_eq_length_filter, List.count]
  refine List.countP_congr fun c member => ?_
  rw [decide_eq_true_iff, beq_iff_eq]
  constructor
  · exact noise c member
  · rintro rfl
    decide

end Names

section Entries

variable {n : ℕ} {d : Mat ℝ n n} {labels : List Int} {scores : InternalScores ℝ}

theorem clusters_of_internalScores (scored : internalScores (.ofMat d) labels = .ok scores) :
    scores.clusters = ((distinctLabels labels).filter (0 ≤ ·)).length := by
  cases scored
  rfl

/-- There is a silhouette unless all labels are equal or all are different. -/
theorem silhouette_eq_none_iff (distances : d.Distances) (length : labels.length = n)
    (scored : internalScores (.ofMat d) labels = .ok scores) :
    scores.silhouette = none ↔ labels.toFinset.card < 2 ∨ labels.toFinset.card = n := by
  obtain ⟨x, found⟩ := distances.exists_score length
  have bounded : labels.toFinset.card ≤ n := length ▸ labels.toFinset_card_le
  have shown : scores.silhouette = if 2 ≤ labels.toFinset.card ∧ labels.toFinset.card < n then
      some x else none := by
    rw [← length_distinctLabels, ← found]
    cases scored
    rfl
  rw [shown, ite_eq_right_iff]
  simp only [reduceCtorEq, imp_false, not_and_or]
  omega

theorem mem_of_silhouette (distances : d.Distances) (length : labels.length = n)
    (scored : internalScores (.ofMat d) labels = .ok scores) {x : ℝ}
    (known : scores.silhouette = some x) : x ∈ Set.Icc (-1) 1 := by
  cases scored
  simp only at known
  split at known
  · exact Silhouette.mem_of_score? distances length known
  · cases known

variable [Numeral ℝ]

/-- An entry for some points that agrees with itself: the sizes of its clusters are positive and add up
to the number of points, noise has the share that its size says, the clusters are the other ones, and the
value for the selection is missing exactly if all labels are equal or all are different. -/
structure Variant.Consistent (v : Variant ℝ) (n : ℕ) (sizes : List (String × ℕ)) : Prop where
  listed : v.toJson.get? "cluster_sizes" = some (.obj (sizes.map fun entry => (entry.1, .int entry.2)))
  distinct : (sizes.map Prod.fst).Nodup
  positive : ∀ entry ∈ sizes, 0 < entry.2
  total : (sizes.map Prod.snd).sum = n
  noise : v.internal.noiseFraction * n = ((findEntry "-1" sizes).getD 0 : ℕ)
  clusters : v.internal.clusters = (sizes.filter (·.1 ≠ "-1")).length
  absent : v.internal.silhouette = none ↔ v.labels.toFinset.card < 2 ∨ v.labels.toFinset.card = n
  bounded : ∀ x, v.internal.silhouette = some x → x ∈ Set.Icc (-1) 1

theorem Variant.Answers.consistent {radius : ℝ} {minimum : Int} {v : Variant ℝ} (filled : 0 < n)
    (distances : d.Distances) (mirrored : ∀ i j, d.entry i j = d.entry j i)
    (answers : v.Answers (.ofMat d) d minimum radius) : v.Consistent n (namedSizes v.labels) := by
  have clustering : Density.IsClustering d radius minimum.toNat
      (Density.labels d radius minimum.toNat) := Density.isClustering_labels mirrored
  have length : v.labels.length = n := answers.labels_eq ▸ Vector.length_toList
  have noise : ∀ c ∈ v.labels, c < 0 → c = -1 := by
    intro c member negative
    rw [answers.labels_eq, Vector.mem_toList_iff, Vector.mem_iff_getElem] at member
    obtain ⟨i, inside, rfl⟩ := member
    exact clustering.eq_noise_of_neg (p := ⟨i, inside⟩) negative
  constructor
  · exact congrArg some (clusterSizesJson_eq v.labels)
  · exact nodup_namedSizes v.labels
  · exact fun entry member => pos_of_mem_namedSizes member
  · exact (sum_namedSizes v.labels).trans length
  · have points : (n : ℝ) ≠ 0 := Nat.cast_ne_zero.mpr filled.ne'
    rw [noiseFraction_eq (answers.labels_eq ▸ answers.internal_eq), div_mul_cancel₀ _ points,
      ← answers.labels_eq, length_noise noise, ← toString_noise, findEntry_namedSizes]
  · rw [clusters_of_internalScores answers.internal_eq, length_clusters noise]
  · exact silhouette_eq_none_iff distances length answers.internal_eq
  · exact fun x known => mem_of_silhouette distances length answers.internal_eq known

end Entries

section Winners

namespace Selection

variable {candidates : List (Candidate ℝ)}

theorem winner_eq_null_iff :
    winner candidates = .null ↔ ∀ c ∈ candidates, c.selectionValue = none := by
  rw [← firstBest_eq_none_iff, winner]
  cases firstBest Candidate.selectionValue candidates with
  | none => exact iff_of_true rfl rfl
  | some best => exact iff_of_false nofun nofun

/-- Candidates without a value may be put in or left out anywhere. -/
theorem winner_congr {others : List (Candidate ℝ)}
    (same : (candidates.filter fun c => c.selectionValue.isSome) =
      others.filter fun c => c.selectionValue.isSome) : winner candidates = winner others := by
  rw [winner, winner, ← firstBest_filter _ candidates, same, firstBest_filter]

end Selection

variable [Numeral ℝ] {variants : List (Variant ℝ)}

/-- A report shows a clustering that has the largest value of all, and the least radius of those with the
same value. -/
structure Variant.Wins (v : Variant ℝ) (variants : List (Variant ℝ)) (x : ℝ) : Prop where
  member : v ∈ variants
  valued : v.internal.silhouette = some x
  shown : Selection.winner (variants.map candidate) = .obj [("metric", .str "silhouette"),
    ("winner", .obj [("algorithm", .str algorithm), ("variant", .str v.name),
      ("selection_value", .num x)])]
  largest : ∀ w ∈ variants, ∀ y, w.internal.silhouette = some y → y ≤ x
  least : ∀ w ∈ variants, w.internal.silhouette = some x → v.radius ≤ w.radius

/-- An entry is read as the clustering that it describes. -/
theorem Variant.ofJson?_toJson (v : Variant ℝ) : Candidate.ofJson? v.toJson = some v.candidate := by
  obtain ⟨radius, minimum, labels, ⟨clusters, noise, silhouette⟩, external⟩ := v
  cases silhouette with
  | none =>
      cases external with
      | none => rfl
      | some scores => rfl
  | some x =>
      cases external with
      | none => rfl
      | some scores => rfl

theorem Variant.exists_wins (ascending : variants.Pairwise fun v w => v.radius ≤ w.radius)
    (valued : ∃ v ∈ variants, v.internal.silhouette ≠ none) :
    ∃ (v : Variant ℝ) (x : ℝ), v.Wins variants x := by
  obtain ⟨v, x, chosen, best⟩ :=
    @Selection.exists_firstBest_map _ _ Candidate.selectionValue candidate variants valued
  have value : (candidate v).selectionValue = some x := best.valued
  refine ⟨v, x, best.mem, best.valued, ?_, fun w member y => best.le member,
    fun w member => best.key_le ascending member⟩
  rw [Selection.winner, chosen]
  simp only [value]
  rfl

variable {n : ℕ} {d : Mat ℝ n n} {truth : Option (DataArray ℝ)} {minimum : Int} {evaluate : Bool}

/-- Every entry of the results agrees with itself. No clustering is selected exactly if none has a value
for it; else the one with the least radius of those with the largest value is, and the others without a
value have no part in it. -/
theorem result_entries_consistent (filled : 0 < n) (distances : d.Distances)
    (mirrored : ∀ i j, d.entry i j = d.entry j i) (one_le : 1 ≤ minimum) {radii : List ℝ}
    (ascending : radii.Pairwise (· ≤ ·)) :
    (∀ variants, Clustering.run (.ofMat d) truth radii minimum evaluate = .ok variants →
      (∀ v ∈ variants, Candidate.ofJson? v.toJson = some v.candidate ∧
        ∃ sizes, v.Consistent n sizes) ∧
      (Selection.winner (variants.map Variant.candidate) = .null ↔
        ∀ v ∈ variants, v.internal.silhouette = none) ∧
      ((∃ v ∈ variants, v.internal.silhouette ≠ none) →
        ∃ (v : Variant ℝ) (x : ℝ), v.Wins variants x)) ∧
    ((∀ radius ∈ radii, 0 < radius) →
      (evaluate = true → ∀ labels : List Int, labels.length = n →
        ∃ scores, externalScores truth labels = .ok scores) →
      ∃ variants, Clustering.run (.ofMat d) truth radii minimum evaluate = .ok variants) ∧
    ∀ candidates others : List (Candidate ℝ),
      (candidates.filter fun c => c.selectionValue.isSome) =
        (others.filter fun c => c.selectionValue.isSome) →
      Selection.winner candidates = Selection.winner others := by
  refine ⟨fun variants ran => ?_, fun positive comparable => ?_,
    fun _ _ same => Selection.winner_congr same⟩
  · have answers := Clustering.answers_of_square_run ran
    rw [Variant.radii_eq_map answers, List.pairwise_map] at ascending
    refine ⟨fun v member => ⟨v.ofJson?_toJson, ?_⟩, ?_, Variant.exists_wins ascending⟩
    · obtain ⟨radius, _, answer⟩ := Checked.exists_mem_zip answers.flip member
      exact ⟨_, Variant.Answers.consistent filled distances mirrored answer⟩
    · rw [Selection.winner_eq_null_iff, List.forall_mem_map]
      rfl
  · exact Clustering.exists_answers filled d.allFinite_real distances.nonneg one_le
      (fun radius member => ⟨positive radius member, rfl⟩) comparable

end Winners

section Squares

attribute [local instance] wholeNumeral

/-- Of the squares of the first four numbers, the first two are at a distance of at most one. -/
theorem nearness_squares : Density.nearness squares 1 = #v[#v[true, true, false, false],
    #v[true, true, false, false], #v[false, false, true, false], #v[false, false, false, true]] := by
  apply get_injective
  funext i
  apply get_injective
  funext j
  have near : ((Density.nearness squares 1).get i).get j =
      decide (|(i.val : ℝ) ^ 2 - (j.val : ℝ) ^ 2| ≤ 1) := by
    rw [Density.nearness, get_map, get_map]
    exact congrArg (fun x : ℝ => decide (x ≤ 1)) (Mat.entry_ofFn _ i j)
  rw [near]
  fin_cases i <;> fin_cases j <;> norm_num [Vector.get]

theorem labels_squares : (Density.labels squares 1 2).toList = [0, 0, -1, -1] := by
  rw [Density.labels, nearness_squares]
  decide +kernel

theorem squares_mirrored (i j : Fin 4) : squares.entry i j = squares.entry j i := by
  rw [squares, Mat.entry_ofFn, Mat.entry_ofFn, abs_sub_comm]

theorem result_entries_consistent_squares :
    ∃ variants, Clustering.run (.ofMat squares) none [1, 3, 5] 2 false = .ok variants ∧
      (∀ v ∈ variants, ∃ sizes, v.Consistent 4 sizes) ∧
      (∃ (v : Variant ℝ) (x : ℝ), v.Wins variants x) ∧
      Selection.winner (⟨"dbscan", "none", none, []⟩ :: variants.map Variant.candidate) =
        Selection.winner (variants.map Variant.candidate) := by
  have ascending : ([1, 3, 5] : List ℝ).Pairwise (· ≤ ·) := by norm_num
  have positive : ∀ radius ∈ ([1, 3, 5] : List ℝ), 0 < radius := by norm_num
  obtain ⟨entries, exist, congr⟩ := @result_entries_consistent _ 4 squares none 2 false (by decide)
    squares_distances squares_mirrored (by decide) _ ascending
  obtain ⟨variants, ran⟩ := exist positive nofun
  obtain ⟨consistent, _, wins⟩ := entries variants ran
  have valued : ∃ v ∈ variants, v.internal.silhouette ≠ none := by
    obtain ⟨v, paired, answers⟩ := Checked.exists_mem_zip (Clustering.answers_of_square_run ran)
      (List.mem_cons_self (a := (1 : ℝ)))
    have member := (List.of_mem_zip paired).2
    obtain ⟨_, _, entry⟩ := consistent v member
    have labelled : v.labels = [0, 0, -1, -1] := answers.labels_eq.trans labels_squares
    refine ⟨v, member, mt entry.absent.mp ?_⟩
    rw [labelled]
    decide
  exact ⟨variants, ran, fun v member => (consistent v member).2, wins valued, congr _ _ rfl⟩

end Squares

end LocalMetric
