import LocalMetric.Clustering.Selection
import LocalMetric.Proofs.Checked
import LocalMetric.Proofs.Matrices
/-!
# Tables of distances that can be clustered

A table of distances without negative entries and with zeros on its diagonal is clustered with every
positive radius, and every one of the clusterings that has a silhouette gets one. True labels of one
kind, one for each point, can be compared with it.
-/
namespace LocalMetric

variable {m n : ℕ}

/-- Distances as they have to be: not negative, and zero between a point and itself. -/
structure Mat.Distances (d : Mat ℝ n n) : Prop where
  nonneg : ∀ i j, 0 ≤ d.entry i j
  diagonal : ∀ i, d.entry i i = 0

/-- A row of labels of one kind. -/
def DataArray.IsLabels (labels : DataArray ℝ) (rows : ℕ) : Prop :=
  labels.shape = [rows] ∧ ∀ values, labels ≠ .objects values

theorem Mat.exists_of_mem_entries {α : Type} {a : Mat α m n} {x : α} (member : x ∈ a.entries) :
    ∃ i j, a.entry i j = x := by
  obtain ⟨row, there, here⟩ := List.mem_flatMap.mp member
  obtain ⟨i, inside, rfl⟩ := Vector.mem_iff_getElem.mp (Vector.mem_toList_iff.mp there)
  obtain ⟨j, bound, rfl⟩ := Vector.mem_iff_getElem.mp (Vector.mem_toList_iff.mp here)
  exact ⟨⟨i, inside⟩, ⟨j, bound⟩, rfl⟩

theorem Mat.entries_all_nonneg {α : Type} [Scalar α] {a : Mat α m n}
    (nonneg : ∀ i j, 0 ≤ a.entry i j) : (a.entries.all fun x => decide (0 ≤ x)) = true := by
  refine List.all_eq_true.mpr fun x member => ?_
  obtain ⟨i, j, rfl⟩ := exists_of_mem_entries member
  exact decide_eq_true (nonneg i j)

namespace Mat.Distances

variable {d : Mat ℝ n n}

theorem entries_nonneg (distances : d.Distances) :
    (d.entries.all fun x => decide (0 ≤ x)) = true := entries_all_nonneg distances.nonneg

theorem isUsable (distances : d.Distances) : Silhouette.isUsable d = true := by
  rw [Silhouette.isUsable, d.allFinite_real, distances.entries_nonneg]
  refine List.all_eq_true.mpr fun i _ => decide_eq_true ?_
  rw [distances.diagonal i, Scalar.abs, if_neg (lt_irrefl 0)]
  norm_num

/-- The silhouette of a labelling of all points is never refused. -/
theorem exists_score (distances : d.Distances) {labels : List Int} (length : labels.length = n) :
    ∃ score, Silhouette.score? (.ofMat d) labels = some score := by
  subst length
  have square : (Tensor.ofMat d).asMat? labels.length labels.length = some d := dif_pos ⟨rfl, rfl⟩
  rw [Silhouette.score?, square]
  exact ⟨_, if_pos distances.isUsable⟩

theorem exists_labels (distances : d.Distances) (filled : 0 < n) {radius : ℝ} (positive : 0 < radius)
    {minimum : Int} (one_le : 1 ≤ minimum) :
    ∃ labels, Clustering.labels d radius minimum = .ok labels ∧ labels.length = n := by
  have usable : ¬(n = 0 ∨ ¬(d.allFinite = true ∧
      (d.entries.all fun x => decide (0 ≤ x)) = true)) := by
    rintro (empty | refused)
    · omega
    · exact refused ⟨d.allFinite_real, distances.entries_nonneg⟩
  refine ⟨(Density.labels d radius minimum.toNat).toList, ?_, Vector.length_toList⟩
  rw [Clustering.labels, if_neg (not_not.mpr ⟨positive, rfl, one_le⟩), if_neg usable]

theorem exists_internalScores (distances : d.Distances) {labels : List Int}
    (length : labels.length = n) : ∃ scores, internalScores (.ofMat d) labels = .ok scores ∧
      (2 ≤ (distinctLabels labels).length → (distinctLabels labels).length < n →
        ∃ score, scores.silhouette = some score) := by
  refine ⟨_, rfl, fun several fewer => ?_⟩
  obtain ⟨score, scored⟩ := distances.exists_score length
  exact ⟨score, (if_pos ⟨several, fewer⟩).trans scored⟩

end Mat.Distances

section Truth

variable [Numeral ℝ]

theorem DataArray.IsLabels.exists_classes {labels : DataArray ℝ} (fits : labels.IsLabels n) :
    ∃ classes, labels.classes = .ok classes := by
  have row : ¬labels.shape.length ≠ 1 := by
    rw [fits.1]
    exact not_not.mpr rfl
  unfold DataArray.classes
  rw [if_neg row]
  cases labels with
  | ints values => exact ⟨_, rfl⟩
  | flags values => exact ⟨_, rfl⟩
  | texts values => exact ⟨_, rfl⟩
  | numbers values =>
      have finite : values.toList.all Scalar.isFinite = true := List.all_eq_true.mpr fun _ _ => rfl
      exact ⟨_, if_pos finite⟩
  | objects values => exact absurd rfl (fits.2 values)

theorem exists_externalScores {truth : DataArray ℝ} {labels : List Int}
    (fits : truth.IsLabels n) (length : labels.length = n) :
    ∃ scores, externalScores (some truth) labels = .ok scores := by
  obtain ⟨classes, known⟩ := fits.exists_classes
  refine ⟨External.scores (classes.zip labels), ?_⟩
  rw [externalScores, fits.1, length]
  exact (if_neg (not_not.mpr rfl)).trans (Checked.bind_ok_iff.mpr ⟨classes, known, rfl⟩)

end Truth

section Answers

theorem Clustering.square_ofMat {α : Type} (d : Mat α n n) : square (.ofMat d) = .ok ⟨n, d⟩ :=
  dif_pos rfl

variable {α : Type} [Scalar α] {d : Mat α n n} {radius : α} {minimum : Int}

theorem Clustering.labels_ok_iff {labels : List Int} :
    Clustering.labels d radius minimum = .ok labels ↔
      (0 < radius ∧ Scalar.isFinite radius = true ∧ 1 ≤ minimum) ∧
      (n ≠ 0 ∧ d.allFinite = true ∧ (d.entries.all fun x => decide (0 ≤ x)) = true) ∧
      (Density.labels d radius minimum.toNat).toList = labels := by
  unfold Clustering.labels
  split
  · rename_i refused
    exact iff_of_false nofun fun answered => refused answered.1
  · rename_i accepted
    split
    · rename_i refused
      refine iff_of_false nofun fun answered => ?_
      rcases refused with empty | unusable
      · exact answered.2.1.1 empty
      · exact unusable answered.2.1.2
    · rename_i usable
      rw [not_or, not_not] at usable
      constructor
      · intro same
        exact ⟨not_not.mp accepted, usable, Except.ok.inj same⟩
      · intro answered
        exact congrArg Except.ok answered.2.2

structure Variant.Answers (distances : Tensor α) (d : Mat α n n) (minimum : Int) (radius : α)
    (v : Variant α) : Prop where
  radius_eq : v.radius = radius
  minimum_eq : v.minimum = minimum
  accepted : 0 < radius ∧ Scalar.isFinite radius = true ∧ 1 ≤ minimum
  labels_eq : v.labels = (Density.labels d radius minimum.toNat).toList
  internal_eq : internalScores distances v.labels = .ok v.internal

variable [Numeral α] {distances : Tensor α} {truth : Option (DataArray α)} {evaluate : Bool}

theorem Clustering.answers_of_variant {v : Variant α}
    (answered : variant distances d truth minimum evaluate radius = .ok v) :
    v.Answers distances d minimum radius := by
  obtain ⟨labels, labelled, rest⟩ := Checked.bind_ok_iff.mp answered
  obtain ⟨internal, scored, rest⟩ := Checked.bind_ok_iff.mp rest
  obtain ⟨accepted, _, same⟩ := labels_ok_iff.mp labelled
  cases evaluate with
  | false =>
      obtain ⟨_, _, made⟩ := Checked.bind_ok_iff.mp rest
      cases made
      exact ⟨rfl, rfl, accepted, same.symm, scored⟩
  | true =>
      obtain ⟨_, _, made⟩ := Checked.bind_ok_iff.mp rest
      cases made
      exact ⟨rfl, rfl, accepted, same.symm, scored⟩

theorem Clustering.answers_of_run {radii : List α} {variants : List (Variant α)}
    (ran : run distances truth radii minimum evaluate = .ok variants) :
    ∃ (n : ℕ) (d : Mat α n n), square distances = .ok ⟨n, d⟩ ∧
      List.Forall₂ (Variant.Answers distances d minimum) radii variants := by
  obtain ⟨⟨n, d⟩, known, rest⟩ := Checked.bind_ok_iff.mp ran
  exact ⟨n, d, known, (Checked.mapM_ok_iff.mp rest).imp fun _ _ => answers_of_variant⟩

omit [Numeral α] in
theorem Variant.radii_eq_map {radii : List α} {variants : List (Variant α)}
    (answers : List.Forall₂ (Answers distances d minimum) radii variants) :
    radii = variants.map Variant.radius := by
  rw [← List.forall₂_eq_eq_eq, List.forall₂_map_right_iff]
  exact answers.imp fun _ _ answer => answer.radius_eq.symm

end Answers

section Choices

namespace Selection

variable {α : Type} [Scalar α] {β : Type}

theorem foldl_mem {f : β → β → β} (picks : ∀ a b, f a b = a ∨ f a b = b) (l : List β) (a : β) :
    l.foldl f a ∈ a :: l := by
  induction l generalizing a with
  | nil => exact List.mem_cons_self
  | cons b l ih =>
      rcases List.mem_cons.mp (ih (f a b)) with picked | later
      · rw [List.foldl_cons, picked]
        rcases picks a b with first | second
        · rw [first]
          exact List.mem_cons_self
        · rw [second]
          exact List.mem_cons_of_mem _ List.mem_cons_self
      · exact List.mem_cons_of_mem _ (List.mem_cons_of_mem _ later)

/-- The best item is one of the items, and it has a value. -/
theorem mem_of_firstBest {value : β → Option α} {items : List β} {best : β}
    (chosen : firstBest value items = some best) : best ∈ items ∧ ∃ x, value best = some x := by
  rw [firstBest] at chosen
  split at chosen
  · cases chosen
  · rename_i first rest valued
    have member := foldl_mem (f := fun best item => if best.2 < item.2 then item else best)
      (fun a b => by split <;> simp) rest first
    rw [← valued, List.mem_filterMap] at member
    obtain ⟨item, member, paired⟩ := member
    obtain ⟨x, known, paired⟩ := Option.map_eq_some_iff.mp paired
    obtain rfl := Option.some.inj chosen
    rw [← paired]
    exact ⟨member, x, known⟩

end Selection

end Choices

section Runs

theorem Selection.mem_usableRadii {radii : List ℝ} {radius : ℝ} :
    radius ∈ usableRadii radii ↔ radius ∈ radii ∧ 0 < radius := by
  rw [usableRadii, (List.mergeSort_perm _ _).mem_iff, List.mem_eraseDups, List.mem_filter,
    Bool.not_eq_true', decide_eq_false_iff_not, not_le]

structure Variant.Complete (n : ℕ) (evaluate : Bool) (radius : ℝ) (v : Variant ℝ) : Prop where
  radius_eq : v.radius = radius
  length : v.labels.length = n
  silhouette : 2 ≤ (distinctLabels v.labels).length → (distinctLabels v.labels).length < n →
    ∃ score, v.internal.silhouette = some score
  evaluated : v.external.isSome = evaluate

variable [Numeral ℝ] {d : Mat ℝ n n} {truth : Option (DataArray ℝ)} {minimum : Int}
  {evaluate : Bool}

theorem Clustering.exists_variant (distances : d.Distances) (filled : 0 < n) (one_le : 1 ≤ minimum)
    (truths : evaluate = true → ∃ labels, truth = some labels ∧ labels.IsLabels n)
    {radius : ℝ} (positive : 0 < radius) :
    ∃ v, variant (.ofMat d) d truth minimum evaluate radius = .ok v ∧
      v.Complete n evaluate radius := by
  obtain ⟨labels, labelled, length⟩ := distances.exists_labels filled positive one_le
  obtain ⟨internal, scored, silhouette⟩ := distances.exists_internalScores length
  have given (external : Option (ExternalScores ℝ))
      (compared : (if evaluate then some <$> externalScores truth labels else pure none) =
        (.ok external : Checked ℝ (Option (ExternalScores ℝ)))) :
      variant (.ofMat d) d truth minimum evaluate radius =
        .ok ⟨radius, minimum, labels, internal, external⟩ := by
    rw [variant, labelled]
    refine Checked.bind_ok_iff.mpr ⟨labels, rfl, Checked.bind_ok_iff.mpr ⟨internal, scored, ?_⟩⟩
    cases evaluate with
    | false => exact Checked.bind_ok_iff.mpr ⟨external, compared, rfl⟩
    | true => exact Checked.bind_ok_iff.mpr ⟨external, compared, rfl⟩
  cases evaluate with
  | false => exact ⟨_, given none rfl, rfl, length, silhouette, rfl⟩
  | true =>
      obtain ⟨labelling, rfl, fits⟩ := truths rfl
      obtain ⟨scores, answered⟩ := exists_externalScores fits length
      exact ⟨_, given (some scores) (congrArg (some <$> ·) answered), rfl, length,
        silhouette, rfl⟩

/-- Every usable radius gives a clustering. -/
theorem Clustering.exists_run (distances : d.Distances) (filled : 0 < n) (one_le : 1 ≤ minimum)
    (truths : evaluate = true → ∃ labels, truth = some labels ∧ labels.IsLabels n)
    (radii : List ℝ) :
    ∃ variants, run (.ofMat d) truth (Selection.usableRadii radii) minimum evaluate = .ok variants ∧
      List.Forall₂ (Variant.Complete n evaluate) (Selection.usableRadii radii) variants := by
  have each (radius : ℝ) (usable : radius ∈ Selection.usableRadii radii) :
      ∃ v, variant (.ofMat d) d truth minimum evaluate radius = .ok v ∧
        v.Complete n evaluate radius :=
    exists_variant distances filled one_le truths (Selection.mem_usableRadii.mp usable).2
  obtain ⟨variants, related⟩ := Checked.exists_forall₂_of_forall each
  refine ⟨variants, Checked.bind_ok_iff.mpr ⟨⟨n, d⟩, square_ofMat d, Checked.mapM_ok_iff.mpr ?_⟩, ?_⟩
  · exact related.imp fun _ _ here => here.1
  · exact related.imp fun _ _ here => here.2

end Runs

end LocalMetric
