import LocalMetric.Proofs.Clusterings
import LocalMetric.Proofs.DensityGrowth
import LocalMetric.Text.Number
/-!
# Density clusterings

Core points share a cluster exactly if a chain of core points leads from one to the other. Clusters
are numbered in the order of their first core points; a point that is near core points only belongs
to the first of their clusters, and a point that is near none is noise.
-/
namespace LocalMetric.Density

variable {n : ℕ}

section Distances

variable {α : Type} [Scalar α] {d : Mat α n n} {radius : α} {minimum : ℕ}

/-- Enough points lie within the radius of a core point. -/
def IsCore (d : Mat α n n) (radius : α) (minimum : ℕ) (i : Fin n) : Prop :=
  minimum ≤ (Finset.univ.filter fun j => d.entry i j ≤ radius).card

/-- Whether core points, each within the radius of the one before, lead from a point to another. -/
def Chained (d : Mat α n n) (radius : α) (minimum : ℕ) : Fin n → Fin n → Prop :=
  Relation.ReflTransGen fun i j =>
    IsCore d radius minimum i ∧ IsCore d radius minimum j ∧ d.entry i j ≤ radius

/-- The labels of the density clustering of some distances. -/
structure IsClustering (d : Mat α n n) (radius : α) (minimum : ℕ) (labels : Vector Int n) :
    Prop where
  chained_iff : ∀ i j, IsCore d radius minimum i → IsCore d radius minimum j →
    (labels.get i = labels.get j ↔ Chained d radius minimum i j)
  noise_iff : ∀ p, ¬IsCore d radius minimum p →
    (labels.get p = -1 ↔ ∀ i, IsCore d radius minimum i → ¬d.entry p i ≤ radius)
  least : ∀ p, ¬IsCore d radius minimum p →
    (∃ i, IsCore d radius minimum i ∧ d.entry p i ≤ radius) →
    IsLeast {c | ∃ i, IsCore d radius minimum i ∧ d.entry p i ≤ radius ∧ labels.get i = c}
      (labels.get p)
  /-- The clusters are numbered from zero, without gaps. -/
  numbered : ∃ m : ℕ, ∀ c : ℤ, (∃ i, IsCore d radius minimum i ∧ labels.get i = c) ↔ 0 ≤ c ∧ c < m
  /-- Of two clusters the one with the smaller number has the earlier first core point. -/
  ordered : ∀ i j, IsCore d radius minimum i → IsCore d radius minimum j →
    labels.get i < labels.get j → ∃ k, IsCore d radius minimum k ∧ labels.get k = labels.get i ∧
      ∀ l, IsCore d radius minimum l → labels.get l = labels.get j → k < l

namespace IsClustering

variable {a b : Vector Int n}

theorem nonneg (clustering : IsClustering d radius minimum a) {i : Fin n}
    (core_i : IsCore d radius minimum i) : 0 ≤ a.get i := by
  obtain ⟨_, numbers⟩ := clustering.numbered
  exact ((numbers _).mp ⟨i, core_i, rfl⟩).1

theorem ne_noise_iff (clustering : IsClustering d radius minimum a) {p : Fin n} :
    a.get p ≠ -1 ↔
      IsCore d radius minimum p ∨ ∃ i, IsCore d radius minimum i ∧ d.entry p i ≤ radius := by
  by_cases core_p : IsCore d radius minimum p
  · have nonneg := clustering.nonneg core_p
    exact iff_of_true (by omega) (.inl core_p)
  · rw [ne_eq, clustering.noise_iff p core_p, or_iff_right core_p]
    push Not
    rfl

/-- Only noise has a negative label. -/
theorem eq_noise_of_neg (clustering : IsClustering d radius minimum a) {p : Fin n}
    (negative : a.get p < 0) : a.get p = -1 := by
  by_contra labelled
  by_cases core_p : IsCore d radius minimum p
  · exact absurd negative (clustering.nonneg core_p).not_gt
  · have near := (clustering.ne_noise_iff.mp labelled).resolve_left core_p
    obtain ⟨i, core_i, _, same⟩ := (clustering.least p core_p near).1
    have nonneg := clustering.nonneg core_i
    omega

theorem core_congr (first : IsClustering d radius minimum a)
    (second : IsClustering d radius minimum b) {i j : Fin n} (core_i : IsCore d radius minimum i)
    (core_j : IsCore d radius minimum j) : a.get i = a.get j ↔ b.get i = b.get j := by
  rw [first.chained_iff i j core_i core_j, second.chained_iff i j core_i core_j]

/-- Two clusterings that agree on the smaller numbers agree on the next one: otherwise the cluster
with that number in the second one would begin before that in the first one, and after it. -/
theorem next_eq (first : IsClustering d radius minimum a)
    (second : IsClustering d radius minimum b) {c : ℤ}
    (forth : ∀ j, IsCore d radius minimum j → a.get j < c → b.get j = a.get j)
    (back : ∀ j, IsCore d radius minimum j → b.get j < c → a.get j = b.get j) {i : Fin n}
    (core_i : IsCore d radius minimum i) (label_i : a.get i = c) : b.get i = c := by
  have least : ¬b.get i < c := by
    intro smaller
    have same := back i core_i smaller
    omega
  by_contra other
  have larger : c < b.get i := by omega
  obtain ⟨m, numbers⟩ := second.numbered
  have inside := (numbers (b.get i)).mp ⟨i, core_i, rfl⟩
  have nonneg := first.nonneg core_i
  obtain ⟨j, core_j, label_j⟩ := (numbers c).mpr ⟨by omega, by omega⟩
  obtain ⟨k, core_k, alike, before⟩ := second.ordered j i core_j core_i (by omega)
  have apart : a.get k ≠ a.get i := by
    intro shared
    have together := (first.core_congr second core_k core_i).mp shared
    omega
  have above : ¬a.get k < c := by
    intro smaller
    have same := forth k core_k smaller
    omega
  obtain ⟨l, core_l, shared, earlier⟩ := first.ordered i k core_i core_k (by omega)
  have l_before_k := earlier k core_k rfl
  have k_before_l := before l core_l ((first.core_congr second core_l core_i).mp shared)
  exact lt_asymm l_before_k k_before_l

theorem core_unique (first : IsClustering d radius minimum a)
    (second : IsClustering d radius minimum b) (c : ℕ) {i : Fin n}
    (core_i : IsCore d radius minimum i) : a.get i = c ↔ b.get i = c := by
  induction c using Nat.strong_induction_on generalizing i with
  | h c ih =>
      have forth (j : Fin n) (core_j : IsCore d radius minimum j) (less : a.get j < c) :
          b.get j = a.get j := by
        have nonneg := first.nonneg core_j
        have same := (ih (a.get j).toNat (by omega) core_j).mp (by omega)
        omega
      have back (j : Fin n) (core_j : IsCore d radius minimum j) (less : b.get j < c) :
          a.get j = b.get j := by
        have nonneg := second.nonneg core_j
        have same := (ih (b.get j).toNat (by omega) core_j).mpr (by omega)
        omega
      exact ⟨first.next_eq second forth back core_i, second.next_eq first back forth core_i⟩

/-- There is only one density clustering. -/
theorem unique (first : IsClustering d radius minimum a)
    (second : IsClustering d radius minimum b) : a = b := by
  have on_core (i : Fin n) (core_i : IsCore d radius minimum i) : a.get i = b.get i := by
    have nonneg := first.nonneg core_i
    have same := (first.core_unique second (a.get i).toNat core_i).mp (by omega)
    omega
  apply get_injective
  funext p
  by_cases core_p : IsCore d radius minimum p
  · exact on_core p core_p
  by_cases near : ∃ i, IsCore d radius minimum i ∧ d.entry p i ≤ radius
  · have same : {c | ∃ i, IsCore d radius minimum i ∧ d.entry p i ≤ radius ∧ a.get i = c} =
        {c | ∃ i, IsCore d radius minimum i ∧ d.entry p i ≤ radius ∧ b.get i = c} := by
      ext c
      refine exists_congr fun i => and_congr_right fun core_i => and_congr_right fun _ => ?_
      rw [on_core i core_i]
    exact (first.least p core_p near).unique (same ▸ second.least p core_p near)
  · have far (i : Fin n) (core_i : IsCore d radius minimum i) : ¬d.entry p i ≤ radius :=
      fun here => near ⟨i, core_i, here⟩
    rw [(first.noise_iff p core_p).mpr far, (second.noise_iff p core_p).mpr far]

end IsClustering

theorem entry_nearness {i j : Fin n} :
    (nearness d radius).entry i j = true ↔ d.entry i j ≤ radius := by
  rw [Mat.entry, nearness, get_map, get_map, decide_eq_true_eq]
  rfl

theorem count_true_eq_card (v : Vector Bool n) :
    v.toList.count true = (Finset.univ.filter fun j => v.get j = true).card := by
  have listed : (Finset.univ.filter fun j => v.get j = true) =
      ((List.finRange n).filter v.get).toFinset := by
    ext j
    simp only [Finset.mem_filter, Finset.mem_univ, true_and, List.mem_toFinset, List.mem_filter,
      List.mem_finRange]
  rw [listed, List.toFinset_card_of_nodup ((List.nodup_finRange n).filter v.get), toList_eq_ofFn,
    List.ofFn_eq_map, List.count_eq_countP, List.countP_map, ← List.countP_eq_length_filter]
  congr 1
  funext j
  exact beq_true (v.get j)

theorem get_corePoints {i : Fin n} :
    (corePoints (nearness d radius) minimum).get i = true ↔ IsCore d radius minimum i := by
  have row (j : Fin n) : ((nearness d radius).get i).get j = true ↔ d.entry i j ≤ radius :=
    entry_nearness
  rw [corePoints, get_map, decide_eq_true_eq, count_true_eq_card, IsCore]
  simp only [row]

theorem get_corePoints_eq_false {i : Fin n} :
    (corePoints (nearness d radius) minimum).get i = false ↔ ¬IsCore d radius minimum i := by
  rw [← get_corePoints, Bool.not_eq_true]

theorem linked_iff {i j : Fin n} :
    Linked (nearness d radius) (corePoints (nearness d radius) minimum) i j ↔
      Chained d radius minimum i j := by
  have same : Joined (nearness d radius) (corePoints (nearness d radius) minimum) = fun i j =>
      IsCore d radius minimum i ∧ IsCore d radius minimum j ∧ d.entry i j ≤ radius := by
    funext i j
    rw [Joined, get_corePoints, get_corePoints, entry_nearness]
  rw [Linked, same, Chained]

theorem grown_labels (mirrored : ∀ i j, d.entry i j = d.entry j i) (radius : α) (minimum : ℕ) :
    ∃ g, g.labels = labels d radius minimum ∧
      Grown (nearness d radius) (corePoints (nearness d radius) minimum) n g := by
  refine ⟨_, rfl, grown_foldl fun i j => ?_⟩
  rw [Bool.eq_iff_iff, entry_nearness, entry_nearness, mirrored]

/-- The labels are those of the density clustering. -/
theorem isClustering_labels (mirrored : ∀ i j, d.entry i j = d.entry j i) :
    IsClustering d radius minimum (labels d radius minimum) := by
  obtain ⟨g, same, grown⟩ := grown_labels mirrored radius minimum
  rw [← same]
  have labelled (i : Fin n) (core_i : IsCore d radius minimum i) : g.labels.get i ≠ noise :=
    grown.visited i (get_corePoints.mpr core_i) i.isLt
  have first (p i : Fin n) (border : ¬IsCore d radius minimum p)
      (core_i : IsCore d radius minimum i) (near_pi : d.entry p i ≤ radius) :
      g.labels.get p ≠ noise ∧ g.labels.get p ≤ g.labels.get i :=
    grown.first p i (get_corePoints_eq_false.mpr border) (get_corePoints.mpr core_i)
      (entry_nearness.mpr (mirrored i p ▸ near_pi)) (labelled i core_i)
  have bordering (p : Fin n) (border : ¬IsCore d radius minimum p)
      (there : g.labels.get p ≠ noise) :
      ∃ i, IsCore d radius minimum i ∧ d.entry p i ≤ radius ∧ g.labels.get i = g.labels.get p := by
    obtain ⟨i, core_i, near_ip, alike⟩ :=
      grown.bordering p (get_corePoints_eq_false.mpr border) there
    exact ⟨i, get_corePoints.mp core_i, mirrored i p ▸ entry_nearness.mp near_ip, alike⟩
  constructor
  case chained_iff =>
    intro i j core_i core_j
    rw [← linked_iff]
    exact grown.linked i j (get_corePoints.mpr core_i) (get_corePoints.mpr core_j)
      (labelled i core_i)
  case noise_iff =>
    intro p border
    constructor
    · intro alone i core_i near_pi
      exact (first p i border core_i near_pi).1 alone
    · intro far
      by_contra there
      obtain ⟨i, core_i, near_pi, _⟩ := bordering p border there
      exact far i core_i near_pi
  case least =>
    rintro p border ⟨i, core_i, near_pi⟩
    refine ⟨bordering p border (first p i border core_i near_pi).1, ?_⟩
    rintro c ⟨j, core_j, near_pj, rfl⟩
    exact (first p j border core_j near_pj).2
  case numbered =>
    refine ⟨g.next, fun c => ?_⟩
    constructor
    · rintro ⟨i, core_i, rfl⟩
      exact (grown.bounded i).resolve_left (labelled i core_i)
    · rintro ⟨nonneg, inside⟩
      obtain ⟨k, core_k, _, label_k⟩ := grown.seeded c.toNat (by omega)
      exact ⟨k, get_corePoints.mp core_k, by omega⟩
  case ordered =>
    intro i j core_i core_j less
    obtain ⟨k, core_k, alike, before⟩ := grown.ordered i j (get_corePoints.mpr core_i)
      (get_corePoints.mpr core_j) (labelled i core_i) less
    exact ⟨k, get_corePoints.mp core_k, alike,
      fun l core_l => before l (get_corePoints.mpr core_l)⟩

end Distances

end Density

open Density

section Runs

variable {α : Type} [Scalar α] [Numeral α] {n : ℕ} {d : Mat α n n} {truth : Option (DataArray α)}
  {minimum : Int} {evaluate : Bool}

/-- A radius and a minimum that are accepted give labels to points with usable distances. -/
theorem Clustering.exists_answer (filled : 0 < n) (finite : d.allFinite = true)
    (nonneg : ∀ i j, 0 ≤ d.entry i j) {radius : α}
    (accepted : 0 < radius ∧ Scalar.isFinite radius = true ∧ 1 ≤ minimum)
    (comparable : evaluate = true → ∀ labels : List Int, labels.length = n →
      ∃ scores, externalScores truth labels = .ok scores) :
    ∃ v, variant (.ofMat d) d truth minimum evaluate radius = .ok v := by
  have labelled : labels d radius minimum = .ok (Density.labels d radius minimum.toNat).toList :=
    labels_ok_iff.mpr ⟨accepted, ⟨filled.ne', finite, Mat.entries_all_nonneg nonneg⟩, rfl⟩
  rw [variant, labelled]
  cases evaluate with
  | false => exact ⟨_, rfl⟩
  | true =>
      obtain ⟨scores, compared⟩ := comparable rfl _ Vector.length_toList
      exact ⟨_, Checked.bind_ok_iff.mpr ⟨_, rfl, Checked.bind_ok_iff.mpr ⟨_, rfl,
        Checked.bind_ok_iff.mpr ⟨_, congrArg (some <$> ·) compared, rfl⟩⟩⟩⟩

theorem Clustering.exists_answers (filled : 0 < n) (finite : d.allFinite = true)
    (nonneg : ∀ i j, 0 ≤ d.entry i j) (one_le : 1 ≤ minimum) {radii : List α}
    (positive : ∀ radius ∈ radii, 0 < radius ∧ Scalar.isFinite radius = true)
    (comparable : evaluate = true → ∀ labels : List Int, labels.length = n →
      ∃ scores, externalScores truth labels = .ok scores) :
    ∃ variants, run (.ofMat d) truth radii minimum evaluate = .ok variants := by
  have each (radius : α) (member : radius ∈ radii) :
      ∃ v, variant (.ofMat d) d truth minimum evaluate radius = .ok v := by
    obtain ⟨above, bounded⟩ := positive radius member
    exact exists_answer filled finite nonneg ⟨above, bounded, one_le⟩ comparable
  obtain ⟨variants, related⟩ := Checked.exists_forall₂_of_forall each
  exact ⟨variants, Checked.bind_ok_iff.mpr ⟨⟨n, d⟩, square_ofMat d,
    Checked.mapM_ok_iff.mpr related⟩⟩

theorem Clustering.answers_of_square_run {radii : List α} {variants : List (Variant α)}
    (ran : run (.ofMat d) truth radii minimum evaluate = .ok variants) :
    List.Forall₂ (Variant.Answers (.ofMat d) d minimum) radii variants := by
  obtain ⟨_, _, known, answers⟩ := answers_of_run ran
  rw [square_ofMat] at known
  cases known
  exact answers

/-- Clusterings of symmetric distances have the labels of the one density clustering that there is
for their radius. They are refused for no usable distances and no positive radius. -/
theorem density_clusterings (mirrored : ∀ i j, d.entry i j = d.entry j i) {radii : List α} :
    (∀ variants, Clustering.run (.ofMat d) truth radii minimum evaluate = .ok variants →
      List.Forall₂ (fun radius v => v.radius = radius ∧
        ∃ labels : Vector Int n, v.labels = labels.toList ∧
          IsClustering d radius minimum.toNat labels ∧
          ∀ other, IsClustering d radius minimum.toNat other → other = labels) radii variants) ∧
    (0 < n → d.allFinite = true → (∀ i j, 0 ≤ d.entry i j) → 1 ≤ minimum →
      (∀ radius ∈ radii, 0 < radius ∧ Scalar.isFinite radius = true) →
      (evaluate = true → ∀ labels : List Int, labels.length = n →
        ∃ scores, externalScores truth labels = .ok scores) →
      ∃ variants, Clustering.run (.ofMat d) truth radii minimum evaluate = .ok variants) := by
  constructor
  · intro variants ran
    refine (Clustering.answers_of_square_run ran).imp fun radius v answers => ?_
    have clustering : IsClustering d radius minimum.toNat (labels d radius minimum.toNat) :=
      isClustering_labels mirrored
    exact ⟨answers.radius_eq, _, answers.labels_eq, clustering,
      fun _ same => same.unique clustering⟩
  · intro filled finite nonneg one_le positive comparable
    exact Clustering.exists_answers filled finite nonneg one_le positive comparable

def threeAndOne : Mat Float 4 4 :=
  #v[#v[0, 1, 1, 50], #v[1, 0, 1, 50], #v[1, 1, 0, 50], #v[50, 50, 50, 0]]

theorem density_clusterings_threeAndOne :
    ∃ variants, Clustering.run (.ofMat threeAndOne) none [1.5] 2 false = .ok variants ∧
      List.Forall₂ (fun radius v => v.radius = radius ∧
        ∃ labels : Vector Int 4, v.labels = labels.toList ∧
          IsClustering threeAndOne radius 2 labels ∧
          ∀ other, IsClustering threeAndOne radius 2 other → other = labels) [1.5] variants := by
  have mirrored : ∀ i j, threeAndOne.entry i j = threeAndOne.entry j i := by decide +kernel
  have clusterings := @density_clusterings Float _ _ 4 threeAndOne none 2 false mirrored [1.5]
  obtain ⟨variants, ran⟩ := clusterings.2 (by decide) (by decide +kernel) (by decide +kernel)
    (by decide) (List.forall_mem_singleton.mpr (by decide)) nofun
  exact ⟨variants, ran, clusterings.1 variants ran⟩

example : (Density.labels threeAndOne 1.5 2).toList = [0, 0, 0, -1] := by decide +kernel

end Runs

end LocalMetric
