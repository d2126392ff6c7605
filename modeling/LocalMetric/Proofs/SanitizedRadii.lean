import LocalMetric.Proofs.Ascending
import LocalMetric.Proofs.DensityClusterings
/-!
# What the check of radii lets through

A radius is dropped, with a warning, if it is zero or less. Every double is zero or less, or a number
that can be the radius of a clustering, or one of two exceptions that the comparison overlooks: infinity
and the value that is not a number. Without them the radii that are left are those of the given ones that
a clustering accepts; with one of them every run over usable distances is refused.
-/
namespace LocalMetric

section Acceptance

open Scalar (IsRadius)

variable {α : Type} [Scalar α] {n : ℕ} {d : Mat α n n} {radius : α} {minimum : Int}

structure Mat.Usable (d : Mat α n n) : Prop where
  filled : 0 < n
  finite : d.allFinite = true
  nonneg : ∀ i j, 0 ≤ d.entry i j

namespace Clustering

theorem labels_of_isRadius (usable : d.Usable) (accepted : IsRadius radius) (one_le : 1 ≤ minimum) :
    labels d radius minimum = .ok (Density.labels d radius minimum.toNat).toList :=
  labels_ok_iff.mpr ⟨⟨accepted.1, accepted.2, one_le⟩,
    ⟨usable.filled.ne', usable.finite, Mat.entries_all_nonneg usable.nonneg⟩, rfl⟩

theorem labels_of_not_isRadius (refused : ¬IsRadius radius) :
    labels d radius minimum = .error .clusteringParameters :=
  if_pos fun accepted => refused ⟨accepted.1, accepted.2.1⟩

variable [Numeral α] {truth : Option (DataArray α)} {evaluate : Bool} {radii : List α}

theorem classes_ne (labels : DataArray α) :
    labels.classes ≠ .error .clusteringParameters := by
  unfold DataArray.classes
  split
  · exact nofun
  · cases labels with
    | ints values => exact nofun
    | flags values => exact nofun
    | texts values => exact nofun
    | numbers values =>
        simp only
        split <;> exact nofun
    | objects values =>
        simp only [DataArray.objectClasses]
        split
        · exact nofun
        · split <;> exact nofun

/-- Scores against true labels are not refused for the parameters of the clustering. -/
theorem externalScores_ne (labels : List Int) :
    externalScores truth labels ≠ .error .clusteringParameters := by
  intro refused
  cases truth with
  | none => cases refused
  | some truth =>
      rw [externalScores] at refused
      by_cases fits : truth.shape ≠ [labels.length]
      · rw [if_pos fits] at refused
        cases refused
      · rw [if_neg fits] at refused
        obtain unknown | ⟨_, _, impossible⟩ := Checked.bind_error_iff.mp refused
        · exact classes_ne truth unknown
        · cases impossible

theorem variant_ne_of_isRadius (usable : d.Usable) (one_le : 1 ≤ minimum) (accepted : IsRadius radius) :
    variant (.ofMat d) d truth minimum evaluate radius ≠ .error .clusteringParameters := by
  intro refused
  rw [variant, labels_of_isRadius usable accepted one_le] at refused
  obtain impossible | ⟨labels, _, refused⟩ := Checked.bind_error_iff.mp refused
  · cases impossible
  obtain impossible | ⟨internal, _, refused⟩ := Checked.bind_error_iff.mp refused
  · cases impossible
  cases evaluate with
  | false => cases refused
  | true =>
      obtain unscored | ⟨_, _, impossible⟩ := Checked.bind_error_iff.mp refused
      · exact externalScores_ne labels (Checked.map_error_iff.mp unscored)
      · cases impossible

theorem run_ofMat (d : Mat α n n) : run (.ofMat d) truth radii minimum evaluate =
    radii.mapM (variant (.ofMat d) d truth minimum evaluate) := by
  rw [run, square_ofMat]
  rfl

theorem run_ne_of_isRadius (usable : d.Usable) (one_le : 1 ≤ minimum)
    (accepted : ∀ radius ∈ radii, IsRadius radius) :
    run (.ofMat d) truth radii minimum evaluate ≠ .error .clusteringParameters := by
  intro refused
  rw [run_ofMat] at refused
  obtain ⟨radius, member, refused⟩ := Checked.exists_of_mapM_error refused
  exact variant_ne_of_isRadius usable one_le (accepted radius member) refused

/-- Without a comparison with true labels a clustering is only refused for its radius. -/
theorem run_error_of_not_isRadius (usable : d.Usable) (one_le : 1 ≤ minimum)
    (member : radius ∈ radii) (refused : ¬IsRadius radius) :
    run (.ofMat d) truth radii minimum false = .error .clusteringParameters := by
  have each {r : α} (here : ¬IsRadius r) :
      variant (.ofMat d) d truth minimum false r = .error .clusteringParameters := by
    rw [variant, labels_of_not_isRadius here]
    rfl
  rw [run_ofMat]
  obtain ⟨fault, first⟩ := Checked.exists_mapM_error member (each refused)
  obtain ⟨r, _, faulty⟩ := Checked.exists_of_mapM_error first
  by_cases accepted : IsRadius r
  · have answers : ∃ v, variant (.ofMat d) d truth minimum false r = .ok v :=
      exists_answer usable.filled usable.finite usable.nonneg ⟨accepted.1, accepted.2, one_le⟩
        fun impossible => absurd impossible Bool.false_ne_true
    obtain ⟨v, answered⟩ := answers
    rw [answered] at faulty
    cases faulty
  · obtain rfl := Except.error.inj (faulty.symm.trans (each accepted))
    exact first

end Clustering

end Acceptance

section Exceptions

open Float.Model (UnpackedFloat)
open Scalar (IsRadius)

/-- Not a number, or infinity. -/
def Overlooked (x : Float) : Prop := x.isNaN = true ∨ 0 < x ∧ x.isInf = true

variable {x : Float}

theorem isRadius_iff : IsRadius x ↔ 0 < x ∧ x.toModel.unpack.isFinite = true := Iff.rfl

theorem overlooked_iff : Overlooked x ↔
    x.toModel.unpack.isNaN = true ∨ 0 < x ∧ x.toModel.unpack.isInf = true := Iff.rfl

theorem nonpos_or_isRadius_iff (x : Float) : x ≤ 0 ∨ IsRadius x ↔ ¬Overlooked x := by
  rw [isRadius_iff, overlooked_iff, double_nonpos_iff, double_pos_iff]
  generalize x.toModel.unpack = value
  cases value with
  | notANumber => decide
  | infinity s => cases s <;> decide
  | zero s => cases s <;> decide
  | finite s m e h => cases s <;> simp [UnpackedFloat.le, UnpackedFloat.lt, UnpackedFloat.compare,
      UnpackedFloat.isFinite, UnpackedFloat.isNaN, UnpackedFloat.isInf]

theorem isRadius_iff_of_not_overlooked (noticed : ¬Overlooked x) : IsRadius x ↔ ¬x ≤ 0 :=
  ⟨fun radius => double_not_nonpos radius.1,
    ((nonpos_or_isRadius_iff x).mpr noticed).resolve_left⟩

end Exceptions

namespace Selection

open Scalar (IsRadius)

variable {given : List Float} {x : Float}

/-- The radii that are left of the given ones, and a warning for each of the others: those that a
clustering accepts, each once and in ascending order, so that no run over usable distances is refused for
one of them. -/
structure Sanitized (given tried : List Float) (warnings : List String) : Prop where
  ascending : tried.Pairwise (· < ·)
  mem_iff : ∀ x, x ∈ tried ↔ x ∈ given ∧ 0 < x ∧ x.isFinite = true
  warned : warnings = (given.filter fun x => !(decide (0 < x) && x.isFinite)).map fun x =>
    s!"Ignoring invalid eps={Numeral.exact x}; must be >0"
  unrefused : ∀ {n : ℕ} (d : Mat Float n n), d.Usable → ∀ minimum, 1 ≤ minimum → ∀ truth evaluate,
    Clustering.run (.ofMat d) truth tried minimum evaluate ≠ .error .clusteringParameters
  answered : ∀ {n : ℕ} (d : Mat Float n n), d.Usable → ∀ minimum, 1 ≤ minimum → ∀ truth,
    ∃ variants, Clustering.run (.ofMat d) truth tried minimum false = .ok variants

theorem mem_usableRadii_iff (noticed : ∀ x ∈ given, ¬Overlooked x) (x : Float) :
    x ∈ usableRadii given ↔ x ∈ given ∧ IsRadius x := by
  constructor
  · intro member
    obtain ⟨there, positive⟩ := mem_of_usableRadii member
    exact ⟨there, (isRadius_iff_of_not_overlooked (noticed x there)).mpr positive⟩
  · rintro ⟨there, radius⟩
    have positive : ¬x ≤ 0 := double_not_nonpos radius.1
    obtain member | ⟨y, member, same⟩ := usableRadii_covers there positive
    · exact member
    · obtain ⟨there', positive'⟩ := mem_of_usableRadii member
      have radius' := (isRadius_iff_of_not_overlooked (noticed y there')).mpr positive'
      exact double_eq_of_beq radius'.1 same ▸ member

/-- An exception is never dropped. -/
theorem exists_mem_not_isRadius (member : x ∈ given) (overlooked : Overlooked x) :
    ∃ y ∈ usableRadii given, ¬IsRadius y := by
  obtain ⟨positive, refused⟩ := not_or.mp (mt (nonpos_or_isRadius_iff x).mp (not_not.mpr overlooked))
  obtain here | ⟨y, there, same⟩ := usableRadii_covers member positive
  · exact ⟨x, here, refused⟩
  · refine ⟨y, there, fun radius => refused ?_⟩
    rwa [double_eq_of_beq radius.1 same]

theorem not_sanitized_of_overlooked (member : x ∈ given) (overlooked : Overlooked x) :
    ¬Sanitized given (usableRadii given) (radiusWarnings given) := by
  intro sanitized
  obtain ⟨y, tried, refused⟩ := exists_mem_not_isRadius member overlooked
  exact refused ((sanitized.mem_iff y).mp tried).2

theorem run_error_of_overlooked (member : x ∈ given) (overlooked : Overlooked x) {n : ℕ}
    {d : Mat Float n n} (usable : d.Usable) {minimum : Int} (one_le : 1 ≤ minimum)
    (truth : Option (DataArray Float)) :
    Clustering.run (.ofMat d) truth (usableRadii given) minimum false =
      .error .clusteringParameters := by
  obtain ⟨y, tried, refused⟩ := exists_mem_not_isRadius member overlooked
  exact Clustering.run_error_of_not_isRadius usable one_le tried refused

theorem sanitized_of_noticed (noticed : ∀ x ∈ given, ¬Overlooked x) :
    Sanitized given (usableRadii given) (radiusWarnings given) := by
  have usable (x : Float) (member : x ∈ usableRadii given) : IsRadius x :=
    ((mem_usableRadii_iff noticed x).mp member).2
  constructor
  · exact (tries_usableRadii Scalar.ranked_double usable).ascending
  · exact mem_usableRadii_iff noticed
  · rw [radiusWarnings]
    congr 1
    apply List.filter_congr
    intro x member
    rw [Bool.eq_iff_iff, decide_eq_true_iff, Bool.not_eq_true', ← Bool.not_eq_true, Bool.and_eq_true,
      decide_eq_true_iff]
    exact iff_not_comm.mp (isRadius_iff_of_not_overlooked (noticed x member))
  · intro n d distances minimum one_le truth evaluate
    exact Clustering.run_ne_of_isRadius distances one_le usable
  · intro n d distances minimum one_le truth
    exact Clustering.exists_answers distances.filled distances.finite distances.nonneg one_le usable nofun

/-- The check of radii does what it promises exactly if none of them is one of the exceptions. With an
exception every run over usable distances is refused. -/
theorem sanitized_iff (given : List Float) :
    (Sanitized given (usableRadii given) (radiusWarnings given) ↔ ¬∃ x ∈ given, Overlooked x) ∧
    ((∃ x ∈ given, Overlooked x) → ∀ {n : ℕ} (d : Mat Float n n), d.Usable → ∀ minimum, 1 ≤ minimum →
      ∀ truth, Clustering.run (.ofMat d) truth (usableRadii given) minimum false =
        .error .clusteringParameters) := by
  refine ⟨⟨?_, ?_⟩, ?_⟩
  · rintro sanitized ⟨x, member, overlooked⟩
    exact not_sanitized_of_overlooked member overlooked sanitized
  · intro unnoticed
    exact sanitized_of_noticed fun x member overlooked => unnoticed ⟨x, member, overlooked⟩
  · rintro ⟨x, member, overlooked⟩ n d usable minimum one_le truth
    exact run_error_of_overlooked member overlooked usable one_le truth

theorem sanitized_fails_exceptions :
    ¬Sanitized [0.0 / 0.0] (usableRadii [0.0 / 0.0]) (radiusWarnings [0.0 / 0.0]) ∧
    ¬Sanitized [1.0 / 0.0] (usableRadii [1.0 / 0.0]) (radiusWarnings [1.0 / 0.0]) ∧
    Clustering.run (.ofMat (#v[#v[0]] : Mat Float 1 1)) none (usableRadii [0.0 / 0.0]) 1 false =
      .error .clusteringParameters := by
  have unknown : Overlooked (0.0 / 0.0) := .inl (by decide +kernel)
  have infinite : Overlooked (1.0 / 0.0) := .inr (by decide +kernel)
  have usable : Mat.Usable (#v[#v[0]] : Mat Float 1 1) := by
    constructor <;> decide +kernel
  exact ⟨not_sanitized_of_overlooked List.mem_cons_self unknown,
    not_sanitized_of_overlooked List.mem_cons_self infinite,
    run_error_of_overlooked List.mem_cons_self unknown usable (by decide) none⟩

end Selection

end LocalMetric
