import LocalMetric.Proofs.Equivariance
/-!
# Clamped spectra

Clamping sees a list only through its largest magnitude, and each entry then stands or falls by itself.
The entry with the largest magnitude may be negative and fall, too, so what is left can have a smaller
scale. A smaller bound takes nothing more away, for every entry that stood was above the larger one.
-/
namespace LocalMetric

variable {tolerance : ℝ} {xs : List ℝ}

section Bounds

variable {bound : ℝ}

theorem clampAt_eq_ite (nonneg : 0 ≤ bound) (x : ℝ) :
    clampAt bound x = if 0 < x ∧ bound < x then x else 0 := by
  rw [clampAt_eq nonneg]
  by_cases small : x ≤ bound
  · rw [if_pos small, if_neg fun stands => small.not_gt stands.2]
  · have large := not_le.mp small
    rw [if_neg small, if_pos ⟨nonneg.trans_lt large, large⟩]

/-- What a bound leaves, a smaller one leaves as well. -/
theorem clampAt_clampAt {below : ℝ} (nonneg : 0 ≤ below) (smaller : below ≤ bound) (x : ℝ) :
    clampAt below (clampAt bound x) = clampAt bound x := by
  rw [clampAt_eq (nonneg.trans smaller), clampAt_eq nonneg]
  by_cases small : x ≤ bound
  · rw [if_pos small, if_pos nonneg]
  · rw [if_neg small, if_neg fun small' => small (small'.trans smaller)]

theorem abs_clampAt_le (nonneg : 0 ≤ bound) (x : ℝ) : |clampAt bound x| ≤ |x| := by
  rw [clampAt_eq nonneg]
  split
  · rw [abs_zero]
    exact abs_nonneg x
  · exact le_rfl

end Bounds

section Scales

/-- The scale of a list depends on its members alone. -/
theorem largestMagnitude_congr {ys : List ℝ} (same : ∀ x, x ∈ xs ↔ x ∈ ys) :
    largestMagnitude xs = largestMagnitude ys := by
  by_cases empty : xs = []
  · subst empty
    have empty' : ys = [] := List.eq_nil_iff_forall_not_mem.mpr fun y listed =>
      List.not_mem_nil ((same y).mpr listed)
    rw [empty']
  · obtain ⟨x, listed⟩ := List.exists_mem_of_ne_nil xs empty
    have greatest := isGreatest_largestMagnitude empty
    have greatest' := isGreatest_largestMagnitude (List.ne_nil_of_mem ((same x).mp listed))
    have members : {x | x ∈ xs} = {x | x ∈ ys} := Set.ext same
    rw [members] at greatest
    exact greatest.unique greatest'

theorem largestMagnitude_clampEigenvalues_le (nonneg : 0 ≤ tolerance) (xs : List ℝ) :
    largestMagnitude (clampEigenvalues tolerance xs) ≤ largestMagnitude xs := by
  apply largestMagnitude_le (largestMagnitude_nonneg xs)
  intro y clamped
  obtain ⟨x, listed, rfl⟩ := List.mem_map.mp clamped
  have greatest := isGreatest_largestMagnitude (List.ne_nil_of_mem listed)
  exact (abs_clampAt_le (clampBound_nonneg nonneg xs) x).trans (greatest.2 ⟨x, listed, rfl⟩)

end Scales

section Entries

theorem length_clampEigenvalues (tolerance : ℝ) (xs : List ℝ) :
    (clampEigenvalues tolerance xs).length = xs.length := List.length_map _

noncomputable def clampedEntry (tolerance : ℝ) (xs : List ℝ) (i : Fin xs.length) : ℝ :=
  (clampEigenvalues tolerance xs).get (i.cast (length_clampEigenvalues tolerance xs).symm)

theorem clampedEntry_eq (tolerance : ℝ) (xs : List ℝ) (i : Fin xs.length) :
    clampedEntry tolerance xs i = clampAt (tolerance * largestMagnitude xs) (xs.get i) :=
  List.getElem_map _

theorem clampEigenvalues_eq_map (nonneg : 0 ≤ tolerance) (xs : List ℝ) :
    ∃ m, (xs ≠ [] → IsGreatest (abs '' {x | x ∈ xs}) m) ∧
      clampEigenvalues tolerance xs =
        xs.map fun x => if 0 < x ∧ tolerance * m < x then x else 0 := by
  refine ⟨largestMagnitude xs, isGreatest_largestMagnitude, ?_⟩
  exact List.map_congr_left fun x _ => clampAt_eq_ite (clampBound_nonneg nonneg xs) x

theorem clampedEntry_le (nonneg : 0 ≤ tolerance) {i j : Fin xs.length}
    (ordered : xs.get i ≤ xs.get j) : clampedEntry tolerance xs i ≤ clampedEntry tolerance xs j := by
  rw [clampedEntry_eq, clampedEntry_eq]
  exact monotone_clampAt (clampBound_nonneg nonneg xs) ordered

theorem clampEigenvalues_descending (nonneg : 0 ≤ tolerance) (descending : xs.Pairwise (· ≥ ·)) :
    (clampEigenvalues tolerance xs).Pairwise (· ≥ ·) :=
  descending.map _ fun _ _ ordered => monotone_clampAt (clampBound_nonneg nonneg xs) ordered

theorem clampEigenvalues_idem (nonneg : 0 ≤ tolerance) (xs : List ℝ) :
    clampEigenvalues tolerance (clampEigenvalues tolerance xs) = clampEigenvalues tolerance xs := by
  have smaller := mul_le_mul_of_nonneg_left (largestMagnitude_clampEigenvalues_le nonneg xs) nonneg
  have below := clampBound_nonneg nonneg (clampEigenvalues tolerance xs)
  calc
    clampEigenvalues tolerance (clampEigenvalues tolerance xs)
        = xs.map (clampAt (tolerance * largestMagnitude (clampEigenvalues tolerance xs)) ∘
            clampAt (tolerance * largestMagnitude xs)) := List.map_map
    _ = clampEigenvalues tolerance xs := List.map_congr_left fun x _ => clampAt_clampAt below smaller x

theorem clampEigenvalues_rearranged (tolerance : ℝ) (xs : List ℝ) (σ : Equiv.Perm (Fin xs.length)) :
    clampEigenvalues tolerance (List.ofFn (xs.get ∘ σ)) =
      List.ofFn (clampedEntry tolerance xs ∘ σ) := by
  have members (x : ℝ) : x ∈ List.ofFn (xs.get ∘ σ) ↔ x ∈ xs := by
    rw [List.mem_ofFn', σ.surjective.range_comp, List.mem_iff_get, Set.mem_range]
  rw [clampEigenvalues, largestMagnitude_congr members, List.map_ofFn]
  refine congrArg List.ofFn (funext fun i => ?_)
  exact (clampedEntry_eq tolerance xs (σ i)).symm

end Entries

section Arrays

theorem Entries.toList_map {α β : Type} (f : α → β) : (shape : List ℕ) → (entries : Entries α shape) →
    (entries.map f shape).toList shape = (entries.toList shape).map f
  | [], _ => rfl
  | n :: shape, entries => by
      have rows : Vector.toList (Entries.map f (n :: shape) entries) =
          (Vector.toList entries).map (Entries.map f shape) := Vector.toList_map
      rw [Entries.toList, rows, List.flatMap_map, Entries.toList, List.map_flatMap]
      simp only [Entries.toList_map f shape]

theorem toList_clampEntries (tolerance : ℝ) (t : Tensor ℝ) :
    (clampEntries tolerance t).toList = clampEigenvalues tolerance t.toList :=
  Entries.toList_map _ t.shape t.entries

end Arrays

/-- Clamping keeps the entries that are positive and above the tolerance times the largest magnitude, and
puts zero in the place of all others. It keeps the order of entries, changes nothing the second time, and
goes along with every rearrangement and every positive factor. An array of any shape keeps its shape, and
its entries are clamped as one list. -/
theorem clamping_relative_to_scale (nonneg : 0 ≤ tolerance) (xs : List ℝ) :
    (∃ m, (xs ≠ [] → IsGreatest (abs '' {x | x ∈ xs}) m) ∧
      clampEigenvalues tolerance xs =
        xs.map fun x => if 0 < x ∧ tolerance * m < x then x else 0) ∧
    (∀ i j, xs.get i ≤ xs.get j → clampedEntry tolerance xs i ≤ clampedEntry tolerance xs j) ∧
    (xs.Pairwise (· ≥ ·) → (clampEigenvalues tolerance xs).Pairwise (· ≥ ·)) ∧
    clampEigenvalues tolerance (clampEigenvalues tolerance xs) = clampEigenvalues tolerance xs ∧
    (∀ σ : Equiv.Perm (Fin xs.length), clampEigenvalues tolerance (List.ofFn (xs.get ∘ σ)) =
      List.ofFn (clampedEntry tolerance xs ∘ σ)) ∧
    (∀ k > 0, clampEigenvalues tolerance (xs.map (k * ·)) =
      (clampEigenvalues tolerance xs).map (k * ·)) ∧
    ∀ t : Tensor ℝ, t.toList = xs → (clampEntries tolerance t).shape = t.shape ∧
      (clampEntries tolerance t).toList = clampEigenvalues tolerance xs := by
  refine ⟨clampEigenvalues_eq_map nonneg xs, fun i j => clampedEntry_le nonneg,
    clampEigenvalues_descending nonneg, clampEigenvalues_idem nonneg xs,
    clampEigenvalues_rearranged tolerance xs,
    fun k positive => clampEigenvalues_map_mul positive tolerance xs, ?_⟩
  rintro t rfl
  exact ⟨rfl, toList_clampEntries tolerance t⟩

/-- The entry with the largest magnitude falls, and the rest stands at the smaller scale. -/
theorem clamping_relative_to_scale_negative :
    clampEigenvalues (1 / 2) [3, -4, 1 / 2] = [3, 0, (0 : ℝ)] ∧
      clampEigenvalues (1 / 2) [3, 0, 0] = [3, 0, (0 : ℝ)] := by
  obtain ⟨⟨m, greatest, entries⟩, _, _, again, _⟩ :=
    clamping_relative_to_scale (by norm_num : (0 : ℝ) ≤ 1 / 2) [3, -4, 1 / 2]
  have scale : IsGreatest (abs '' {x | x ∈ [3, -4, (1 / 2 : ℝ)]}) 4 := by
    refine ⟨⟨-4, by simp, by norm_num⟩, ?_⟩
    rintro _ ⟨x, listed, rfl⟩
    simp only [Set.mem_ofPred_eq, List.mem_cons, List.not_mem_nil, or_false] at listed
    rcases listed with rfl | rfl | rfl <;> norm_num [abs_le]
  have left : clampEigenvalues (1 / 2) [3, -4, 1 / 2] = [3, 0, (0 : ℝ)] := by
    rw [entries, (greatest (List.cons_ne_nil _ _)).unique scale]
    norm_num
  exact ⟨left, left ▸ again⟩

end LocalMetric
