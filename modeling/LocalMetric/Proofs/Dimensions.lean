import Mathlib.Algebra.BigOperators.Fin
import LocalMetric.Proofs.Reals
import LocalMetric.Pca.Spectrum
/-!
# The correlation dimension

The dimension that is selected is the least number of leading eigenvalues that reach a share of the
total, up to a small slack, whatever factor they have in common. A dimension beyond one ends with an
eigenvalue that survived clamping. Clamping more and asking for a smaller share never selects a larger
dimension.
-/
namespace LocalMetric

section Selection

variable {α : Type} [Scalar α]

theorem length_runningSums (total : α) (xs : List α) :
    (runningSums total xs).length = xs.length := by
  induction xs generalizing total with
  | nil => rfl
  | cons x xs ih => rw [runningSums, List.length_cons, List.length_cons, ih]

theorem exists_selectDimension (threshold : α) {xs : List α} (filled : xs ≠ []) :
    ∃ d, selectDimension threshold xs = .ok d ∧ 1 ≤ d ∧ d ≤ xs.length := by
  have positive : 0 < xs.length := List.length_pos_iff.mpr filled
  unfold selectDimension
  simp only
  split
  · rename_i empty
    rw [List.getLast?_eq_none_iff, ← List.length_eq_zero_iff, length_runningSums] at empty
    omega
  · refine ⟨_, rfl, by omega, ?_⟩
    cases found : (runningSums 0 xs).findIdx? _ with
    | none => exact positive
    | some i =>
        obtain ⟨inside, _⟩ := List.findIdx?_eq_some_iff_getElem.mp found
        rw [length_runningSums] at inside
        exact inside

end Selection

section Sums

variable {n : ℕ}

def leading (f : Fin n → ℝ) (d : ℕ) : ℝ := ∑ j with j.val < d, f j

theorem getElem_runningSums {total : ℝ} {xs : List ℝ} {k : ℕ}
    (inside : k < (runningSums total xs).length) :
    (runningSums total xs)[k] = total + (xs.take (k + 1)).sum := by
  induction xs generalizing total k with
  | nil => exact absurd inside (Nat.not_lt_zero k)
  | cons x xs ih =>
      cases k with
      | zero => simp only [runningSums, List.getElem_cons_zero, zero_add, List.take_succ_cons,
          List.take_zero, List.sum_cons, List.sum_nil, add_zero]
      | succ k =>
          simp only [runningSums, List.getElem_cons_succ]
          rw [ih, List.take_succ_cons, List.sum_cons, add_assoc]

theorem getElem_runningSums_ofFn (f : Fin n → ℝ) {k : ℕ}
    (inside : k < (runningSums 0 (List.ofFn f)).length) :
    (runningSums 0 (List.ofFn f))[k] = leading f (k + 1) := by
  rw [getElem_runningSums, zero_add, List.sum_take_ofFn, leading]

theorem leading_eq_sum {f : Fin n → ℝ} {d : ℕ} (rest : ∀ j : Fin n, d ≤ j.val → f j = 0) :
    leading f d = ∑ j, f j := by
  rw [leading, Finset.sum_filter]
  refine Finset.sum_congr rfl fun j _ => ?_
  split
  · rfl
  · rename_i outside
    exact (rest j (not_lt.mp outside)).symm

theorem leading_all (f : Fin n → ℝ) : leading f n = ∑ j, f j :=
  leading_eq_sum fun j outside => absurd j.isLt (not_lt.mpr outside)

theorem leading_nonneg {f : Fin n → ℝ} (nonneg : ∀ j, 0 ≤ f j) (d : ℕ) : 0 ≤ leading f d :=
  Finset.sum_nonneg fun j _ => nonneg j

theorem leading_le_sum {f : Fin n → ℝ} (nonneg : ∀ j, 0 ≤ f j) (d : ℕ) :
    leading f d ≤ ∑ j, f j :=
  Finset.sum_le_sum_of_subset_of_nonneg (Finset.filter_subset _ _) fun j _ _ => nonneg j

theorem leading_succ (f : Fin n → ℝ) {d : ℕ} (inside : d < n) :
    leading f (d + 1) = leading f d + f ⟨d, inside⟩ := by
  have split : ({j | j.val < d + 1} : Finset (Fin n)) =
      insert ⟨d, inside⟩ ({j | j.val < d} : Finset (Fin n)) := by
    ext j
    simp only [Finset.mem_filter, Finset.mem_univ, true_and, Finset.mem_insert, Fin.ext_iff]
    omega
  have outside : (⟨d, inside⟩ : Fin n) ∉ ({j | j.val < d} : Finset (Fin n)) := by
    simp only [Finset.mem_filter, Finset.mem_univ, true_and, lt_irrefl, not_false_eq_true]
  rw [leading, split, Finset.sum_insert outside, add_comm, leading]

end Sums

section Factors

variable {k : ℝ}

theorem runningSums_map_mul (total : ℝ) (xs : List ℝ) :
    runningSums (k * total) (xs.map (k * ·)) = (runningSums total xs).map (k * ·) := by
  induction xs generalizing total with
  | nil => rfl
  | cons x xs ih =>
      rw [List.map_cons, runningSums, runningSums, List.map_cons, ← mul_add, ih]

/-- The choice of a dimension does not see a common factor. -/
theorem selectDimension_map_mul (positive : 0 < k) (threshold : ℝ) (xs : List ℝ) :
    selectDimension threshold (xs.map (k * ·)) = selectDimension threshold xs := by
  have sums : runningSums 0 (xs.map (k * ·)) = (runningSums 0 xs).map (k * ·) := by
    rw [← runningSums_map_mul, mul_zero]
  have target (total : ℝ) : threshold * (k * total) - 1e-12 * (k * total) =
      k * (threshold * total - 1e-12 * total) := by
    ring
  unfold selectDimension
  simp only [sums, List.getLast?_map]
  cases (runningSums 0 xs).getLast? with
  | none => rfl
  | some total =>
      simp only [Option.map_some, target, List.findIdx?_map, Function.comp_def,
        mul_le_mul_iff_right₀ positive]

end Factors

section Least

variable {n d : ℕ} {threshold : ℝ} {f : Fin n → ℝ}

/-- The least positive number of leading values that reach a share of the total, less the slack. -/
structure Selects (threshold : ℝ) (f : Fin n → ℝ) (d : ℕ) : Prop where
  one_le : 1 ≤ d
  le : d ≤ n
  reached : (threshold - 1e-12) * ∑ j, f j ≤ leading f d
  minimal : ∀ k, 1 ≤ k → k < d → leading f k < (threshold - 1e-12) * ∑ j, f j

theorem selectDimension_ofFn_eq (positive : 0 < n) (threshold : ℝ) (f : Fin n → ℝ) :
    selectDimension threshold (List.ofFn f) = .ok (((runningSums 0 (List.ofFn f)).findIdx?
      fun s => decide ((threshold - 1e-12) * ∑ j, f j ≤ s)).getD 0 + 1) := by
  have length := length_runningSums 0 (List.ofFn f)
  rw [List.length_ofFn] at length
  have last : (runningSums 0 (List.ofFn f)).getLast? = some (∑ j, f j) := by
    have inside : n - 1 < (runningSums 0 (List.ofFn f)).length := by omega
    rw [List.getLast?_eq_getElem?, length, List.getElem?_eq_getElem inside,
      getElem_runningSums_ofFn, Nat.sub_add_cancel positive, leading_all]
  rw [selectDimension]
  simp only [last, sub_mul]

theorem selects_of_selectDimension (positive : 0 < n) (nonneg : ∀ j, 0 ≤ f j)
    (share : threshold ≤ 1) (selected : selectDimension threshold (List.ofFn f) = .ok d) :
    Selects threshold f d := by
  have length := length_runningSums 0 (List.ofFn f)
  rw [List.length_ofFn] at length
  rw [selectDimension_ofFn_eq positive] at selected
  cases found : (runningSums 0 (List.ofFn f)).findIdx?
      fun s => decide ((threshold - 1e-12) * ∑ j, f j ≤ s) with
  | none =>
      have inside : n - 1 < (runningSums 0 (List.ofFn f)).length := by omega
      have missed := List.findIdx?_eq_none_iff.mp found _ (List.getElem_mem inside)
      rw [getElem_runningSums_ofFn, Nat.sub_add_cancel positive, leading_all,
        decide_eq_false_iff_not] at missed
      have total : 0 ≤ ∑ j, f j := Finset.sum_nonneg fun j _ => nonneg j
      have less : threshold - 1e-12 ≤ 1 := by linarith
      exact absurd (mul_le_of_le_one_left total less) missed
  | some i =>
      rw [found, Option.getD_some] at selected
      obtain rfl : i + 1 = d := Except.ok.inj selected
      obtain ⟨inside, here, before⟩ := List.findIdx?_eq_some_iff_getElem.mp found
      rw [getElem_runningSums_ofFn, decide_eq_true_eq] at here
      refine ⟨by omega, by omega, here, ?_⟩
      intro k one_le earlier
      have missed := before (k - 1) (by omega)
      rw [getElem_runningSums_ofFn, Nat.sub_add_cancel one_le, decide_eq_true_eq] at missed
      exact not_le.mp missed

/-- A dimension beyond one ends with a positive value. -/
theorem Selects.pos_last (selects : Selects threshold f d) (beyond : 1 < d) {j : Fin n}
    (last : j.val + 1 = d) : 0 < f j := by
  have before := selects.minimal j.val (by omega) (by omega)
  have reached := selects.reached
  rw [← last, leading_succ f j.isLt] at reached
  linarith

end Least

section Clamping

variable {n : ℕ}

theorem Scalar.abs_eq (x : ℝ) : Scalar.abs x = |x| := by
  rw [Scalar.abs]
  split
  · rename_i negative
    exact (abs_of_neg negative).symm
  · rename_i other
    exact (abs_of_nonneg (not_lt.mp other)).symm

theorem max?_magnitudes {xs : List ℝ} (filled : xs ≠ []) :
    (xs.map abs).max? = some (largestMagnitude xs) := by
  obtain ⟨x, xs, rfl⟩ := List.exists_cons_of_ne_nil filled
  rw [List.map_cons, List.max?_cons', List.foldl_map, largestMagnitude]
  simp only [Scalar.largerOrNaN_eq_max, Scalar.abs_eq]

theorem isGreatest_largestMagnitude {xs : List ℝ} (filled : xs ≠ []) :
    IsGreatest (abs '' {x | x ∈ xs}) (largestMagnitude xs) := by
  obtain ⟨member, greatest⟩ := List.max?_eq_some_iff.mp (max?_magnitudes filled)
  refine ⟨List.mem_map.mp member, ?_⟩
  rintro _ ⟨x, listed, rfl⟩
  exact greatest _ (List.mem_map_of_mem listed)

theorem largestMagnitude_nonneg (xs : List ℝ) : 0 ≤ largestMagnitude xs := by
  cases xs with
  | nil => exact le_rfl
  | cons x xs =>
      obtain ⟨y, _, same⟩ := (isGreatest_largestMagnitude (List.cons_ne_nil x xs)).1
      exact same ▸ abs_nonneg y

theorem clampBound_nonneg {tolerance : ℝ} (nonneg : 0 ≤ tolerance) (xs : List ℝ) :
    0 ≤ tolerance * largestMagnitude xs :=
  mul_nonneg nonneg (largestMagnitude_nonneg xs)

theorem largestMagnitude_le {bound : ℝ} (nonneg : 0 ≤ bound) {xs : List ℝ}
    (small : ∀ x ∈ xs, |x| ≤ bound) : largestMagnitude xs ≤ bound := by
  cases xs with
  | nil => exact nonneg
  | cons x xs =>
      obtain ⟨y, member, same⟩ := (isGreatest_largestMagnitude (List.cons_ne_nil x xs)).1
      exact same ▸ small y member

theorem clampAt_nonneg (bound x : ℝ) : 0 ≤ clampAt bound x := by
  rw [clampAt]
  split
  · exact le_rfl
  · rw [Scalar.nonNegative_eq_max]
    exact le_max_right x 0

/-- Clamping keeps what is above the bound, whatever its sign was. -/
theorem clampAt_eq {bound : ℝ} (nonneg : 0 ≤ bound) (x : ℝ) :
    clampAt bound x = if x ≤ bound then 0 else x := by
  rw [clampAt, Scalar.abs_eq, Scalar.nonNegative_eq_max]
  by_cases small : x ≤ bound
  · rw [if_pos small]
    split
    · rfl
    · rename_i large
      have negative : x < 0 := by
        by_contra! positive
        exact large ((abs_of_nonneg positive).trans_le small)
      exact max_eq_right negative.le
  · have above := not_le.mp small
    rw [if_neg small, if_neg fun inside => small ((le_abs_self x).trans inside)]
    exact max_eq_left (nonneg.trans above.le)

theorem monotone_clampAt {bound : ℝ} (nonneg : 0 ≤ bound) : Monotone (clampAt bound) := by
  intro x y ordered
  rw [clampAt_eq nonneg, clampAt_eq nonneg]
  by_cases small : x ≤ bound
  · rw [if_pos small]
    split
    · exact le_rfl
    · rename_i large
      exact nonneg.trans (not_le.mp large).le
  · rw [if_neg small, if_neg fun below => small (ordered.trans below)]
    exact ordered

theorem clampAt_of_nonneg {x : ℝ} (nonneg : 0 ≤ x) (bound : ℝ) :
    clampAt bound x = if x ≤ bound then 0 else x := by
  rw [clampAt, Scalar.abs_eq, abs_of_nonneg nonneg, Scalar.nonNegative_eq_max, max_eq_left nonneg]

noncomputable def clamped (tolerance : ℝ) (values : Fin n → ℝ) (j : Fin n) : ℝ :=
  clampAt (tolerance * largestMagnitude (List.ofFn values)) (values j)

theorem clampEigenvalues_ofFn (tolerance : ℝ) (values : Fin n → ℝ) :
    clampEigenvalues tolerance (List.ofFn values) = List.ofFn (clamped tolerance values) := by
  rw [clampEigenvalues, List.map_ofFn]
  rfl

variable {values : Fin n → ℝ} {tolerance tolerance' : ℝ}

theorem clamped_nonneg (tolerance : ℝ) (values : Fin n → ℝ) (j : Fin n) :
    0 ≤ clamped tolerance values j :=
  clampAt_nonneg _ _

theorem antitone_clamped (descending : Antitone values) (nonneg : 0 ≤ tolerance) :
    Antitone (clamped tolerance values) := by
  intro i j ordered
  exact monotone_clampAt (clampBound_nonneg nonneg (List.ofFn values)) (descending ordered)

/-- Clamping takes away a share of the largest magnitude at most. -/
theorem sub_clamped_mem_Icc (nonneg : ∀ j, 0 ≤ values j) (nonneg' : 0 ≤ tolerance) (j : Fin n) :
    values j - clamped tolerance values j ∈
      Set.Icc 0 (tolerance * largestMagnitude (List.ofFn values)) := by
  rw [clamped, clampAt_of_nonneg (nonneg j)]
  split
  · rename_i small
    rw [sub_zero]
    exact ⟨nonneg j, small⟩
  · rw [sub_self]
    exact ⟨le_rfl, clampBound_nonneg nonneg' _⟩

theorem pos_of_clamped_pos (nonneg : ∀ j, 0 ≤ values j) {j : Fin n}
    (kept : 0 < clamped tolerance values j) : 0 < values j := by
  rw [clamped, clampAt_of_nonneg (nonneg j)] at kept
  split at kept
  · exact absurd kept (lt_irrefl 0)
  · exact kept

theorem clamped_le (nonneg : ∀ j, 0 ≤ values j) (larger : tolerance ≤ tolerance') (j : Fin n) :
    clamped tolerance' values j ≤ clamped tolerance values j := by
  have bound := mul_le_mul_of_nonneg_right larger (largestMagnitude_nonneg (List.ofFn values))
  by_cases small : values j ≤ tolerance' * largestMagnitude (List.ofFn values)
  · rw [clamped, clampAt_of_nonneg (nonneg j), if_pos small]
    exact clamped_nonneg tolerance values j
  · have large := fun small' => small (le_trans small' bound)
    rw [clamped, clamped, clampAt_of_nonneg (nonneg j), clampAt_of_nonneg (nonneg j),
      if_neg small, if_neg large]

/-- Eigenvalues before one that is kept are kept, with a smaller tolerance all the more. -/
theorem clamped_eq_of_kept (nonneg : ∀ j, 0 ≤ values j) (descending : Antitone values)
    (larger : tolerance ≤ tolerance') {i j : Fin n} (before : i ≤ j)
    (kept : clamped tolerance' values j ≠ 0) : clamped tolerance values i = values i := by
  rw [clamped, clampAt_of_nonneg (nonneg j)] at kept
  rw [clamped, clampAt_of_nonneg (nonneg i)]
  have bound := mul_le_mul_of_nonneg_right larger (largestMagnitude_nonneg (List.ofFn values))
  have large : ¬values j ≤ tolerance' * largestMagnitude (List.ofFn values) :=
    fun small => kept (if_pos small)
  exact if_neg fun small => large ((descending before).trans (small.trans bound))

/-- Clamping more leaves the leading eigenvalues a larger share of the total. -/
theorem leading_mul_sum_le (nonneg : ∀ j, 0 ≤ values j) (descending : Antitone values)
    (larger : tolerance ≤ tolerance') (d : ℕ) :
    leading (clamped tolerance values) d * ∑ j, clamped tolerance' values j ≤
      leading (clamped tolerance' values) d * ∑ j, clamped tolerance values j := by
  have nonneg' := leading_nonneg (clamped_nonneg tolerance' values) d
  by_cases rest : ∀ j : Fin n, d ≤ j.val → clamped tolerance' values j = 0
  · rw [← leading_eq_sum rest, mul_comm]
    exact mul_le_mul_of_nonneg_left (leading_le_sum (clamped_nonneg tolerance values) d) nonneg'
  · -- Something is kept beyond the cut, so clamping more has changed nothing before it.
    push Not at rest
    obtain ⟨j, beyond, kept⟩ := rest
    have same : leading (clamped tolerance' values) d = leading (clamped tolerance values) d := by
      refine Finset.sum_congr rfl fun i inside => ?_
      have inside := (Finset.mem_filter.mp inside).2
      have before : i ≤ j := Fin.le_def.mpr (by omega)
      rw [clamped_eq_of_kept nonneg descending le_rfl before kept,
        clamped_eq_of_kept nonneg descending larger before kept]
    rw [same] at nonneg' ⊢
    exact mul_le_mul_of_nonneg_left
      (Finset.sum_le_sum fun i _ => clamped_le nonneg larger i) nonneg'

/-- Clamping more and asking for a smaller share never selects a larger dimension. -/
theorem Selects.le_of_le {threshold threshold' : ℝ} {d d' : ℕ} (nonneg : ∀ j, 0 ≤ values j)
    (descending : Antitone values) (larger : tolerance ≤ tolerance')
    (smaller : threshold' ≤ threshold) (selects : Selects threshold (clamped tolerance values) d)
    (selects' : Selects threshold' (clamped tolerance' values) d') : d' ≤ d := by
  by_contra! beyond
  have missed := selects'.minimal d selects.one_le beyond
  have total : 0 ≤ ∑ j, clamped tolerance values j :=
    Finset.sum_nonneg fun j _ => clamped_nonneg tolerance values j
  have total' : 0 ≤ ∑ j, clamped tolerance' values j :=
    Finset.sum_nonneg fun j _ => clamped_nonneg tolerance' values j
  have less : ∑ j, clamped tolerance' values j ≤ ∑ j, clamped tolerance values j :=
    Finset.sum_le_sum fun j _ => clamped_le nonneg larger j
  have share : (threshold' - 1e-12) * ∑ j, clamped tolerance' values j ≤
      (threshold - 1e-12) * ∑ j, clamped tolerance' values j :=
    mul_le_mul_of_nonneg_right (by linarith) total'
  have reached : (threshold - 1e-12) * ∑ j, clamped tolerance' values j ≤
      leading (clamped tolerance' values) d := by
    rcases total.lt_or_eq with positive | zero
    · have crossed := (mul_le_mul_of_nonneg_right selects.reached total').trans
        (leading_mul_sum_le nonneg descending larger d)
      refine le_of_mul_le_mul_right ?_ positive
      linarith
    · have zero' : ∑ j, clamped tolerance' values j = 0 := le_antisymm (zero ▸ less) total'
      rw [zero', mul_zero]
      exact leading_nonneg (clamped_nonneg tolerance' values) d
  linarith

end Clamping

end LocalMetric
