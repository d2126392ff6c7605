import LocalMetric.Proofs.Analyses
/-!
# The least prefix that explains a share

The correlation dimension is the length of the shortest non-empty prefix of the eigenvalues that
reaches a share of their total. Neither a common factor nor zeros at the end change it. So what a local
analysis explains is at least the share it was asked for, up to the slack, whatever the solver finds.
-/
namespace LocalMetric

variable {share : ℝ} {xs : List ℝ} {d k : ℕ}

/-- The shortest non-empty prefix that reaches a share of the total, less the slack. -/
structure LeastPrefix (share : ℝ) (xs : List ℝ) (d : ℕ) : Prop where
  one_le : 1 ≤ d
  le : d ≤ xs.length
  reached : (share - 1e-12) * xs.sum ≤ (xs.take d).sum
  minimal : ∀ k, 1 ≤ k → k < d → (xs.take k).sum < (share - 1e-12) * xs.sum

theorem leading_get (xs : List ℝ) (d : ℕ) : leading xs.get d = (xs.take d).sum := by
  rw [leading, ← List.sum_take_ofFn, List.ofFn_get]

theorem sum_get (xs : List ℝ) : ∑ j, xs.get j = xs.sum := by
  rw [← leading_all, leading_get, List.take_length]

theorem leastPrefix_iff_selects : LeastPrefix share xs d ↔ Selects share xs.get d := by
  constructor
  · intro least
    constructor
    · exact least.one_le
    · exact least.le
    · rw [sum_get, leading_get]
      exact least.reached
    · intro k one_le before
      rw [sum_get, leading_get]
      exact least.minimal k one_le before
  · intro selects
    constructor
    · exact selects.one_le
    · exact selects.le
    · have reached := selects.reached
      rwa [sum_get, leading_get] at reached
    · intro k one_le before
      have missed := selects.minimal k one_le before
      rwa [sum_get, leading_get] at missed

namespace LeastPrefix

theorem le_of (least : LeastPrefix share xs d) (other : LeastPrefix share xs k) : d ≤ k := by
  by_contra! before
  have missed := least.minimal k other.one_le before
  exact absurd other.reached (not_le.mpr missed)

theorem unique (least : LeastPrefix share xs d) (other : LeastPrefix share xs k) : k = d :=
  le_antisymm (other.le_of least) (least.le_of other)

theorem append_zeros (least : LeastPrefix share xs d) (zeros : ℕ) :
    LeastPrefix share (xs ++ List.replicate zeros 0) d := by
  have sum : (xs ++ List.replicate zeros 0).sum = xs.sum := by simp
  constructor
  · exact least.one_le
  · rw [List.length_append]
    exact Nat.le_add_right_of_le least.le
  · rw [sum, List.take_append_of_le_length least.le]
    exact least.reached
  · intro k one_le before
    rw [sum, List.take_append_of_le_length (before.le.trans least.le)]
    exact least.minimal k one_le before

/-- The last value of the prefix is positive if any value is. -/
theorem pos_last (least : LeastPrefix share xs d) (descending : xs.Pairwise (· ≥ ·))
    (total : 0 < xs.sum) : ∃ x, xs[d - 1]? = some x ∧ 0 < x := by
  obtain ⟨k, rfl⟩ : ∃ k, d = k + 1 := ⟨d - 1, (Nat.sub_add_cancel least.one_le).symm⟩
  have inside : k < xs.length := least.le
  refine ⟨xs[k], List.getElem?_eq_getElem inside, ?_⟩
  cases k with
  | zero =>
      cases xs with
      | nil => exact absurd inside (Nat.not_lt_zero 0)
      | cons x xs =>
          by_contra! nonpos
          have rest (y : ℝ) (member : y ∈ x :: xs) : y ≤ 0 := by
            rcases List.mem_cons.mp member with rfl | later
            · exact nonpos
            · exact ((List.pairwise_cons.mp descending).1 y later).trans nonpos
          have vanishes : (x :: xs).sum ≤ 0 := by simpa using List.sum_le_card_nsmul (x :: xs) 0 rest
          exact absurd total (not_lt.mpr vanishes)
  | succ k =>
      have beyond : 1 < k + 2 := Nat.lt_add_of_pos_left (Nat.succ_pos k)
      exact (leastPrefix_iff_selects.mp least).pos_last (j := ⟨k + 1, inside⟩) beyond rfl

end LeastPrefix

theorem selectDimension_eq_ok_iff (filled : xs ≠ []) (nonneg : ∀ x ∈ xs, 0 ≤ x) (le_one : share ≤ 1) :
    selectDimension share xs = .ok d ↔ LeastPrefix share xs d := by
  have positive : 0 < xs.length := List.length_pos_iff.mpr filled
  have least {k : ℕ} (selected : selectDimension share xs = .ok k) : LeastPrefix share xs k := by
    rw [← List.ofFn_get xs] at selected
    have selects := selects_of_selectDimension positive (fun j => nonneg _ (xs.get_mem j)) le_one
      selected
    exact leastPrefix_iff_selects.mpr selects
  constructor
  · exact least
  · intro shortest
    obtain ⟨k, selected, _⟩ := exists_selectDimension share filled
    rw [selected, shortest.unique (least selected)]

section Explained

theorem explainedRatio_eq (d : ℕ) (xs : List ℝ) :
    explainedRatio d xs = if xs.sum ≤ 0 then 1 else (xs.take d).sum / xs.sum := by
  rw [explainedRatio, listSum_eq, listSum_eq]

theorem LeastPrefix.explainedRatio_mem_Icc (least : LeastPrefix share xs d)
    (nonneg : ∀ x ∈ xs, 0 ≤ x) (le_one : share ≤ 1) :
    explainedRatio d xs ∈ Set.Icc (share - 1e-12) 1 := by
  rw [explainedRatio_eq]
  split
  · constructor
    · linarith
    · exact le_rfl
  · rename_i total
    rw [not_le] at total
    constructor
    · exact (le_div_iff₀ total).mpr least.reached
    · exact (div_le_one total).mpr ((List.take_sublist d xs).sum_le_sum nonneg)

theorem clampEigenvalues_nonneg (tolerance : ℝ) (xs : List ℝ) :
    ∀ x ∈ clampEigenvalues tolerance xs, 0 ≤ x := by
  intro x member
  obtain ⟨y, _, rfl⟩ := List.mem_map.mp member
  exact clampAt_nonneg _ y

theorem Neighborhood.Analyzed.leastPrefix {s : Neighborhood ℝ} {solver : Solver ℝ}
    {config : Config ℝ} {r : LocalPca ℝ} (analyzed : s.Analyzed solver config r)
    (le_one : config.threshold ≤ 1) :
    LeastPrefix config.threshold r.eigenvalues r.correlationDimension := by
  have filled : r.eigenvalues ≠ [] := by
    rw [analyzed.eigenvalues, ← List.length_pos_iff, clampEigenvalues, List.length_map,
      Vector.length_toList]
    exact s.nonempty.2
  have nonneg := clampEigenvalues_nonneg config.tolerance
    (s.pairs solver config.center).values.toList
  rw [← analyzed.eigenvalues] at nonneg
  exact (selectDimension_eq_ok_iff filled nonneg le_one).mp analyzed.selected

/-- Of values without negative ones in descending order, the least prefix that reaches the share is
selected. It is the only one, it ends with a positive value if there is any, and it stays the same if
all values are scaled or zeros follow. So every local analysis explains the share of its configuration,
and everything if there is nothing to explain. -/
theorem least_prefix_selected :
    (∀ (share : ℝ) (xs : List ℝ), 0 < share → share ≤ 1 → xs ≠ [] → (∀ x ∈ xs, 0 ≤ x) →
      xs.Pairwise (· ≥ ·) → ∃ d, selectDimension share xs = .ok d ∧
        (∀ k, LeastPrefix share xs k ↔ k = d) ∧
        (0 < xs.sum → ∃ x, xs[d - 1]? = some x ∧ 0 < x) ∧
        (∀ c, 0 < c → selectDimension share (xs.map (c * ·)) = .ok d) ∧
        ∀ zeros, selectDimension share (xs ++ List.replicate zeros 0) = .ok d) ∧
    ∀ (solver : Solver ℝ) (config : Config ℝ) (anchor points : Tensor ℝ) (r : LocalPca ℝ),
      config.Accepted → LocalPca.compute solver config anchor points = .ok r →
        r.explainedVarianceRatio ∈ Set.Icc (config.threshold - 1e-12) 1 ∧
        (r.eigenvalues.sum = 0 → r.explainedVarianceRatio = 1) := by
  constructor
  · intro share xs _ le_one filled nonneg descending
    obtain ⟨d, selected, _⟩ := exists_selectDimension share filled
    have least := (selectDimension_eq_ok_iff filled nonneg le_one).mp selected
    refine ⟨d, selected, ?_, least.pos_last descending, ?_, ?_⟩
    · intro k
      constructor
      · exact least.unique
      · rintro rfl
        exact least
    · intro c positive
      rw [selectDimension_map_mul positive, selected]
    · intro zeros
      refine (selectDimension_eq_ok_iff ?_ ?_ le_one).mpr (least.append_zeros zeros)
      · exact List.append_ne_nil_of_left_ne_nil filled _
      · intro x member
        rcases List.mem_append.mp member with here | zero
        · exact nonneg x here
        · exact (List.eq_of_mem_replicate zero).ge
  · intro solver config anchor points r accepted answered
    have sound := Config.accepted_iff.mp accepted
    obtain ⟨s, valid, _⟩ := Checked.bind_ok_iff.mp answered
    have analyzed := analyzed_of_compute valid answered
    have nonneg : ∀ x ∈ r.eigenvalues, 0 ≤ x := by
      rw [analyzed.eigenvalues]
      exact clampEigenvalues_nonneg _ _
    constructor
    · exact (analyzed.leastPrefix sound.threshold_le).explainedRatio_mem_Icc nonneg
        sound.threshold_le
    · intro nothing
      rw [LocalPca.explainedVarianceRatio, explainedRatio_eq, if_pos nothing.le]

theorem least_prefix_selected_pair :
    selectDimension (0.85 : ℝ) [3, 1, 0] = .ok 2 ∧ selectDimension (0.85 : ℝ) [6, 2, 0] = .ok 2 ∧
    ∃ r, LocalPca.compute .spectral .usual ⟨[1], (#v[0] : Vector ℝ 1)⟩
        ⟨[2, 1], (#v[#v[1], #v[3]] : Mat ℝ 2 1)⟩ = .ok r ∧
      r.explainedVarianceRatio ∈ Set.Icc (0.85 - 1e-12) 1 := by
  obtain ⟨select, explain⟩ := least_prefix_selected
  obtain ⟨d, selected, least, _, scaled, _⟩ := select 0.85 [3, 1, 0] (by norm_num) (by norm_num)
    (by simp) (by norm_num) (by norm_num)
  have two : LeastPrefix 0.85 [3, 1, 0] 2 := by
    constructor
    · decide
    · decide
    · norm_num
    · intro k one_le before
      obtain rfl : k = 1 := by omega
      norm_num
  obtain rfl : 2 = d := (least 2).mp two
  have double : ([3, 1, 0] : List ℝ).map (2 * ·) = [6, 2, 0] := by norm_num
  let s := Neighborhood.ofRows #v[0] #v[#v[1], #v[3]] (by decide)
  obtain ⟨r, answered, _⟩ := exists_compute s.ofTensors_self .spectral .usual
  exact ⟨selected, double ▸ scaled 2 (by norm_num), r, answered,
    (explain _ _ _ _ r Config.usual_accepted answered).1⟩

end Explained

end LocalMetric
