import LocalMetric.Proofs.Clusterings
/-!
# The first of the best

What is chosen among items with values has a larger value than every item before it and no smaller one
than any item after it. Items without a value may be put in or left out anywhere.
-/
namespace LocalMetric.Selection

variable {β γ : Type} {value : β → Option ℝ} {items : List β} {best : β} {x : ℝ}

/-- The first item with the largest value. -/
structure IsFirstBest (value : β → Option ℝ) (items : List β) (best : β) (x : ℝ) : Prop where
  valued : value best = some x
  splits : ∃ before after, items = before ++ best :: after ∧
    (∀ item ∈ before, ∀ y, value item = some y → y < x) ∧
    ∀ item ∈ after, ∀ y, value item = some y → y ≤ x

section Folds

/-- Along a list the first of the largest items so far is kept. -/
theorem foldl_larger (rest : List (β × ℝ)) (first : β × ℝ) : ∃ before after,
    first :: rest = before ++
      rest.foldl (fun best item => if best.2 < item.2 then item else best) first :: after ∧
    (∀ item ∈ before, item.2 <
      (rest.foldl (fun best item => if best.2 < item.2 then item else best) first).2) ∧
    ∀ item ∈ after, item.2 ≤
      (rest.foldl (fun best item => if best.2 < item.2 then item else best) first).2 := by
  induction rest using List.reverseRecOn with
  | nil => exact ⟨[], [], rfl, nofun, nofun⟩
  | append_singleton rest last ih =>
      obtain ⟨before, after, split, smaller, bounded⟩ := ih
      rw [List.foldl_append, List.foldl_cons, List.foldl_nil, ← List.cons_append, split]
      generalize rest.foldl (fun best item => if best.2 < item.2 then item else best) first = best
        at smaller bounded ⊢
      by_cases larger : best.2 < last.2
      · rw [if_pos larger]
        refine ⟨before ++ best :: after, [], rfl, ?_, nofun⟩
        intro item member
        rcases List.mem_append.mp member with earlier | later
        · exact (smaller item earlier).trans larger
        · rcases List.mem_cons.mp later with rfl | later
          · exact larger
          · exact (bounded item later).trans_lt larger
      · rw [if_neg larger]
        refine ⟨before, after ++ [last], List.append_assoc _ _ _, smaller, ?_⟩
        intro item member
        rcases List.mem_append.mp member with earlier | there
        · exact bounded item earlier
        · rw [List.mem_singleton.mp there]
          exact not_lt.mp larger

end Folds

section Choices

theorem valued_iff {item : β} {pair : β × ℝ} :
    (value item).map (item, ·) = some pair ↔ pair.1 = item ∧ value item = some pair.2 := by
  rw [Option.map_eq_some_iff]
  constructor
  · rintro ⟨y, known, rfl⟩
    exact ⟨rfl, known⟩
  · rintro ⟨rfl, known⟩
    exact ⟨pair.2, known, rfl⟩

theorem exists_isFirstBest (chosen : firstBest value items = some best) :
    ∃ x, IsFirstBest value items best x := by
  rw [firstBest] at chosen
  split at chosen
  · cases chosen
  · rename_i first rest valued
    obtain ⟨before, after, split, smaller, bounded⟩ := foldl_larger rest first
    generalize rest.foldl (fun best item => if best.2 < item.2 then item else best) first = pair
      at chosen split smaller bounded
    obtain rfl := Option.some.inj chosen
    rw [split] at valued
    obtain ⟨front, others, rfl, ahead, behind⟩ := List.filterMap_eq_append_iff.mp valued
    obtain ⟨idle, item, back, rfl, absent, here, later⟩ := List.filterMap_eq_cons_iff.mp behind
    obtain ⟨rfl, known⟩ := valued_iff.mp here
    refine ⟨pair.2, known, front ++ idle, back, (List.append_assoc _ _ _).symm, ?_, ?_⟩
    · intro item member y there
      rcases List.mem_append.mp member with early | skipped
      · refine smaller (item, y) (ahead ▸ List.mem_filterMap.mpr ⟨item, early, ?_⟩)
        exact valued_iff.mpr ⟨rfl, there⟩
      · have unvalued := absent item skipped
        rw [there] at unvalued
        cases unvalued
    · intro item member y there
      refine bounded (item, y) (later ▸ List.mem_filterMap.mpr ⟨item, member, ?_⟩)
      exact valued_iff.mpr ⟨rfl, there⟩

theorem firstBest_eq_none_iff : firstBest value items = none ↔ ∀ item ∈ items, value item = none := by
  rw [firstBest]
  split
  · rename_i nothing
    rw [List.filterMap_eq_nil_iff] at nothing
    exact iff_of_true rfl fun item member => Option.map_eq_none_iff.mp (nothing item member)
  · rename_i first rest valued
    refine iff_of_false (Option.some_ne_none _) fun absent => ?_
    obtain ⟨item, member, here⟩ := List.mem_filterMap.mp (valued ▸ List.mem_cons_self)
    rw [absent item member] at here
    cases here

/-- Items without a value do not take part. -/
theorem firstBest_filter (value : β → Option ℝ) (items : List β) :
    firstBest value (items.filter fun item => (value item).isSome) = firstBest value items := by
  have same : (items.filter fun item => (value item).isSome).filterMap
      (fun item => (value item).map (item, ·)) =
        items.filterMap fun item => (value item).map (item, ·) := by
    rw [List.filterMap_filter]
    refine List.filterMap_congr fun item _ => ?_
    cases value item with
    | none => rfl
    | some y => rfl
  rw [firstBest, same, firstBest]

end Choices

namespace IsFirstBest

variable {f : γ → β} {given : List γ}

theorem mem (first : IsFirstBest value items best x) : best ∈ items := by
  obtain ⟨before, after, rfl, _, _⟩ := first.splits
  exact List.mem_append_right before List.mem_cons_self

theorem le (first : IsFirstBest value items best x) {item : β} (member : item ∈ items) {y : ℝ}
    (known : value item = some y) : y ≤ x := by
  obtain ⟨before, after, rfl, smaller, bounded⟩ := first.splits
  rcases List.mem_append.mp member with earlier | there
  · exact (smaller item earlier y known).le
  · rcases List.mem_cons.mp there with rfl | later
    · exact (Option.some.inj (known.symm.trans first.valued)).le
    · exact bounded item later y known

/-- In an ascending list the first of the best items is the least of them. -/
theorem key_le (first : IsFirstBest value items best x) {key : β → ℝ}
    (ascending : items.Pairwise fun a b => key a ≤ key b) {item : β} (member : item ∈ items)
    (known : value item = some x) : key best ≤ key item := by
  obtain ⟨before, after, rfl, smaller, _⟩ := first.splits
  rcases List.mem_append.mp member with earlier | there
  · exact absurd (smaller item earlier x known) (lt_irrefl x)
  · rcases List.mem_cons.mp there with rfl | later
    · exact le_rfl
    · have tail := (List.pairwise_append.mp ascending).2.1
      exact List.rel_of_pairwise_cons tail later

/-- What is chosen among images is the image of what is chosen. -/
theorem exists_of_map (first : IsFirstBest value (given.map f) best x) :
    ∃ item, f item = best ∧ IsFirstBest (fun item => value (f item)) given item x := by
  obtain ⟨valued, before, after, split, smaller, bounded⟩ := first
  obtain ⟨front, others, rfl, rfl, behind⟩ := List.map_eq_append_iff.mp split
  obtain ⟨item, back, rfl, rfl, rfl⟩ := List.map_eq_cons_iff.mp behind
  refine ⟨item, rfl, valued, front, back, rfl, ?_, ?_⟩
  · exact fun other member => smaller _ (List.mem_map_of_mem member)
  · exact fun other member => bounded _ (List.mem_map_of_mem member)

end IsFirstBest

/-- Among the images of items of which one has a value, the image of the first best item is chosen. -/
theorem exists_firstBest_map {f : γ → β} {given : List γ}
    (valued : ∃ item ∈ given, value (f item) ≠ none) :
    ∃ item x, firstBest value (given.map f) = some (f item) ∧
      IsFirstBest (fun item => value (f item)) given item x := by
  have exists_best : firstBest value (given.map f) ≠ none := by
    rw [ne_eq, firstBest_eq_none_iff, List.forall_mem_map]
    obtain ⟨item, member, known⟩ := valued
    exact fun absent => known (absent item member)
  obtain ⟨best, chosen⟩ := Option.ne_none_iff_exists'.mp exists_best
  obtain ⟨x, first⟩ := exists_isFirstBest chosen
  obtain ⟨item, rfl, among⟩ := first.exists_of_map
  exact ⟨item, x, chosen, among⟩

end LocalMetric.Selection
