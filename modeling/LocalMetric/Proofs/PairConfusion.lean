import LocalMetric.Proofs.Analyses
import LocalMetric.Proofs.ResultEntries
/-!
# How well two partitions agree

A labelling puts positions together that have equal labels, and the adjusted Rand score sees nothing
else of it. It is at most one and never a quotient by zero, and it is one exactly if the two labellings
put the same positions together. So the clustering that agrees best with the true labels is the true
partition if any of the clusterings is.
-/
namespace LocalMetric

section Partitions

variable {β γ δ : Type}

/-- The positions of a list, put together where the entries are equal. All positions behind its end are
together. -/
def partition (labels : List β) : Setoid ℕ := Setoid.ker fun i => labels[i]?

theorem partition_iff {labels : List β} {i j : ℕ} : partition labels i j ↔ labels[i]? = labels[j]? :=
  Iff.rfl

/-- Entries that are equal for one function where they are for another one give the same partition. -/
theorem partition_map_congr {f : β → γ} {g : β → δ} {labels : List β}
    (same : ∀ x ∈ labels, ∀ y ∈ labels, f x = f y ↔ g x = g y) :
    partition (labels.map f) = partition (labels.map g) := by
  ext i j
  rw [partition_iff, partition_iff]
  simp only [List.getElem?_map]
  cases first : labels[i]? with
  | none =>
      cases labels[j]? with
      | none => exact iff_of_true rfl rfl
      | some y => exact iff_of_false nofun nofun
  | some x =>
      cases second : labels[j]? with
      | none => exact iff_of_false nofun nofun
      | some y =>
          simp only [Option.map_some, Option.some.injEq]
          exact same x (List.mem_of_getElem? first) y (List.mem_of_getElem? second)

/-- A renaming that keeps labels apart keeps the partition. -/
theorem partition_map {f : β → γ} {labels : List β}
    (injective : Set.InjOn f {x | x ∈ labels}) : partition (labels.map f) = partition labels := by
  have same := partition_map_congr (g := id) fun x hx y hy => ⟨injective hx hy, congrArg f⟩
  rwa [List.map_id] at same

theorem partition_iff_of_lt {labels : List β} {i j : ℕ} (hi : i < labels.length)
    (hj : j < labels.length) : partition labels i j ↔ labels[i] = labels[j] := by
  rw [partition_iff, List.getElem?_eq_getElem hi, List.getElem?_eq_getElem hj, Option.some.injEq]

/-- Partitions of as many positions are equal if they agree on different positions before the end. -/
theorem partition_eq_iff {first : List β} {second : List γ} {n : ℕ} (length : first.length = n)
    (length' : second.length = n) : partition first = partition second ↔
      ∀ i j : Fin n, i ≠ j → (partition first i j ↔ partition second i j) := by
  subst length
  constructor
  · intro same i j _
    rw [same]
  · intro agree
    have outside {δ : Type} {labels : List δ} (size : labels.length = first.length) {i j : ℕ}
        (beyond : first.length ≤ i) : partition labels i j ↔ first.length ≤ j := by
      rw [partition_iff, List.getElem?_eq_none (size ▸ beyond), eq_comm, List.getElem?_eq_none_iff,
        size]
    ext i j
    rcases lt_or_ge i first.length with hi | beyond
    · rcases lt_or_ge j first.length with hj | beyond
      · rcases eq_or_ne i j with rfl | apart
        · exact iff_of_true ((partition first).refl i) ((partition second).refl i)
        · exact agree ⟨i, hi⟩ ⟨j, hj⟩ fun same => apart (Fin.val_eq_of_eq same)
      · rw [Setoid.comm', outside rfl beyond, Setoid.comm', outside length' beyond]
    · rw [outside rfl beyond, outside length' beyond]

end Partitions

section Pairs

variable {n : ℕ} {p q : Setoid ℕ}

open Classical in
/-- How many ordered pairs of different positions each of two partitions keeps together or apart. -/
noncomputable def pairsCount (n : ℕ) (p q : Setoid ℕ) (first second : Bool) : ℕ :=
  ((Finset.univ : Finset (Fin n)).offDiag.filter fun pair =>
    (p pair.1 pair.2 ↔ first = true) ∧ (q pair.1 pair.2 ↔ second = true)).card

theorem pairsCount_comm (n : ℕ) (p q : Setoid ℕ) (first second : Bool) :
    pairsCount n p q first second = pairsCount n q p second first := by
  classical
  rw [pairsCount, pairsCount]
  exact congrArg Finset.card (Finset.filter_congr fun _ _ => and_comm)

theorem pairsCount_eq_zero_iff {first second : Bool} : pairsCount n p q first second = 0 ↔
    ∀ i j : Fin n, i ≠ j → (p i j ↔ first = true) → ¬(q i j ↔ second = true) := by
  classical
  rw [pairsCount, Finset.card_eq_zero, Finset.filter_eq_empty_iff]
  simp only [Finset.mem_offDiag, Finset.mem_univ, true_and, not_and, Prod.forall]

/-- No pair is kept together by one partition only exactly if the partitions agree. -/
theorem pairsCount_eq_zero_and_iff :
    pairsCount n p q true false = 0 ∧ pairsCount n p q false true = 0 ↔
      ∀ i j : Fin n, i ≠ j → (p i j ↔ q i j) := by
  rw [pairsCount_eq_zero_iff, pairsCount_eq_zero_iff]
  simp only [iff_true, Bool.false_eq_true, iff_false, not_not]
  constructor
  · rintro ⟨forth, back⟩ i j apart
    exact ⟨forth i j apart, not_imp_not.mp (back i j apart)⟩
  · intro agree
    exact ⟨fun i j apart => (agree i j apart).mp, fun i j apart => mt (agree i j apart).mpr⟩

end Pairs

section Counting

variable {β : Type}

theorem countP_eq_sum (related : β → Bool) (entries : List β) :
    entries.countP related = ∑ j : Fin entries.length, if related entries[j.val] then 1 else 0 := by
  rw [Fin.sum_univ_fun_getElem entries fun x => if related x then 1 else 0]
  induction entries with
  | nil => rfl
  | cons x entries ih => rw [List.countP_cons, ih, List.map_cons, List.sum_cons, add_comm]

/-- A count over all pairs is one over the positions themselves and one over different positions. -/
theorem foldl_countP (related : β → β → Bool) (entries : List β) :
    entries.foldl (fun count x => count + entries.countP (related x)) 0 =
      entries.countP (fun x => related x x) +
        ((Finset.univ : Finset (Fin entries.length)).offDiag.filter fun pair =>
          related entries[pair.1.val] entries[pair.2.val] = true).card := by
  let places : Finset (Fin entries.length) := Finset.univ
  calc
    _ = (entries.map fun x => entries.countP (related x)).sum := by
      rw [List.sum_eq_foldl, List.foldl_map]
    _ = ∑ i ∈ places, ∑ j ∈ places, if related entries[i.val] entries[j.val] then 1 else 0 := by
      rw [← Fin.sum_univ_fun_getElem]
      exact Finset.sum_congr rfl fun i _ => countP_eq_sum _ _
    _ = ∑ pair ∈ places ×ˢ places,
        if related entries[pair.1.val] entries[pair.2.val] then 1 else 0 := by
      rw [Finset.sum_product]
    _ = _ := by
      rw [← Finset.diag_union_offDiag, Finset.sum_union (Finset.disjoint_diag_offDiag _),
        Finset.sum_diag, countP_eq_sum, Finset.card_filter]

theorem beq_beq_iff {x y : Int} {same : Bool} : ((x == y) == same) = true ↔ (x = y ↔ same = true) := by
  rw [beq_iff_eq, Bool.eq_iff_iff, beq_iff_eq]

/-- The pairs that are counted are those that the partitions keep together or apart. -/
theorem countPairs_eq (labels : List (Int × Int)) (first second : Bool) :
    External.countPairs labels first second = pairsCount labels.length
      (partition (labels.map (·.1))) (partition (labels.map (·.2))) first second := by
  have alike (i j : Fin labels.length) :
      ((labels[i.val].1 == labels[j.val].1) == first &&
        (labels[i.val].2 == labels[j.val].2) == second) = true ↔
      (partition (labels.map (·.1)) i j ↔ first = true) ∧
        (partition (labels.map (·.2)) i j ↔ second = true) := by
    rw [Bool.and_eq_true, beq_beq_iff, beq_beq_iff, partition_iff_of_lt (by simp) (by simp),
      partition_iff_of_lt (by simp) (by simp)]
    simp only [List.getElem_map]
  have itself : labels.countP (fun x => (x.1 == x.1) == first && (x.2 == x.2) == second) =
      if first && second then labels.length else 0 := by
    simp only [beq_self_eq_true, Bool.true_beq]
    split
    · rename_i both
      exact List.countP_eq_length.mpr fun _ _ => both
    · rename_i other
      exact List.countP_eq_zero.mpr fun _ _ => other
  classical
  rw [External.countPairs, foldl_countP, itself, pairsCount, Finset.filter_congr fun _ _ => alike _ _]
  split
  · exact Nat.add_sub_cancel_left _ _
  · exact Nat.zero_add _

end Counting

section Scores

namespace External

def PairCounts.denominator (c : PairCounts) : ℕ :=
  (c.together + c.firstOnly) * (c.firstOnly + c.apart) +
    (c.together + c.secondOnly) * (c.secondOnly + c.apart)

/-- A score of two labellings: it is one where no pair of positions is kept together by only one of
them, and else a quotient by a positive number. -/
structure PairCounts.Rates (c : PairCounts) (score : ℝ) : Prop where
  alike : c.firstOnly = 0 ∧ c.secondOnly = 0 → score = 1
  quotient : ¬(c.firstOnly = 0 ∧ c.secondOnly = 0) → 0 < c.denominator ∧
    score = 2 * (c.together * c.apart - c.firstOnly * c.secondOnly) / c.denominator

theorem PairCounts.denominator_pos {c : PairCounts}
    (differ : ¬(c.firstOnly = 0 ∧ c.secondOnly = 0)) : 0 < c.denominator := by
  rcases not_and_or.mp differ with apart | apart
  · exact Nat.add_pos_left (Nat.mul_pos (by omega) (by omega)) _
  · exact Nat.add_pos_right _ (Nat.mul_pos (by omega) (by omega))

theorem adjustedRand_rates (labels : List (Int × Int)) :
    (pairCounts labels).Rates (adjustedRand labels) := by
  constructor
  · exact fun alike => if_pos alike
  · intro differ
    refine ⟨PairCounts.denominator_pos differ, (if_neg differ).trans ?_⟩
    rw [one_add_one_eq_two, PairCounts.denominator]
    push_cast
    rfl

namespace PairCounts.Rates

variable {c : PairCounts} {score other : ℝ}

/-- The score falls short of one by a share of the pairs that only one labelling keeps together. -/
theorem one_sub_eq (rates : c.Rates score) (differ : ¬(c.firstOnly = 0 ∧ c.secondOnly = 0)) :
    1 - score = ((c.firstOnly + c.secondOnly) *
      (c.together + c.firstOnly + c.secondOnly + c.apart) : ℕ) / c.denominator := by
  obtain ⟨positive, rfl⟩ := rates.quotient differ
  have known : (c.denominator : ℝ) ≠ 0 := Nat.cast_ne_zero.mpr positive.ne'
  rw [one_sub_div known, denominator]
  push_cast
  ring

theorem lt_one (rates : c.Rates score) (differ : ¬(c.firstOnly = 0 ∧ c.secondOnly = 0)) :
    score < 1 := by
  have disputed : 0 < c.firstOnly + c.secondOnly := by omega
  have above : 0 < 1 - score := by
    rw [rates.one_sub_eq differ]
    refine div_pos (Nat.cast_pos.mpr (Nat.mul_pos disputed ?_))
      (Nat.cast_pos.mpr (rates.quotient differ).1)
    omega
  exact sub_pos.mp above

theorem eq_one_iff (rates : c.Rates score) : score = 1 ↔ c.firstOnly = 0 ∧ c.secondOnly = 0 := by
  refine ⟨fun one => ?_, rates.alike⟩
  by_contra differ
  exact (rates.lt_one differ).ne one

theorem le_one (rates : c.Rates score) : score ≤ 1 := by
  by_cases alike : c.firstOnly = 0 ∧ c.secondOnly = 0
  · exact (rates.alike alike).le
  · exact (rates.lt_one alike).le

theorem unique (rates : c.Rates score) (rates' : c.Rates other) : score = other := by
  by_cases alike : c.firstOnly = 0 ∧ c.secondOnly = 0
  · rw [rates.alike alike, rates'.alike alike]
  · rw [(rates.quotient alike).2, (rates'.quotient alike).2]

/-- The labellings may change their places. -/
theorem swap (rates : c.Rates score) :
    (PairCounts.mk c.together c.secondOnly c.firstOnly c.apart).Rates score := by
  have same : (PairCounts.mk c.together c.secondOnly c.firstOnly c.apart).denominator =
      c.denominator := Nat.add_comm _ _
  constructor
  · exact fun alike => rates.alike alike.symm
  · intro differ
    rw [same, mul_comm (c.secondOnly : ℝ)]
    exact rates.quotient (mt And.symm differ)

end PairCounts.Rates

/-- The pairs of different positions by whether two partitions keep them together. -/
noncomputable def PairCounts.ofPartitions (n : ℕ) (p q : Setoid ℕ) : PairCounts :=
  ⟨pairsCount n p q true true, pairsCount n p q true false, pairsCount n p q false true,
    pairsCount n p q false false⟩

theorem pairCounts_eq (labels : List (Int × Int)) : pairCounts labels =
    .ofPartitions labels.length (partition (labels.map (·.1))) (partition (labels.map (·.2))) := by
  rw [pairCounts, countPairs_eq, countPairs_eq, countPairs_eq, countPairs_eq, PairCounts.ofPartitions]

theorem PairCounts.Rates.symm {n : ℕ} {p q : Setoid ℕ} {score : ℝ}
    (rates : (ofPartitions n p q).Rates score) : (ofPartitions n q p).Rates score := by
  have swapped := rates.swap
  simp only [ofPartitions, pairsCount_comm n p q] at swapped
  exact swapped

end External

end Scores

section Truths

noncomputable def Json.numberKey [Numeral ℝ] (v : Json ℝ) : Option Int × Option ℝ :=
  (v.equalInteger?, if v.equalInteger?.isSome then none else v.number?)

noncomputable def DataArray.partition [Numeral ℝ] : DataArray ℝ → Setoid ℕ
  | ints values => LocalMetric.partition values.toList
  | flags values => LocalMetric.partition values.toList
  | numbers values => LocalMetric.partition values.toList
  | texts values => LocalMetric.partition values.toList
  | objects values => LocalMetric.partition (values.toList.map Json.numberKey)

namespace DataArray

/-- The places of the first entries equal to them put entries together that are equal. -/
theorem partition_firstPlaces {β γ : Type} {same : β → β → Bool} {key : β → γ} {entries : List β}
    (agree : ∀ x ∈ entries, ∀ y ∈ entries, same x y = true ↔ key x = key y) :
    LocalMetric.partition (firstPlaces same entries) = LocalMetric.partition (entries.map key) := by
  refine partition_map_congr fun x hx y hy => ?_
  rw [Int.ofNat.injEq]
  constructor
  · intro place
    have inside : entries.findIdx (same · x) < entries.length :=
      List.findIdx_lt_length_of_exists ⟨x, hx, (agree x hx x hx).mpr rfl⟩
    have inside' : entries.findIdx (same · y) < entries.length := place ▸ inside
    have first := (agree _ (List.getElem_mem inside) x hx).mp
      (List.findIdx_getElem (p := (same · x)) (w := inside))
    have second := (agree _ (List.getElem_mem inside') y hy).mp
      (List.findIdx_getElem (p := (same · y)) (w := inside'))
    simp only [place] at first
    exact first.symm.trans second
  · intro equal
    refine le_antisymm (List.findIdx_le_findIdx fun z hz here => ?_)
      (List.findIdx_le_findIdx fun z hz here => ?_)
    · exact (agree z hz x hx).mpr (((agree z hz y hy).mp here).trans equal.symm)
    · exact (agree z hz y hy).mpr (((agree z hz x hx).mp here).trans equal)

theorem length_row {β : Type} {values : Tensor β} {n : ℕ} (row : values.shape = [n]) :
    values.toList.length = n := by
  rw [Tensor.length_toList, Tensor.size, row, List.foldr_cons, List.foldr_nil, mul_one]

theorem classes_ofRow {β : Type} [BEq β] [LawfulBEq β] {values : Tensor β} {n : ℕ}
    (row : values.shape = [n]) : (firstPlaces (· == ·) values.toList).length = n ∧
      LocalMetric.partition (firstPlaces (· == ·) values.toList) =
        LocalMetric.partition values.toList := by
  refine ⟨(List.length_map _).trans (length_row row), ?_⟩
  have agree : ∀ x ∈ values.toList, ∀ y ∈ values.toList, (x == y) = true ↔ id x = id y :=
    fun x _ y _ => beq_iff_eq
  have places := partition_firstPlaces agree
  rwa [List.map_id] at places

variable [Numeral ℝ]

theorem sameNumber_iff {x y : Json ℝ} (number : x.number?.isSome) :
    sameNumber x y = true ↔ x.numberKey = y.numberKey := by
  rw [sameNumber, Json.numberKey, Json.numberKey]
  cases x.equalInteger? with
  | some m =>
      cases y.equalInteger? with
      | some k => simp
      | none => simp
  | none =>
      cases y.equalInteger? with
      | some k => simp
      | none =>
          obtain ⟨a, known⟩ := Option.isSome_iff_exists.mp number
          rw [known]
          cases y.number? with
          | none => simp
          | some b => simp

theorem partition_objectClasses {entries : List (Json ℝ)} {classes : List Int}
    (known : objectClasses entries = .ok classes) : classes.length = entries.length ∧
      LocalMetric.partition classes = LocalMetric.partition (entries.map Json.numberKey) := by
  rw [objectClasses] at known
  split at known
  · cases known
  · split at known
    · cases known
    · rename_i comparable
      obtain rfl := Except.ok.inj known
      refine ⟨List.length_map _, partition_firstPlaces fun x hx y hy => ?_⟩
      simp only [Bool.and_eq_true, decide_eq_true_eq, List.any_eq_true, not_and, not_exists,
        Option.isNone_iff_eq_none] at comparable
      by_cases several : 1 < entries.length
      · have number : x.number?.isSome := Option.isSome_iff_ne_none.mpr (comparable several x hx)
        have one : (entries.length == 1) = false := beq_false_of_ne several.ne'
        rw [one, Bool.false_or, sameNumber_iff number]
      · -- A single entry is in a class of its own.
        have one : entries.length = 1 :=
          le_antisymm (not_lt.mp several) (List.length_pos_of_mem hx)
        obtain ⟨z, rfl⟩ := List.length_eq_one_iff.mp one
        rw [List.mem_singleton.mp hx, List.mem_singleton.mp hy]
        exact iff_of_true rfl rfl

/-- The classes of a row of labels put the same positions together as the labels. -/
theorem partition_classes {labels : DataArray ℝ} {n : ℕ} (row : labels.shape = [n])
    {classes : List Int} (known : labels.classes = .ok classes) :
    classes.length = n ∧ LocalMetric.partition classes = labels.partition := by
  unfold DataArray.classes at known
  split at known
  · cases known
  · cases labels with
    | ints values => exact Except.ok.inj known ▸ classes_ofRow row
    | flags values => exact Except.ok.inj known ▸ classes_ofRow row
    | texts values => exact Except.ok.inj known ▸ classes_ofRow row
    | numbers values =>
        simp only at known
        split at known
        · exact Except.ok.inj known ▸ classes_ofRow row
        · cases known
    | objects values =>
        obtain ⟨length, same⟩ := partition_objectClasses known
        exact ⟨length.trans (length_row row), same⟩

end DataArray

end Truths

section Agreements

variable [Numeral ℝ] {truth truth' : DataArray ℝ} {labels labels' : List Int}
  {scores scores' : ExternalScores ℝ}

/-- The score of two partitions is at most one, and one exactly if they are the same. -/
structure External.Agreement (n : ℕ) (p q : Setoid ℕ) (score : ℝ) : Prop where
  rates : (PairCounts.ofPartitions n p q).Rates score
  le_one : score ≤ 1
  eq_one_iff : score = 1 ↔ p = q

theorem externalScores_ok_iff : externalScores (some truth) labels = .ok scores ↔
    truth.shape = [labels.length] ∧ ∃ classes, truth.classes = .ok classes ∧
      External.scores (classes.zip labels) = scores := by
  rw [externalScores]
  split
  · rename_i other
    refine iff_of_false (fun answered => ?_) fun row => other row.1
    cases answered
  · rename_i row
    refine Checked.bind_ok_iff.trans ?_
    simp only [not_not.mp row, true_and, Checked.pure_ok_iff]

/-- The adjusted Rand score sees nothing of two labellings but their partitions. -/
theorem exists_agreement (scored : externalScores (some truth) labels = .ok scores) :
    ∃ score, scores.adjustedRand = some score ∧
      External.Agreement labels.length truth.partition (partition labels) score := by
  obtain ⟨row, classes, known, rfl⟩ := externalScores_ok_iff.mp scored
  obtain ⟨length, same⟩ := DataArray.partition_classes row known
  have rates := External.adjustedRand_rates (classes.zip labels)
  rw [External.pairCounts_eq, List.map_fst_zip length.le, List.map_snd_zip length.ge,
    List.length_zip, length, min_self] at rates
  refine ⟨_, rfl, same ▸ rates, rates.le_one, ?_⟩
  rw [← same, partition_eq_iff length rfl, ← pairsCount_eq_zero_and_iff]
  exact rates.eq_one_iff

/-- Labellings with the same partitions have the same score, whichever of them is the true one. -/
theorem adjustedRand_congr (scored : externalScores (some truth) labels = .ok scores)
    (scored' : externalScores (some truth') labels' = .ok scores')
    (length : labels'.length = labels.length)
    (same : truth'.partition = truth.partition ∧ partition labels' = partition labels ∨
      truth'.partition = partition labels ∧ partition labels' = truth.partition) :
    scores'.adjustedRand = scores.adjustedRand := by
  obtain ⟨x, known, agreement⟩ := exists_agreement scored
  obtain ⟨y, known', agreement'⟩ := exists_agreement scored'
  have rates := agreement'.rates
  rw [known, known', Option.some.injEq]
  rcases same with ⟨first, second⟩ | ⟨first, second⟩
  · rw [length, first, second] at rates
    exact rates.unique agreement.rates
  · rw [length, first, second] at rates
    exact rates.symm.unique agreement.rates

theorem exists_externalScores_ofList {first second : List Int}
    (length : second.length = first.length) : ∃ scores : ExternalScores ℝ,
      externalScores (some (.ints (.ofList first))) second = .ok scores :=
  exists_externalScores ⟨rfl, nofun⟩ length

theorem DataArray.partition_ofList (labels : List Int) :
    (DataArray.ints (.ofList labels) : DataArray ℝ).partition = LocalMetric.partition labels := by
  rw [DataArray.partition, Tensor.ofList, Tensor.toList_vector]
  rfl

/-- Two labellings may change their places, and each may be renamed. -/
theorem exists_scores_renamed {first second : List Int} (length : second.length = first.length)
    {f g : Int → Int} (injective : Set.InjOn f {x | x ∈ first})
    (injective' : Set.InjOn g {x | x ∈ second}) : ∃ s t u : ExternalScores ℝ,
      externalScores (some (.ints (.ofList first))) second = .ok s ∧
      externalScores (some (.ints (.ofList second))) first = .ok t ∧
      externalScores (some (.ints (.ofList (first.map f)))) (second.map g) = .ok u ∧
      t.adjustedRand = s.adjustedRand ∧ u.adjustedRand = s.adjustedRand := by
  have renamed : (second.map g).length = (first.map f).length := by
    rw [List.length_map, List.length_map, length]
  obtain ⟨s, scored⟩ := exists_externalScores_ofList length
  obtain ⟨t, swapped⟩ := exists_externalScores_ofList length.symm
  obtain ⟨u, changed⟩ := exists_externalScores_ofList renamed
  refine ⟨s, t, u, scored, swapped, changed, ?_, ?_⟩
  · refine adjustedRand_congr scored swapped length.symm (.inr ⟨?_, ?_⟩)
    · exact DataArray.partition_ofList second
    · exact (DataArray.partition_ofList first).symm
  · refine adjustedRand_congr scored changed (List.length_map g) (.inl ⟨?_, ?_⟩)
    · rw [DataArray.partition_ofList, DataArray.partition_ofList, partition_map injective]
    · exact partition_map injective'

end Agreements

section Runs

variable [Numeral ℝ] {variants : List (Variant ℝ)}

theorem Selection.adjustedRand_candidate (v : Variant ℝ) :
    adjustedRand v.candidate = v.external.bind ExternalScores.adjustedRand := by
  obtain ⟨radius, minimum, labels, internal, external⟩ := v
  cases external with
  | none => rfl
  | some scores =>
      obtain ⟨agreement, _, _, _⟩ := scores
      cases agreement with
      | none => rfl
      | some x => rfl

/-- A report shows the scores of a clustering that agrees better with the true labels than any one
before it and no worse than any one after it. -/
structure Variant.AgreesBest (v : Variant ℝ) (variants : List (Variant ℝ)) (score : ℝ) : Prop where
  first : Selection.IsFirstBest (fun u => u.external.bind ExternalScores.adjustedRand) variants v score
  shown : ∃ scores, v.external = some scores ∧
    Selection.bestAgreement (variants.map candidate) = .obj [("best_partition_model_by_ari",
      .obj ([("algorithm", .str algorithm), ("variant", .str v.name)] ++ scores.fields))]

theorem Selection.bestAgreement_eq_null
    (absent : ∀ v ∈ variants, v.external.bind ExternalScores.adjustedRand = none) :
    bestAgreement (variants.map Variant.candidate) =
      .obj [("best_partition_model_by_ari", .null)] := by
  have unscored : firstBest adjustedRand (variants.map Variant.candidate) = none := by
    rw [firstBest_eq_none_iff, List.forall_mem_map]
    exact fun v member => (adjustedRand_candidate v).trans (absent v member)
  rw [bestAgreement, unscored]

theorem Variant.exists_agreesBest
    (valued : ∃ v ∈ variants, v.external.bind ExternalScores.adjustedRand ≠ none) :
    ∃ (v : Variant ℝ) (score : ℝ), v.AgreesBest variants score := by
  simp only [← Selection.adjustedRand_candidate] at valued
  obtain ⟨v, score, chosen, best⟩ := Selection.exists_firstBest_map valued
  simp only [Selection.adjustedRand_candidate] at best
  obtain ⟨scores, known, _⟩ := Option.bind_eq_some_iff.mp best.valued
  refine ⟨v, score, best, scores, known, ?_⟩
  rw [Selection.bestAgreement, chosen]
  simp only [candidate, known]
  rfl

variable {distances : Tensor ℝ} {given : Option (DataArray ℝ)} {truth : DataArray ℝ} {radii : List ℝ}
  {minimum : Int}

theorem Clustering.external_of_run
    (ran : run distances given radii minimum true = .ok variants) {v : Variant ℝ}
    (member : v ∈ variants) :
    ∃ scores, v.external = some scores ∧ externalScores given v.labels = .ok scores := by
  obtain ⟨⟨n, d⟩, _, each⟩ := Checked.bind_ok_iff.mp ran
  obtain ⟨radius, _, answered⟩ := Checked.exists_mem_zip (Checked.mapM_ok_iff.mp each).flip member
  obtain ⟨labels, _, rest⟩ := Checked.bind_ok_iff.mp answered
  obtain ⟨internal, _, rest⟩ := Checked.bind_ok_iff.mp rest
  obtain ⟨external, compared, made⟩ := Checked.bind_ok_iff.mp rest
  cases made
  cases scored : externalScores given labels with
  | error fault =>
      rw [scored] at compared
      cases compared
  | ok scores =>
      rw [scored] at compared
      cases compared
      exact ⟨scores, rfl, rfl⟩

/-- All clusterings of a run are compared with the true labels as partitions of as many points. -/
theorem Clustering.agreement_of_run
    (ran : run distances (some truth) radii minimum true = .ok variants) {v : Variant ℝ}
    (member : v ∈ variants) : ∃ score, v.external.bind ExternalScores.adjustedRand = some score ∧
      External.Agreement v.labels.length truth.partition (partition v.labels) score := by
  obtain ⟨scores, known, scored⟩ := external_of_run ran member
  rw [known]
  exact exists_agreement scored

/-- The clustering with the best score is the true partition if any clustering is. -/
theorem Variant.AgreesBest.partition_eq_iff {v : Variant ℝ} {score : ℝ}
    (best : v.AgreesBest variants score)
    (ran : Clustering.run distances (some truth) radii minimum true = .ok variants) :
    truth.partition = partition v.labels ↔ ∃ u ∈ variants, truth.partition = partition u.labels := by
  obtain ⟨x, known, agreement⟩ := Clustering.agreement_of_run ran best.first.mem
  obtain rfl : x = score := Option.some.inj (known.symm.trans best.first.valued)
  constructor
  · exact fun same => ⟨v, best.first.mem, same⟩
  · rintro ⟨u, member, same⟩
    obtain ⟨y, value, other⟩ := Clustering.agreement_of_run ran member
    have one : y = 1 := other.eq_one_iff.mpr same
    exact agreement.eq_one_iff.mp (le_antisymm agreement.le_one (one ▸ best.first.le member value))

end Runs

section Evaluations

variable [Numeral ℝ]

/-- The score of a clustering against true labels is at most one, depends on the two partitions only,
and is one exactly if they are the same. So of the clusterings of a run the first one with the best
score is chosen, and it is the true partition if any of them is. -/
theorem offline_evaluation_finds_partition :
    (∀ (truth : DataArray ℝ) (labels : List Int),
      (truth.IsLabels labels.length → ∃ scores, externalScores (some truth) labels = .ok scores) ∧
      ∀ scores, externalScores (some truth) labels = .ok scores →
        ∃ score, scores.adjustedRand = some score ∧
          External.Agreement labels.length truth.partition (partition labels) score) ∧
    (∀ (truth truth' : DataArray ℝ) (labels labels' : List Int) (scores scores' : ExternalScores ℝ),
      externalScores (some truth) labels = .ok scores →
      externalScores (some truth') labels' = .ok scores' → labels'.length = labels.length →
      (truth'.partition = truth.partition ∧ partition labels' = partition labels ∨
        truth'.partition = partition labels ∧ partition labels' = truth.partition) →
      scores'.adjustedRand = scores.adjustedRand) ∧
    (∀ (first second : List Int) (f g : Int → Int), second.length = first.length →
      Set.InjOn f {x | x ∈ first} → Set.InjOn g {x | x ∈ second} → ∃ s t u : ExternalScores ℝ,
        externalScores (some (.ints (.ofList first))) second = .ok s ∧
        externalScores (some (.ints (.ofList second))) first = .ok t ∧
        externalScores (some (.ints (.ofList (first.map f)))) (second.map g) = .ok u ∧
        t.adjustedRand = s.adjustedRand ∧ u.adjustedRand = s.adjustedRand) ∧
    (∀ (distances : Tensor ℝ) (given : Option (DataArray ℝ)) (radii : List ℝ) (minimum : Int)
      (variants : List (Variant ℝ)),
      Clustering.run distances given radii minimum true = .ok variants →
        (∀ v ∈ variants, Candidate.ofJson? v.toJson = some v.candidate) ∧
        (given = none ∨ variants = [] → Selection.bestAgreement (variants.map Variant.candidate) =
          .obj [("best_partition_model_by_ari", .null)]) ∧
        ∀ truth, given = some truth → variants ≠ [] →
          ∃ (v : Variant ℝ) (score : ℝ), v.AgreesBest variants score ∧
            (truth.partition = partition v.labels ↔
              ∃ u ∈ variants, truth.partition = partition u.labels)) ∧
    ∀ (n : ℕ) (d : Mat ℝ n n) (truth : DataArray ℝ) (radii : List ℝ) (minimum : Int),
      0 < n → d.Distances → truth.IsLabels n → 1 ≤ minimum → (∀ radius ∈ radii, 0 < radius) →
        ∃ variants, Clustering.run (.ofMat d) (some truth) radii minimum true = .ok variants := by
  refine ⟨fun truth labels => ⟨fun fits => exists_externalScores fits rfl,
    fun scores => exists_agreement⟩, fun _ _ _ _ _ _ => adjustedRand_congr,
    fun _ _ _ _ length first second => exists_scores_renamed length first second, ?_, ?_⟩
  · intro distances given radii minimum variants ran
    refine ⟨fun v _ => v.ofJson?_toJson, fun unscored => Selection.bestAgreement_eq_null ?_, ?_⟩
    · intro v member
      rcases unscored with rfl | rfl
      · obtain ⟨scores, known, scored⟩ := Clustering.external_of_run ran member
        cases scored
        rw [known]
        rfl
      · cases member
    · rintro truth rfl filled
      obtain ⟨u, member⟩ := List.exists_mem_of_ne_nil variants filled
      obtain ⟨y, value, _⟩ := Clustering.agreement_of_run ran member
      have valued : u.external.bind ExternalScores.adjustedRand ≠ none := by
        rw [value]
        nofun
      obtain ⟨v, score, best⟩ := Variant.exists_agreesBest ⟨u, member, valued⟩
      exact ⟨v, score, best, best.partition_eq_iff ran⟩
  · intro n d truth radii minimum points distances fits one_le positive
    exact Clustering.exists_answers points d.allFinite_real distances.nonneg one_le
      (fun radius member => ⟨positive radius member, rfl⟩)
      fun _ labels length => exists_externalScores fits length

end Evaluations

section Squares

attribute [local instance] wholeNumeral

theorem offline_evaluation_finds_partition_squares :
    (∃ s t u : ExternalScores ℝ,
      externalScores (some (.ints (.ofList [7, 7, 7, 8]))) [0, 0, -1, -1] = .ok s ∧
      externalScores (some (.ints (.ofList [8, 8, 8, 9]))) [-1, -1, -2, -2] = .ok t ∧
      externalScores (some (.flags (.ofList [true, true, true, false]))) [0, 0, -1, -1] = .ok u ∧
      t.adjustedRand = s.adjustedRand ∧ u.adjustedRand = s.adjustedRand ∧
      ∃ score, s.adjustedRand = some score ∧ score < 1) ∧
    ∃ (variants : List (Variant ℝ)) (v : Variant ℝ) (score : ℝ),
      Clustering.run (.ofMat squares) (some (.ints (.ofList [7, 7, 8, 8]))) [1, 3, 5] 2 true =
        .ok variants ∧
      v.AgreesBest variants score ∧ partition ([7, 7, 8, 8] : List Int) = partition v.labels := by
  obtain ⟨rated, congr, renamed, chosen, exist⟩ := offline_evaluation_finds_partition
  constructor
  · obtain ⟨s, _, t, scored, _, changed, _, same⟩ := renamed [7, 7, 7, 8] [0, 0, -1, -1] (· + 1)
      (· - 1) rfl (add_left_injective 1).injOn sub_left_injective.injOn
    obtain ⟨u, flagged⟩ := (rated (.flags (.ofList [true, true, true, false])) [0, 0, -1, -1]).1
      ⟨rfl, nofun⟩
    have flags : partition [true, true, true, false] = partition ([7, 7, 7, 8] : List Int) := by
      refine (partition_eq_iff (n := 4) rfl rfl).mpr ?_
      simp only [partition_iff]
      decide
    obtain ⟨score, known, agreement⟩ := (rated _ _).2 s scored
    refine ⟨s, t, u, scored, changed, flagged, same,
      congr _ _ _ _ s u scored flagged rfl (.inl ⟨flags, rfl⟩), score, known,
      agreement.le_one.lt_of_ne ?_⟩
    rw [ne_eq, agreement.eq_one_iff, DataArray.partition_ofList]
    intro alike
    have together : partition ([7, 7, 7, 8] : List Int) 2 3 := by
      rw [alike]
      exact partition_iff.mpr rfl
    exact absurd (partition_iff.mp together) (by decide)
  · have positive : ∀ radius ∈ ([1, 3, 5] : List ℝ), 0 < radius := by norm_num
    obtain ⟨variants, ran⟩ := exist 4 squares (.ints (.ofList [7, 7, 8, 8])) [1, 3, 5] 2 (by decide)
      squares_distances ⟨rfl, nofun⟩ (by decide) positive
    obtain ⟨u, paired, answers⟩ := Checked.exists_mem_zip (Clustering.answers_of_square_run ran)
      (List.mem_cons_self (a := (1 : ℝ)))
    have member := (List.of_mem_zip paired).2
    have labelled : u.labels = [0, 0, -1, -1] := answers.labels_eq.trans labels_squares
    obtain ⟨v, score, best, reproduced⟩ :=
      (chosen _ _ _ _ variants ran).2.2 _ rfl (List.ne_nil_of_mem member)
    rw [DataArray.partition_ofList] at reproduced
    refine ⟨variants, v, score, ran, best, reproduced.mpr ⟨u, member, ?_⟩⟩
    have renamed : [7, 7, 8, 8] = u.labels.map (7 - ·) := by
      rw [labelled]
      decide
    rw [renamed]
    exact partition_map sub_right_injective.injOn

end Squares

end LocalMetric
