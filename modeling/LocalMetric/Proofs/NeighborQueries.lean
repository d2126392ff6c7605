import LocalMetric.Proofs.Locality
/-!
# Queries for neighbors

A query for neighbors answers what a look at every point would: as many points as were asked for, or as
there are, of which no other point is nearer, or exactly the points in a radius. Points are told apart
by their ids, found by their rows and stacked by their vectors, and the three stay in step.
-/
namespace LocalMetric

namespace PointSet

variable {s : PointSet ℝ} {p : Int}

noncomputable def straightDistance (s : PointSet ℝ) (p q : Int) : ℝ :=
  match s.vector p, s.vector q with
  | .ok x, .ok y => euclidean x.toList y.toList
  | _, _ => 0

/-- The ids of `k` points, or of all if there are fewer, of which no other point is nearer to a
point. -/
structure AreNearest (s : PointSet ℝ) (p k : Int) (ids : List Int) : Prop where
  count : (ids.length : Int) = min k s.size
  distinct : ids.Nodup
  known : ∀ q ∈ ids, q ∈ s.ids.toList
  ascending : ids.Pairwise fun q r => s.straightDistance p q ≤ s.straightDistance p r
  nearest : ∀ q ∈ ids, ∀ r ∈ s.ids.toList, r ∉ ids → s.straightDistance p q ≤ s.straightDistance p r
  whole : (s.size : Int) ≤ k → ids.Perm s.ids.toList

/-- The ids of the points at most a radius away from a point, itself among them. -/
structure AreWithin (s : PointSet ℝ) (p : Int) (radius : ℝ) (ids : List Int) : Prop where
  mem_iff : ∀ q, q ∈ ids ↔ q ∈ s.ids.toList ∧ s.straightDistance p q ≤ radius
  distinct : ids.Nodup
  ascending : ids.Pairwise fun q r => s.straightDistance p q ≤ s.straightDistance p r
  own : p ∈ ids

section Rows

theorem straightDistance_comm (s : PointSet ℝ) (p q : Int) :
    s.straightDistance p q = s.straightDistance q p := by
  rw [straightDistance, straightDistance]
  cases s.vector p with
  | error _ => cases s.vector q <;> rfl
  | ok x =>
      cases s.vector q with
      | error _ => rfl
      | ok y =>
          simp only
          rw [euclidean_toList, euclidean_toList, squaredNorm_difference_comm]

theorem straightDistance_get (s : PointSet ℝ) (i j : Fin s.size) :
    s.straightDistance (s.ids.get i) (s.ids.get j) = √((s.squaredDistances i).get j) := by
  rw [straightDistance, vector_get, vector_get, get_squaredDistances, squaredNorm_difference_comm]
  exact euclidean_toList _ _

theorem straightDistance_self (member : p ∈ s.ids.toList) : s.straightDistance p p = 0 := by
  obtain ⟨x, known⟩ := exists_vector member
  rw [straightDistance, known]
  exact euclidean_self x

theorem get_ids_injective (s : PointSet ℝ) : Function.Injective s.ids.get := by
  rw [← List.nodup_ofFn, ← toList_eq_ofFn]
  exact s.ids_nodup

theorem byDistance_nodup (s : PointSet ℝ) (i : Fin s.size) : (s.byDistance i).Nodup :=
  (byDistance_perm i).nodup_iff.mpr (List.nodup_finRange _)

theorem ascending_byDistance (s : PointSet ℝ) (i : Fin s.size) : (s.byDistance i).Pairwise
    fun a b => s.straightDistance (s.ids.get i) (s.ids.get a) ≤
      s.straightDistance (s.ids.get i) (s.ids.get b) := by
  refine (s.pairwise_byDistance i).imp fun below => ?_
  rw [straightDistance_get, straightDistance_get]
  exact Real.sqrt_le_sqrt below

end Rows

section Answers

theorem areNearest_take (s : PointSet ℝ) (i : Fin s.size) {k : Int} (positive : 0 < k) :
    s.AreNearest (s.ids.get i) k (((s.byDistance i).take (min k s.size).toNat).map s.ids.get) := by
  have length : (s.byDistance i).length = s.size := by
    rw [(byDistance_perm i).length_eq, List.length_finRange]
  have sorted := s.ascending_byDistance i
  have listed : (s.ids.toList).Perm ((s.byDistance i).map s.ids.get) := by
    rw [toList_eq_ofFn, List.ofFn_eq_map]
    exact (byDistance_perm i).symm.map _
  constructor
  · rw [List.length_map, List.length_take, length]
    omega
  · exact List.Nodup.map s.get_ids_injective (s.byDistance_nodup i).take
  · intro q member
    obtain ⟨j, _, rfl⟩ := List.mem_map.mp member
    exact s.get_mem_ids j
  · rw [List.pairwise_map]
    exact sorted.take
  · intro q member r known outside
    obtain ⟨j, taken, rfl⟩ := List.mem_map.mp member
    obtain ⟨l, rfl⟩ := exists_get_eq known
    have left : l ∈ (s.byDistance i).drop (min k s.size).toNat := by
      have somewhere := mem_byDistance i l
      rw [← List.take_append_drop (min k s.size).toNat (s.byDistance i), List.mem_append] at somewhere
      exact somewhere.resolve_left fun taken => outside (List.mem_map_of_mem taken)
    rw [← List.take_append_drop (min k s.size).toNat (s.byDistance i), List.pairwise_append] at sorted
    exact sorted.2.2 j taken l left
  · intro enough
    rw [min_eq_right enough, List.take_of_length_le (by omega)]
    exact listed.symm

theorem areWithin_filter (s : PointSet ℝ) (i : Fin s.size) {radius : ℝ} (nonneg : 0 ≤ radius) :
    s.AreWithin (s.ids.get i) radius (((s.byDistance i).filter fun j =>
      decide ((s.squaredDistances i).get j ≤ radius * radius)).map s.ids.get) := by
  have mem_iff (q : Int) : q ∈ ((s.byDistance i).filter fun j =>
      decide ((s.squaredDistances i).get j ≤ radius * radius)).map s.ids.get ↔
        q ∈ s.ids.toList ∧ s.straightDistance (s.ids.get i) q ≤ radius := by
    have close (j : Fin s.size) : (s.squaredDistances i).get j ≤ radius * radius ↔
        s.straightDistance (s.ids.get i) (s.ids.get j) ≤ radius := by
      rw [straightDistance_get, Real.sqrt_le_left nonneg, sq]
    simp only [List.mem_map, List.mem_filter, mem_byDistance, true_and, decide_eq_true_eq, close]
    constructor
    · rintro ⟨j, near, rfl⟩
      exact ⟨s.get_mem_ids j, near⟩
    · rintro ⟨known, near⟩
      obtain ⟨j, rfl⟩ := exists_get_eq known
      exact ⟨j, near, rfl⟩
  constructor
  · exact mem_iff
  · exact List.Nodup.map s.get_ids_injective ((s.byDistance_nodup i).filter _)
  · rw [List.pairwise_map]
    exact (s.ascending_byDistance i).filter _
  · have member := s.get_mem_ids i
    exact (mem_iff _).mpr ⟨member, (straightDistance_self member).trans_le nonneg⟩

end Answers

end PointSet

/-- A provider answers with the vectors of some points, one in each row and in their order, and the
vector of the point itself is among them. -/
def Provider.Stacks (provider : Provider ℝ) (s : PointSet ℝ) (p : Int) (ids : List Int) : Prop :=
  ∃ rows : Mat ℝ ids.length s.dim, provider.points s p = .ok (.ofMat rows) ∧
    List.Forall₂ (fun q x => s.vector q = .ok x) ids rows.toList ∧
    ∃ x ∈ rows, s.vector p = .ok x

theorem Provider.stacks_of_chosen {provider : Provider ℝ} {s : PointSet ℝ} {p : Int} {ids : List Int}
    (chosen : provider.points s p = s.stacked ids) (around : s.Surrounds p ids) :
    provider.Stacks s p ids := by
  obtain ⟨m, rows, _, listed⟩ := around.exists_rows
  have related := Checked.mapM_ok_iff.mp listed
  obtain ⟨q, member, same⟩ := around.own
  obtain ⟨x, paired, here⟩ := Checked.exists_mem_zip related member
  have inside : x ∈ rows := Vector.mem_toList_iff.mp (List.of_mem_zip paired).2
  obtain rfl : ids.length = m := by rw [related.length_eq, Vector.length_toList]
  exact ⟨rows, chosen.trans (PointSet.stacked_of_rows listed), related, x, inside, same.symm.trans here⟩

section Standard

variable {s : PointSet ℝ}

theorem Provider.stacks_nearest (i : Fin s.size) {count : Option (Quantity ℝ)} {k : Int}
    (whole : (count.getD (.int (3 * s.dim))).whole? = some k) (positive : 0 < k) :
    (Provider.nearest.provider count).Stacks s (s.ids.get i)
      (((s.byDistance i).take (min k s.size).toNat).map s.ids.get) := by
  have size := s.nonempty.1
  have capped := Quantity.whole_capped whole positive size
  have answer := PointSet.nearestStated_of_whole (s.row_get i) capped (by omega)
  rw [min_assoc, min_self] at answer
  have chosen : (Provider.nearest.provider count).points s (s.ids.get i) =
      s.stacked (((s.byDistance i).take (min k s.size).toNat).map s.ids.get) :=
    congrArg (· >>= s.stacked) answer
  exact stacks_of_chosen chosen (PointSet.surrounds_nearest (s.row_get i) (by omega))

/-- A point is in a radius of another one if that one is in the radius of it. -/
theorem PointSet.AreWithin.mem_comm {p q : Int} {radius : ℝ} {ids ids' : List Int}
    (within : s.AreWithin p radius ids) (within' : s.AreWithin q radius ids')
    (member : p ∈ s.ids.toList) (member' : q ∈ s.ids.toList) : q ∈ ids ↔ p ∈ ids' := by
  rw [within.mem_iff, within'.mem_iff, s.straightDistance_comm]
  exact and_congr_left fun _ => iff_of_true member' member

theorem PointSet.areWithin_of_within {p : Int} (member : p ∈ s.ids.toList) {radius : ℝ}
    (nonneg : 0 ≤ radius) {ids : List Int} (answered : s.within p radius = .ok ids) :
    s.AreWithin p radius ids := by
  obtain ⟨i, rfl⟩ := exists_get_eq member
  obtain rfl := Except.ok.inj ((within_of_row nonneg (s.row_get i)).symm.trans answered)
  exact s.areWithin_filter i nonneg

end Standard

/-- Queries answer with the points that are nearest to a point, as many as are asked for, or with those
in a radius, which is a symmetric relation. The standard providers stack the vectors of these points. -/
theorem neighbor_queries {s : PointSet ℝ} {p : Int} (member : p ∈ s.ids.toList) :
    (∀ (q : Quantity ℝ) (k : Int), q.whole? = some k → 0 < k →
      ∃ ids provider, s.nearestStated p q = .ok ids ∧ s.AreNearest p k ids ∧
        Provider.nearest (some q) = .ok provider ∧ provider.Stacks s p ids) ∧
    (∃ ids provider, s.nearestStated p (.int (3 * s.dim)) = .ok ids ∧
      s.AreNearest p (3 * s.dim) ids ∧
        Provider.nearest none = .ok provider ∧ provider.Stacks s p ids) ∧
    (∀ radius : ℝ, 0 ≤ radius →
      ∃ ids provider, s.within p radius = .ok ids ∧ s.AreWithin p radius ids ∧
        Provider.within radius = .ok provider ∧ provider.Stacks s p ids) ∧
    ∀ radius : ℝ, 0 ≤ radius → ∀ q ∈ s.ids.toList, ∀ ids ids',
      s.within p radius = .ok ids → s.within q radius = .ok ids' → (q ∈ ids ↔ p ∈ ids') := by
  obtain ⟨i, rfl⟩ := PointSet.exists_get_eq member
  have found := s.row_get i
  refine ⟨?_, ?_, ?_, ?_⟩
  · intro q k whole positive
    have made : Provider.nearest (some q) = .ok (Provider.nearest.provider (some q)) := by
      rw [Provider.nearest, (Quantity.isNonPositive_eq_false_iff whole).mpr positive]
      rfl
    exact ⟨_, _, PointSet.nearestStated_of_whole found whole positive, s.areNearest_take i positive,
      made, Provider.stacks_nearest i whole positive⟩
  · have positive : (0 : Int) < 3 * s.dim := by
      have dim := s.nonempty.2
      omega
    exact ⟨_, _, PointSet.nearestStated_of_whole found rfl positive, s.areNearest_take i positive, rfl,
      Provider.stacks_nearest i rfl positive⟩
  · intro radius nonneg
    obtain ⟨provider, made⟩ := Reach.exists_provider_within nonneg
    obtain ⟨ids, answered, around⟩ := PointSet.exists_within member nonneg
    exact ⟨ids, provider, answered, PointSet.areWithin_of_within member nonneg answered, made,
      Provider.stacks_of_chosen (Reach.chosen_eq made answered) around⟩
  · intro radius nonneg q known ids ids' answered answered'
    have within := PointSet.areWithin_of_within member nonneg answered
    have within' := PointSet.areWithin_of_within known nonneg answered'
    exact within.mem_comm within' member known

noncomputable abbrev PointSet.pile (place : ℝ) : PointSet ℝ :=
  ofThree (.replicate 1 0) (.replicate 1 0) (.replicate 1 place) Nat.one_pos

theorem PointSet.straightDistance_pile (place : ℝ) :
    (pile place).straightDistance 20 30 = 0 ∧ (pile place).straightDistance 20 10 = |place| := by
  have here : (pile place).vector 20 = .ok (.replicate 1 0) := vector_get (pile place) (1 : Fin 3)
  have same : (pile place).vector 30 = .ok (.replicate 1 0) := vector_get (pile place) (0 : Fin 3)
  have apart : (pile place).vector 10 = .ok (.replicate 1 place) :=
    vector_get (pile place) (2 : Fin 3)
  rw [straightDistance, straightDistance, here, same, apart]
  refine ⟨euclidean_self _, (euclidean_single 0 place).trans ?_⟩
  rw [zero_sub, abs_neg]

theorem neighbor_queries_pile : ∃ ids ids',
    (PointSet.pile 3).nearestStated 20 (.int 5) = .ok ids ∧ ids.Perm [30, 20, 10] ∧
    (PointSet.pile 3).within 20 0 = .ok ids' ∧ ∀ q, q ∈ ids' ↔ q = 30 ∨ q = 20 := by
  have member : (20 : Int) ∈ (PointSet.pile 3).ids.toList :=
    List.mem_cons_of_mem _ List.mem_cons_self
  obtain ⟨here, there⟩ := PointSet.straightDistance_pile 3
  obtain ⟨counted, _, ranged, _⟩ := neighbor_queries member
  obtain ⟨ids, _, answer, nearest, _⟩ := counted (.int 5) 5 rfl (by decide)
  obtain ⟨ids', _, answer', within, _⟩ := ranged 0 le_rfl
  refine ⟨ids, ids', answer, nearest.whole (show (3 : Int) ≤ 5 by decide), answer', fun q => ?_⟩
  rw [within.mem_iff]
  constructor
  · rintro ⟨known, close⟩
    obtain ⟨i, rfl⟩ := PointSet.exists_get_eq known
    fin_cases i
    · exact .inl rfl
    · exact .inr rfl
    · have far : |(3 : ℝ)| ≤ 0 := there.symm.trans_le close
      norm_num at far
  · rintro (rfl | rfl)
    · exact ⟨List.mem_cons_self, here.le⟩
    · exact ⟨member, (PointSet.straightDistance_self member).le⟩

end LocalMetric
