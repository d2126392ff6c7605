import LocalMetric.Proofs.Matrices
import LocalMetric.Proofs.Preparations
/-!
# Who is near a point

The rows of a point set by their distance from a row start with a row that has the same vector. So
whatever number of nearest points is taken, and whatever the radius is, the points that a standard
provider chooses around a point include the point, or one with its vector in its place.
-/
namespace LocalMetric

section Counts

variable {α : Type} [Scalar α] {q : Quantity α} {k : Int}

theorem Quantity.isNonPositive_eq_false_iff (whole : q.whole? = some k) :
    q.isNonPositive = false ↔ 0 < k := by
  cases q with
  | int value =>
      obtain rfl : value = k := Option.some.inj whole
      rw [isNonPositive, decide_eq_false_iff_not, not_le]
  | flag b =>
      obtain rfl : (if b then 1 else 0) = k := Option.some.inj whole
      cases b with
      | false => exact iff_of_false nofun (lt_irrefl 0)
      | true => exact iff_of_true rfl Int.one_pos
  | num x => cases whole

theorem Quantity.whole_capped (whole : q.whole? = some k) (positive : 0 < k) {n : ℕ} (filled : 0 < n) :
    (q.capped n).whole? = some (min k n) := by
  cases q with
  | int value =>
      obtain rfl : value = k := Option.some.inj whole
      rfl
  | flag b =>
      cases b with
      | false =>
          obtain rfl : 0 = k := Option.some.inj whole
          exact absurd positive (lt_irrefl 0)
      | true =>
          obtain rfl : 1 = k := Option.some.inj whole
          have kept : (flag true : Quantity α).capped n = flag true := by
            rw [capped, if_neg]
            simp only [Bool.true_and, decide_eq_true_eq]
            omega
          rw [kept, min_eq_left (by omega)]
          rfl
  | num x => cases whole

end Counts

namespace PointSet

section Rows

variable {α : Type} [Scalar α] {s : PointSet α} {id : Int}

theorem exists_row (member : id ∈ s.ids.toList) : ∃ i, s.row id = .ok i := by
  obtain ⟨i, rfl⟩ := exists_get_eq member
  exact ⟨i, s.row_get i⟩

theorem vector_of_row {i : Fin s.size} (found : s.row id = .ok i) :
    s.vector id = .ok (s.vectors.get i) := by
  rw [vector, found]
  rfl

theorem byDistance_perm (i : Fin s.size) : (s.byDistance i).Perm (List.finRange s.size) :=
  List.mergeSort_perm _ _

theorem mem_byDistance (i j : Fin s.size) : j ∈ s.byDistance i :=
  (byDistance_perm i).mem_iff.mpr (List.mem_finRange j)

theorem nearest_of_row {i : Fin s.size} (found : s.row id = .ok i) {k : Int} (positive : 0 < k) :
    s.nearest id k = .ok (((s.byDistance i).take k.toNat).map s.ids.get) := by
  rw [nearest, if_neg (not_le.mpr positive), found]
  rfl

/-- A whole number above zero may be stated as the number of nearest points, and there are no more of
them than points. -/
theorem nearestStated_of_whole {i : Fin s.size} (found : s.row id = .ok i) {q : Quantity α} {k : Int}
    (whole : q.whole? = some k) (positive : 0 < k) : s.nearestStated id q =
      .ok (((s.byDistance i).take (min k s.size).toNat).map s.ids.get) := by
  have filled := s.nonempty.1
  have above : 0 < min k s.size := by omega
  rw [nearestStated, (Quantity.isNonPositive_eq_false_iff whole).mpr positive, found,
    Quantity.whole_capped whole positive filled]
  exact nearest_of_row found above

/-- The points of some rows lie around a point if one of them has its vector. -/
structure Surrounds (s : PointSet α) (id : Int) (ids : List Int) : Prop where
  inside : ∀ i ∈ ids, i ∈ s.ids.toList
  own : ∃ i ∈ ids, s.vector i = s.vector id

theorem Surrounds.exists_rows {ids : List Int} (around : s.Surrounds id ids) :
    ∃ (m : ℕ) (rows : Mat α m s.dim), 0 < m ∧ s.rows ids = .ok rows.toList := by
  obtain ⟨i, member, _⟩ := around.own
  exact PointSet.exists_rows (List.ne_nil_of_mem member) around.inside

theorem surrounds_of_rows {i first : Fin s.size} (found : s.row id = .ok i)
    (same : s.vectors.get first = s.vectors.get i) {rows : List (Fin s.size)}
    (member : first ∈ rows) : s.Surrounds id (rows.map s.ids.get) where
  inside := by
    intro j known
    obtain ⟨row, _, rfl⟩ := List.mem_map.mp known
    exact s.get_mem_ids row
  own := ⟨s.ids.get first, List.mem_map_of_mem member, by
    rw [vector_get, vector_of_row found, same]⟩

end Rows

section Nearest

variable {s : PointSet ℝ}

theorem get_squaredDistances (s : PointSet ℝ) (i j : Fin s.size) :
    (s.squaredDistances i).get j =
      squaredNorm (difference (s.vectors.get j) (s.vectors.get i)) :=
  get_map _ _ j

theorem squaredDistances_nonneg (i j : Fin s.size) : 0 ≤ (s.squaredDistances i).get j := by
  rw [get_squaredDistances]
  exact squaredNorm_nonneg _

theorem squaredDistances_eq_zero_iff {i j : Fin s.size} :
    (s.squaredDistances i).get j = 0 ↔ s.vectors.get j = s.vectors.get i := by
  rw [get_squaredDistances]
  exact squaredNorm_difference_eq_zero_iff

theorem pairwise_byDistance (s : PointSet ℝ) (i : Fin s.size) : (s.byDistance i).Pairwise
    fun a b => (s.squaredDistances i).get a ≤ (s.squaredDistances i).get b :=
  pairwise_mergeSort_key (s.squaredDistances i).get (List.finRange s.size)

/-- The nearest row to a row has its vector, if it is not the row itself. -/
theorem exists_byDistance_eq_cons (s : PointSet ℝ) (i : Fin s.size) :
    ∃ first rest, s.byDistance i = first :: rest ∧ s.vectors.get first = s.vectors.get i := by
  have sorted := s.pairwise_byDistance i
  have own := mem_byDistance i i
  cases rows : s.byDistance i with
  | nil =>
      rw [rows] at own
      cases own
  | cons first rest =>
      rw [rows] at sorted own
      have zero : (s.squaredDistances i).get i = 0 := squaredDistances_eq_zero_iff.mpr rfl
      have least : (s.squaredDistances i).get first ≤ (s.squaredDistances i).get i := by
        rcases List.mem_cons.mp own with rfl | later
        · exact le_rfl
        · exact List.rel_of_pairwise_cons sorted later
      exact ⟨first, rest, rfl, squaredDistances_eq_zero_iff.mp
        (le_antisymm (least.trans_eq zero) (squaredDistances_nonneg i first))⟩

theorem within_of_row {id : Int} {radius : ℝ} (nonneg : 0 ≤ radius) {i : Fin s.size}
    (found : s.row id = .ok i) : s.within id radius = .ok (((s.byDistance i).filter fun j =>
      decide ((s.squaredDistances i).get j ≤ radius * radius)).map s.ids.get) := by
  rw [within, if_neg (not_lt.mpr nonneg), found]
  rfl

/-- Any number of nearest points are around a point. -/
theorem surrounds_nearest {id : Int} {i : Fin s.size} (found : s.row id = .ok i) {n : ℕ}
    (positive : 0 < n) : s.Surrounds id (((s.byDistance i).take n).map s.ids.get) := by
  obtain ⟨first, rest, rows, same⟩ := s.exists_byDistance_eq_cons i
  refine surrounds_of_rows found same ?_
  obtain ⟨n, rfl⟩ := Nat.exists_eq_succ_of_ne_zero positive.ne'
  rw [rows, List.take_succ_cons]
  exact List.mem_cons_self

theorem exists_within {id : Int} (member : id ∈ s.ids.toList) {radius : ℝ} (nonneg : 0 ≤ radius) :
    ∃ ids, s.within id radius = .ok ids ∧ s.Surrounds id ids := by
  obtain ⟨i, found⟩ := exists_row member
  have near : decide ((s.squaredDistances i).get i ≤ radius * radius) = true := by
    rw [decide_eq_true_eq, squaredDistances_eq_zero_iff.mpr rfl]
    exact mul_self_nonneg radius
  have own : i ∈ (s.byDistance i).filter fun j =>
      decide ((s.squaredDistances i).get j ≤ radius * radius) :=
    List.mem_filter.mpr ⟨mem_byDistance i i, near⟩
  exact ⟨_, within_of_row nonneg found, surrounds_of_rows found rfl own⟩

end Nearest

end PointSet

/-- What a standard provider looks for: a number of nearest points, or all points at most a radius
away. -/
inductive Reach (α : Type) where
  | nearest (count : Option (Quantity α))
  | within (radius : α)

namespace Reach

variable {α : Type} [Scalar α]

def provider : Reach α → Checked α (Provider α)
  | nearest count => Provider.nearest count
  | within radius => Provider.within radius

/-- The ids of the points that are found around a point. -/
def ids (reach : Reach α) (s : PointSet α) (id : Int) : Checked α (List Int) :=
  match reach with
  | nearest count => s.nearestStated id (Provider.countIn count s)
  | within radius => s.within id radius

/-- A number of points is not stated by a number that need not be whole. -/
def Whole : Reach α → Prop
  | nearest count => ∀ q ∈ count, ∃ k, q.whole? = some k
  | within _ => True

variable {reach : Reach α} {provider : Provider α}

theorem points_eq (made : reach.provider = .ok provider) (s : PointSet α) (id : Int) :
    provider.points s id = reach.ids s id >>= s.stacked := by
  unfold Reach.provider Provider.nearest Provider.within at made
  cases reach with
  | nearest count =>
      simp only at made
      split at made
      · split at made
        · cases made
        · cases made
          rfl
      · cases made
        rfl
  | within radius =>
      simp only at made
      split at made
      · cases made
      · cases made
        rfl

theorem isNonPositive_of_made {q : Quantity α}
    (made : (Reach.nearest (some q)).provider = .ok provider) : q.isNonPositive = false := by
  cases known : q.isNonPositive with
  | false => rfl
  | true =>
      have refused : (Reach.nearest (some q)).provider = .error (.neighborCountNotPositive q) :=
        if_pos known
      rw [refused] at made
      cases made

theorem nonneg_of_made {radius : ℝ} {provider : Provider ℝ}
    (made : (Reach.within radius).provider = .ok provider) : 0 ≤ radius := by
  by_contra! negative
  have refused : (Reach.within radius).provider = .error (.negativeRadius radius) :=
    if_pos negative
  rw [refused] at made
  cases made

/-- Around every point of a set a standard provider finds points, one of which has its vector. -/
theorem exists_ids {reach : Reach ℝ} {provider : Provider ℝ} (made : reach.provider = .ok provider)
    (whole : reach.Whole) {s : PointSet ℝ} {id : Int} (member : id ∈ s.ids.toList) :
    ∃ ids, reach.ids s id = .ok ids ∧ s.Surrounds id ids := by
  cases reach with
  | nearest count =>
      have dim := s.nonempty.2
      have size := s.nonempty.1
      have stated : ∃ k, (count.getD (.int (3 * s.dim))).whole? = some k ∧ 0 < k := by
        cases count with
        | none => exact ⟨_, rfl, by omega⟩
        | some q =>
            obtain ⟨k, known⟩ := whole q rfl
            exact ⟨k, known, (Quantity.isNonPositive_eq_false_iff known).mp (isNonPositive_of_made made)⟩
      obtain ⟨k, known, positive⟩ := stated
      have capped := Quantity.whole_capped known positive size
      obtain ⟨i, found⟩ := PointSet.exists_row member
      exact ⟨_, PointSet.nearestStated_of_whole found capped (by omega),
        PointSet.surrounds_nearest found (by omega)⟩
  | within radius => exact PointSet.exists_within member (nonneg_of_made made)

theorem chosen_eq (made : reach.provider = .ok provider) {s : PointSet α} {id : Int}
    {ids : List Int} (found : reach.ids s id = .ok ids) :
    provider.points s id = s.stacked ids := by
  rw [points_eq made, found]
  rfl

end Reach

section Stacks

theorem Provider.neighborhood_of_rows {provider : Provider ℝ} {s : PointSet ℝ} {id : Int}
    {ids : List Int} (chosen : provider.points s id = s.stacked ids) {anchor : Vector ℝ s.dim}
    (known : s.vector id = .ok anchor) {m : ℕ} {rows : Mat ℝ m s.dim} (positive : 0 < m)
    (found : s.rows ids = .ok rows.toList) :
    provider.neighborhood s id = .ok (.ofRows anchor rows ⟨positive, s.nonempty.2⟩) := by
  rw [Provider.neighborhood, chosen, PointSet.stacked_of_rows found, known]
  exact Neighborhood.ofTensors_self (.ofRows anchor rows ⟨positive, s.nonempty.2⟩)

/-- Around every point of a set a standard provider finds a neighborhood, in which the vector of the
point is. -/
theorem Reach.exists_neighborhood {reach : Reach ℝ} {provider : Provider ℝ}
    (made : reach.provider = .ok provider) (whole : reach.Whole) {s : PointSet ℝ} {id : Int}
    (member : id ∈ s.ids.toList) :
    ∃ (m : ℕ) (anchor : Vector ℝ s.dim) (points : Mat ℝ m s.dim) (filled : 0 < m ∧ 0 < s.dim),
      provider.neighborhood s id = .ok (.ofRows anchor points filled) ∧
      s.vector id = .ok anchor ∧ ∃ k, points.get k = anchor := by
  obtain ⟨ids, found, around⟩ := exists_ids made whole member
  obtain ⟨m, points, positive, stacked⟩ := around.exists_rows
  obtain ⟨anchor, known⟩ := PointSet.exists_vector member
  refine ⟨m, anchor, points, ⟨positive, s.nonempty.2⟩,
    Provider.neighborhood_of_rows (chosen_eq made found) known positive stacked, known, ?_⟩
  obtain ⟨i, chosen, same⟩ := around.own
  obtain ⟨x, paired, here⟩ := Checked.exists_mem_zip (Checked.mapM_ok_iff.mp stacked) chosen
  obtain rfl : anchor = x := Except.ok.inj (known.symm.trans (same.symm.trans here))
  obtain ⟨k, inside, there⟩ :=
    Vector.mem_iff_getElem.mp (Vector.mem_toList_iff.mp (List.of_mem_zip paired).2)
  exact ⟨⟨k, inside⟩, there⟩

end Stacks

end LocalMetric
