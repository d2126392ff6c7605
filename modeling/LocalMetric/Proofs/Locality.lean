import LocalMetric.Proofs.Equivariance
/-!
# What an outcome depends on

Neighbors are found by their rows, asked for by their ids and analysed as the rows of an array. None
of this shows in the end: an outcome depends on the vector of its point and on which vectors were
chosen around it, not on their order, not on ids and not on any other point. So with a radius, points
that are farther away have no influence.
-/
namespace LocalMetric

section Lists

variable {n : ℕ}

noncomputable def euclidean (x y : List ℝ) : ℝ :=
  √(List.zipWith (fun a b => (a - b) ^ 2) x y).sum

theorem euclidean_toList (x y : Vector ℝ n) :
    euclidean x.toList y.toList = √(squaredNorm (difference x y)) := by
  have squares : List.zipWith (fun a b => (a - b) ^ 2) x.toList y.toList =
      List.ofFn fun i => (difference x y).get i * (difference x y).get i := by
    apply List.ext_getElem
    · simp only [List.length_zipWith, Vector.length_toList, min_self, List.length_ofFn]
    · intro i _ inside
      rw [List.length_ofFn] at inside
      rw [List.getElem_zipWith, List.getElem_ofFn, get_difference, ← sq]
      rfl
  rw [euclidean, squares, List.sum_ofFn, squaredNorm, dot, sum_eq]

theorem euclidean_self (x : Vector ℝ n) : euclidean x.toList x.toList = 0 := by
  rw [euclidean_toList, squaredNorm_difference_eq_zero_iff.mpr rfl, Real.sqrt_zero]

end Lists

section Rows

variable {m m' n n' : ℕ} {anchor : Vector ℝ n} {points : Mat ℝ m n}

/-- Neighborhoods with the same anchor and the same points in any order are analysed alike. -/
theorem LocalPca.ofNeighborhood_of_perm {anchor' : Vector ℝ n'} {rows' : Mat ℝ m' n'}
    (same : anchor.toList = anchor'.toList)
    (perm : (points.toList.map Vector.toList).Perm (rows'.toList.map Vector.toList))
    (nonempty : 0 < m ∧ 0 < n) (nonempty' : 0 < m' ∧ 0 < n') (solver : Solver ℝ)
    (config : Config ℝ) : ofNeighborhood solver config (.ofRows anchor points nonempty) =
      ofNeighborhood solver config (.ofRows anchor' rows' nonempty') := by
  have dim := congrArg List.length same
  rw [Vector.length_toList, Vector.length_toList] at dim
  subst dim
  obtain rfl := Vector.toList_inj.mp same
  have count := perm.length_eq
  rw [List.length_map, List.length_map, Vector.length_toList, Vector.length_toList] at count
  subst count
  have vectors : points.toList.Perm rows'.toList :=
    (List.map_perm_map_iff fun _ _ => Vector.toList_inj.mp).mp perm
  have scatter : (Neighborhood.ofRows anchor points nonempty).scatter config.center =
      (Neighborhood.ofRows anchor rows' nonempty).scatter config.center :=
    Neighborhood.scatter_of_repeats nonempty nonempty Nat.one_pos (Mat.repeats_one_iff.mpr vectors)
      config.center
  unfold ofNeighborhood
  rw [scatter]

end Rows

namespace PointSet

section Listed

variable {α : Type} [Scalar α]

def listed (s : PointSet α) : List (Int × List α) :=
  (List.finRange s.size).map fun i => (s.ids.get i, (s.vectors.get i).toList)

theorem mem_listed {s : PointSet α} {id : Int} {v : List α} :
    (id, v) ∈ s.listed ↔ ∃ i, s.ids.get i = id ∧ (s.vectors.get i).toList = v := by
  simp only [listed, List.mem_map, List.mem_finRange, true_and, Prod.mk.injEq]

theorem rows_get (s : PointSet α) (places : List (Fin s.size)) :
    s.rows (places.map s.ids.get) = .ok (places.map s.vectors.get) := by
  refine Checked.mapM_ok_iff.mpr ?_
  rw [List.forall₂_map_left_iff, List.forall₂_map_right_iff, List.forall₂_same]
  exact fun i _ => s.vector_get i

def drawn (s : PointSet α) (ids : List Int) : Checked α (List (List α)) :=
  (s.rows ids).map fun vectors => vectors.map Vector.toList

theorem drawn_get (s : PointSet α) (places : List (Fin s.size)) :
    s.drawn (places.map s.ids.get) = .ok (places.map fun j => (s.vectors.get j).toList) := by
  rw [drawn, rows_get]
  exact congrArg Except.ok List.map_map

end Listed

/-- The coordinates of the points of a set that are at most a radius away from a place. -/
noncomputable def near (s : PointSet ℝ) (v : List ℝ) (radius : ℝ) : List (List ℝ) :=
  (s.listed.map Prod.snd).filter fun w => decide (euclidean w v ≤ radius)

variable {s : PointSet ℝ}

theorem near_perm {radius : ℝ} (nonneg : 0 ≤ radius) (i : Fin s.size) :
    (((s.byDistance i).filter fun j => decide ((s.squaredDistances i).get j ≤ radius * radius)).map
      fun j => (s.vectors.get j).toList).Perm (s.near (s.vectors.get i).toList radius) := by
  have close (j : Fin s.size) : decide ((s.squaredDistances i).get j ≤ radius * radius) =
      decide (euclidean (s.vectors.get j).toList (s.vectors.get i).toList ≤ radius) := by
    rw [get_squaredDistances, euclidean_toList, decide_eq_decide, Real.sqrt_le_left nonneg, sq]
  simp only [close, near, listed, List.map_map, List.filter_map]
  exact ((byDistance_perm i).filter _).map _

theorem drawn_nearest {p : Provider ℝ} {k : Int}
    (made : (Reach.nearest (some (.int k))).provider = .ok p) (i : Fin s.size) (enough : k ≤ s.size) :
    (s.nearestStated (s.ids.get i) (.int k) >>= s.drawn) =
      .ok (((s.byDistance i).take k.toNat).map fun j => (s.vectors.get j).toList) := by
  have positive : 0 < k := not_le.mp (of_decide_eq_false (Reach.isNonPositive_of_made made))
  rw [nearestStated_of_whole (s.row_get i) rfl positive, min_eq_left enough]
  exact s.drawn_get _

/-- One set becomes the other if far points are put in or left out, the others are renamed, and the
rows are put in any order. -/
def Rearranged (s s' : PointSet ℝ) (rename : Int → Int) (far : List ℝ → Prop) : Prop :=
  ∃ kept removed added : List (Int × List ℝ), s.listed.Perm (kept ++ removed) ∧
    s'.listed.Perm (kept.map (fun point => (rename point.1, point.2)) ++ added) ∧
    ∀ point ∈ removed ++ added, far point.2

variable {s' : PointSet ℝ} {rename : Int → Int} {far : List ℝ → Prop}

theorem near_of_rearranged (rearranged : s.Rearranged s' rename far) {v : List ℝ} {radius : ℝ}
    (away : ∀ w, far w → radius < euclidean w v) : (s.near v radius).Perm (s'.near v radius) := by
  obtain ⟨kept, removed, added, before, after, outside⟩ := rearranged
  have close : ∀ w, far w → ¬decide (euclidean w v ≤ radius) = true := by
    intro w there
    rw [decide_eq_true_eq, not_le]
    exact away w there
  have gone : (removed.map Prod.snd).filter (fun w => decide (euclidean w v ≤ radius)) = [] := by
    rw [List.filter_eq_nil_iff, List.forall_mem_map]
    exact fun point member => close _ (outside point (List.mem_append_left _ member))
  have new : (added.map Prod.snd).filter (fun w => decide (euclidean w v ≤ radius)) = [] := by
    rw [List.filter_eq_nil_iff, List.forall_mem_map]
    exact fun point member => close _ (outside point (List.mem_append_right _ member))
  have left := (before.map Prod.snd).filter fun w => decide (euclidean w v ≤ radius)
  have right := (after.map Prod.snd).filter fun w => decide (euclidean w v ≤ radius)
  rw [List.map_append, List.filter_append, gone, List.append_nil] at left
  rw [List.map_append, List.filter_append, new, List.append_nil, List.map_map] at right
  exact left.trans right.symm

theorem mem_listed_of_rearranged (rearranged : s.Rearranged s' rename far) {id : Int} {v : List ℝ}
    (member : (id, v) ∈ s.listed) (here : ¬far v) : (rename id, v) ∈ s'.listed := by
  obtain ⟨kept, removed, added, before, after, outside⟩ := rearranged
  rcases List.mem_append.mp (before.mem_iff.mp member) with stays | goes
  · exact after.mem_iff.mpr (List.mem_append_left _ (List.mem_map.mpr ⟨_, stays, rfl⟩))
  · exact absurd (outside _ (List.mem_append_left _ goes)) here

end PointSet

theorem weightedDistance_of_lists {n n' : ℕ} {x y : Vector ℝ n} {x' y' : Vector ℝ n'}
    (first : x.toList = x'.toList) (second : y.toList = y'.toList) {r t : LocalPca ℝ}
    {w v : Mat ℝ n n} {w' v' : Mat ℝ n' n'} (fitsW : Database.fitted n r = .ok w)
    (fitsW' : Database.fitted n' r = .ok w') (fitsV : Database.fitted n t = .ok v)
    (fitsV' : Database.fitted n' t = .ok v') :
    weightedDistance x y w v = weightedDistance x' y' w' v' := by
  have dim := congrArg List.length first
  rw [Vector.length_toList, Vector.length_toList] at dim
  subst dim
  obtain rfl := Vector.toList_inj.mp first
  obtain rfl := Vector.toList_inj.mp second
  obtain rfl := Except.ok.inj (fitsW.symm.trans fitsW')
  obtain rfl := Except.ok.inj (fitsV.symm.trans fitsV')
  rfl

namespace Preprocessor

section Runs

variable {α : Type} [Scalar α] {p : Preprocessor α} {s : PointSet α} {id : Int} {r : LocalPca α}

/-- A run that computes a point: it is not idle, and the point is pending. -/
structure Computes (stored : Associations (Associated α)) (force : Bool) (s : PointSet α)
    (id : Int) : Prop where
  busy : ¬Idle ⟨s, stored⟩ force
  due : id ∈ pending ⟨s, stored⟩ force

/-- Every run that computes a point is answered and leaves the given outcome for it. -/
def Yields (p : Preprocessor α) (s : PointSet α) (id : Int) (r : LocalPca α) : Prop :=
  ∀ stored force, Computes stored force s id →
    (∃ count, (p.run ⟨s, stored⟩ force).1 = .ok count) ∧
    (p.run ⟨s, stored⟩ force).2.outcome id = .ok r

/-- Every run that computes two points is answered and leaves the given distance between them. -/
def Measures (p : Preprocessor α) (s : PointSet α) (i j : Int) (distance : α) : Prop :=
  ∀ stored force, Computes stored force s i → Computes stored force s j →
    (∃ count, (p.run ⟨s, stored⟩ force).1 = .ok count) ∧
    (p.run ⟨s, stored⟩ force).2.distance i j = .ok distance

theorem yields_of_compute (every : ∀ id ∈ s.ids.toList, ∃ r, p.compute s id = .ok r)
    (computed : p.compute s id = .ok r) : p.Yields s id r := by
  intro stored force computes
  have pass := p.run_pass ⟨s, stored⟩ force
  generalize p.run ⟨s, stored⟩ force = result at pass
  cases pass with
  | skipped idle => exact absurd idle computes.busy
  | abandoned _ due failed =>
      obtain ⟨r', answered⟩ := every _ (mem_pending.mp due).1
      cases answered.symm.trans failed
  | completed _ left =>
      obtain ⟨r', answered, there⟩ := left.computed id computes.due
      obtain rfl : r = r' := Except.ok.inj (computed.symm.trans answered)
      exact ⟨⟨_, rfl⟩, Database.outcome_of_find? there⟩

theorem measures_of_yields {i j : Int} {r t : LocalPca α} (atI : p.Yields s i r)
    (atJ : p.Yields s j t) {x y : Vector α s.dim} (vectorI : s.vector i = .ok x)
    (vectorJ : s.vector j = .ok y) {w v : Mat α s.dim s.dim}
    (fits : Database.fitted s.dim r = .ok w) (fits' : Database.fitted s.dim t = .ok v) :
    p.Measures s i j (weightedDistance x y w v) := by
  intro stored force computesI computesJ
  obtain ⟨answered, outcomeI⟩ := atI stored force computesI
  obtain ⟨_, outcomeJ⟩ := atJ stored force computesJ
  exact ⟨answered, Database.distance_of_weighs (p.run_points _ _) ⟨r, outcomeI, fits⟩
    ⟨t, outcomeJ, fits'⟩ vectorI vectorJ⟩

end Runs

variable {p : Preprocessor ℝ} {reach : Reach ℝ} {s s' : PointSet ℝ}

/-- Two points with one vector whose neighbors have the same vectors, in any order, have one
outcome. -/
theorem exists_common_outcome (made : reach.provider = .ok p.provider) {i : Fin s.size}
    {i' : Fin s'.size} (same : (s.vectors.get i).toList = (s'.vectors.get i').toList)
    {places : List (Fin s.size)} {places' : List (Fin s'.size)} (filled : places ≠ [])
    (found : reach.ids s (s.ids.get i) = .ok (places.map s.ids.get))
    (found' : reach.ids s' (s'.ids.get i') = .ok (places'.map s'.ids.get))
    (perm : (places.map fun j => (s.vectors.get j).toList).Perm
      (places'.map fun j => (s'.vectors.get j).toList)) :
    ∃ r, p.compute s (s.ids.get i) = .ok r ∧ p.compute s' (s'.ids.get i') = .ok r := by
  let rows : Mat ℝ places.length s.dim := ⟨(places.map s.vectors.get).toArray, by simp⟩
  let rows' : Mat ℝ places'.length s'.dim := ⟨(places'.map s'.vectors.get).toArray, by simp⟩
  have positive : 0 < places.length := List.length_pos_iff.mpr filled
  have count : places.length = places'.length := by
    have lengths := perm.length_eq
    rwa [List.length_map, List.length_map] at lengths
  have listed : s.rows (places.map s.ids.get) = .ok rows.toList := s.rows_get places
  have listed' : s'.rows (places'.map s'.ids.get) = .ok rows'.toList := s'.rows_get places'
  have hood := Provider.neighborhood_of_rows (Reach.chosen_eq made found) (s.vector_get i) positive
    listed
  have hood' := Provider.neighborhood_of_rows (Reach.chosen_eq made found') (s'.vector_get i')
    (count ▸ positive) listed'
  have permuted : (rows.toList.map Vector.toList).Perm (rows'.toList.map Vector.toList) := by
    change ((places.map s.vectors.get).map Vector.toList).Perm
      ((places'.map s'.vectors.get).map Vector.toList)
    rwa [List.map_map, List.map_map]
  obtain ⟨r, analysis, _⟩ := exists_analyzed p.solver p.config
    (.ofRows (s.vectors.get i) rows ⟨positive, s.nonempty.2⟩)
  have alike := LocalPca.ofNeighborhood_of_perm same permuted ⟨positive, s.nonempty.2⟩
    ⟨count ▸ positive, s'.nonempty.2⟩ p.solver p.config
  refine ⟨r, ?_, ?_⟩
  · rw [compute_eq, hood]
    exact analysis
  · rw [compute_eq, hood']
    exact alike.symm.trans analysis

theorem exists_common_outcome_within {radius : ℝ} (made : (Reach.within radius).provider =
    .ok p.provider) {i : Fin s.size} {i' : Fin s'.size}
    (same : (s.vectors.get i).toList = (s'.vectors.get i').toList)
    (near : (s.near (s.vectors.get i).toList radius).Perm
      (s'.near (s'.vectors.get i').toList radius)) :
    ∃ r, p.compute s (s.ids.get i) = .ok r ∧ p.compute s' (s'.ids.get i') = .ok r := by
  have nonneg := Reach.nonneg_of_made made
  let places := (s.byDistance i).filter fun j =>
    decide ((s.squaredDistances i).get j ≤ radius * radius)
  have own : i ∈ places := by
    refine List.mem_filter.mpr ⟨PointSet.mem_byDistance i i, ?_⟩
    rw [decide_eq_true_eq, PointSet.squaredDistances_eq_zero_iff.mpr rfl]
    exact mul_self_nonneg radius
  exact exists_common_outcome made same (List.ne_nil_of_mem own)
    (PointSet.within_of_row nonneg (s.row_get i)) (PointSet.within_of_row nonneg (s'.row_get i'))
    ((PointSet.near_perm nonneg i).trans (near.trans (PointSet.near_perm nonneg i').symm))

theorem exists_common_outcome_nearest {k : Int} (made : (Reach.nearest (some (.int k))).provider =
    .ok p.provider) {i : Fin s.size} {i' : Fin s'.size}
    (same : (s.vectors.get i).toList = (s'.vectors.get i').toList) (enough : k ≤ s.size)
    (enough' : k ≤ s'.size)
    (nearest : (((s.byDistance i).take k.toNat).map fun j => (s.vectors.get j).toList).Perm
      (((s'.byDistance i').take k.toNat).map fun j => (s'.vectors.get j).toList)) :
    ∃ r, p.compute s (s.ids.get i) = .ok r ∧ p.compute s' (s'.ids.get i') = .ok r := by
  have positive : 0 < k := not_le.mp (of_decide_eq_false (Reach.isNonPositive_of_made made))
  have found {t : PointSet ℝ} (i : Fin t.size) (enough : k ≤ t.size) :
      (Reach.nearest (some (.int k)) : Reach ℝ).ids t (t.ids.get i) =
        .ok (((t.byDistance i).take k.toNat).map t.ids.get) := by
    have answer := PointSet.nearestStated_of_whole (q := .int k) (t.row_get i) rfl positive
    have capped : Provider.countIn (some (.int k)) t = (.int k : Quantity ℝ) :=
      congrArg Quantity.int (min_eq_left enough)
    rw [min_eq_left enough] at answer
    rw [Reach.ids, capped, answer]
  have filled : (s.byDistance i).take k.toNat ≠ [] := by
    apply List.ne_nil_of_length_pos
    rw [List.length_take, (PointSet.byDistance_perm i).length_eq, List.length_finRange]
    have size := s.nonempty.1
    omega
  exact exists_common_outcome made same filled (found i enough) (found i' enough') nearest

/-- A distance is computed from nothing but two vectors and two outcomes. -/
theorem exists_common_distance_of_outcomes (every : ∀ id ∈ s.ids.toList, ∃ r, p.compute s id = .ok r)
    (every' : ∀ id ∈ s'.ids.toList, ∃ r, p.compute s' id = .ok r) {i j : Fin s.size}
    {i' j' : Fin s'.size} (sameI : (s.vectors.get i).toList = (s'.vectors.get i').toList)
    (sameJ : (s.vectors.get j).toList = (s'.vectors.get j').toList)
    (atI : ∃ r, p.compute s (s.ids.get i) = .ok r ∧ p.compute s' (s'.ids.get i') = .ok r)
    (atJ : ∃ r, p.compute s (s.ids.get j) = .ok r ∧ p.compute s' (s'.ids.get j') = .ok r) :
    ∃ distance, p.Measures s (s.ids.get i) (s.ids.get j) distance ∧
      p.Measures s' (s'.ids.get i') (s'.ids.get j') distance := by
  obtain ⟨r, here, there⟩ := atI
  obtain ⟨t, here', there'⟩ := atJ
  obtain ⟨w, fits⟩ := exists_fitted_of_compute here
  obtain ⟨v, fits'⟩ := exists_fitted_of_compute here'
  obtain ⟨w', fitsThere⟩ := exists_fitted_of_compute there
  obtain ⟨v', fitsThere'⟩ := exists_fitted_of_compute there'
  have equal := weightedDistance_of_lists sameI sameJ fits fitsThere fits' fitsThere'
  refine ⟨_, measures_of_yields (yields_of_compute every here) (yields_of_compute every here')
    (s.vector_get i) (s.vector_get j) fits fits', ?_⟩
  rw [equal]
  exact measures_of_yields (yields_of_compute every' there) (yields_of_compute every' there')
    (s'.vector_get i') (s'.vector_get j') fitsThere fitsThere'

/-- Runs that compute a point of one set and a point of another leave one outcome for both. -/
def Alike (p : Preprocessor ℝ) (s s' : PointSet ℝ) (id id' : Int) : Prop :=
  ∃ r, p.Yields s id r ∧ p.Yields s' id' r

/-- Standard preprocessors look at nothing but the vectors of a point and of its neighbors. With a
radius these are the vectors that are near; with a number of neighbors, those that a search finds. So
distances within a radius do not change if rows are put in another order, points are renamed, or
points that are far from both ends are put in or left out. -/
theorem outcomes_are_local {p : Preprocessor ℝ} :
    (∀ radius, (Reach.within radius).provider = .ok p.provider →
      ∀ (s s' : PointSet ℝ) (id id' : Int) (v : List ℝ), (id, v) ∈ s.listed → (id', v) ∈ s'.listed →
        (s.near v radius).Perm (s'.near v radius) → p.Alike s s' id id') ∧
    (∀ k : Int, (Reach.nearest (some (.int k))).provider = .ok p.provider →
      ∀ (s s' : PointSet ℝ) (id id' : Int) (v : List ℝ), (id, v) ∈ s.listed → (id', v) ∈ s'.listed →
        k ≤ s.size → k ≤ s'.size →
        (∃ found found', (s.nearestStated id (.int k) >>= s.drawn) = .ok found ∧
          (s'.nearestStated id' (.int k) >>= s'.drawn) = .ok found' ∧ found.Perm found') →
        p.Alike s s' id id') ∧
    (∀ radius, (Reach.within radius).provider = .ok p.provider →
      ∀ (s s' : PointSet ℝ) (rename : Int → Int) (i j : Int) (v w : List ℝ), (i, v) ∈ s.listed →
        (j, w) ∈ s.listed → s.Rearranged s' rename
          (fun far => radius < euclidean far v ∧ radius < euclidean far w) →
        ∃ distance, p.Measures s i j distance ∧ p.Measures s' (rename i) (rename j) distance) := by
  have computes {reach : Reach ℝ} (made : reach.provider = .ok p.provider) (whole : reach.Whole)
      (s : PointSet ℝ) : ∀ id ∈ s.ids.toList, ∃ r, p.compute s id = .ok r := by
    intro id member
    obtain ⟨_, _, _, _, found, _⟩ := Reach.exists_neighborhood made whole member
    exact exists_compute_iff.mpr ⟨_, found⟩
  refine ⟨?_, ?_, ?_⟩
  · intro radius made s s' id id' v member member' near
    obtain ⟨i, rfl, rfl⟩ := PointSet.mem_listed.mp member
    obtain ⟨i', rfl, same⟩ := PointSet.mem_listed.mp member'
    obtain ⟨r, here, there⟩ := exists_common_outcome_within made same.symm (by rwa [same])
    exact ⟨r, yields_of_compute (computes made trivial s) here,
      yields_of_compute (computes made trivial s') there⟩
  · rintro k made s s' id id' v member member' enough enough' ⟨found, found', drawn, drawn', perm⟩
    obtain ⟨i, rfl, rfl⟩ := PointSet.mem_listed.mp member
    obtain ⟨i', rfl, same⟩ := PointSet.mem_listed.mp member'
    rw [PointSet.drawn_nearest made i enough] at drawn
    rw [PointSet.drawn_nearest made i' enough'] at drawn'
    obtain rfl := Except.ok.inj drawn
    obtain rfl := Except.ok.inj drawn'
    obtain ⟨r, here, there⟩ := exists_common_outcome_nearest made same.symm enough enough' perm
    have whole : (Reach.nearest (some (.int k)) : Reach ℝ).Whole := by
      rintro q ⟨⟩
      exact ⟨k, rfl⟩
    exact ⟨r, yields_of_compute (computes made whole s) here,
      yields_of_compute (computes made whole s') there⟩
  · intro radius made s s' rename i j v w memberI memberJ rearranged
    have nonneg := Reach.nonneg_of_made made
    obtain ⟨i, rfl, rfl⟩ := PointSet.mem_listed.mp memberI
    obtain ⟨j, rfl, rfl⟩ := PointSet.mem_listed.mp memberJ
    have nearI := PointSet.near_of_rearranged rearranged fun far away => away.1
    have nearJ := PointSet.near_of_rearranged rearranged fun far away => away.2
    have stays := PointSet.mem_listed_of_rearranged rearranged memberI fun away =>
      (nonneg.trans_lt away.1).ne' (euclidean_self _)
    have stays' := PointSet.mem_listed_of_rearranged rearranged memberJ fun away =>
      (nonneg.trans_lt away.2).ne' (euclidean_self _)
    obtain ⟨i', renamed, sameI⟩ := PointSet.mem_listed.mp stays
    obtain ⟨j', renamed', sameJ⟩ := PointSet.mem_listed.mp stays'
    rw [← renamed, ← renamed']
    exact exists_common_distance_of_outcomes (computes made trivial s) (computes made trivial s')
      sameI.symm sameJ.symm (exists_common_outcome_within made sameI.symm (by rwa [sameI]))
      (exists_common_outcome_within made sameJ.symm (by rwa [sameJ]))

end Preprocessor

noncomputable abbrev PointSet.ofThree {n : ℕ} (x y z : Vector ℝ n) (positive : 0 < n) :
    PointSet ℝ where
  size := 3
  dim := n
  vectors := #v[x, y, z]
  ids := #v[30, 20, 10]
  nonempty := ⟨Nat.succ_pos 2, positive⟩
  ids_nodup := by decide
  vectors_finite := Mat.allFinite_real _

theorem euclidean_single (a b : ℝ) : euclidean [a] [b] = |a - b| := by
  rw [euclidean, List.zipWith_cons_cons, List.zipWith_nil_left, List.sum_singleton,
    Real.sqrt_sq_eq_abs]

theorem PointSet.rearranged_ofThree :
    (PointSet.ofPair #v[0] #v[1] Nat.one_pos).Rearranged (ofThree #v[9] #v[1] #v[0] Nat.one_pos)
      (10 * ·)
      fun far => 2 < euclidean far [0] ∧ 2 < euclidean far [1] := by
  refine ⟨[(1, [0]), (2, [1])], [], [(30, [9])], .refl _, ?_, ?_⟩
  · exact (List.reverse_perm [(30, [9]), (20, [1]), (10, [0])]).symm
  · intro point member
    obtain rfl := List.mem_singleton.mp member
    rw [euclidean_single, euclidean_single]
    norm_num

namespace Preprocessor

theorem computes_of_fresh {s : PointSet ℝ} {id : Int} (member : id ∈ s.ids.toList) :
    Computes {} false s id := by
  have fresh : Thorough (⟨s, {}⟩ : Database ℝ) false := .inr rfl
  exact ⟨not_idle_of_thorough fresh, pending_of_thorough fresh ▸ member⟩

theorem outcomes_are_local_line : ∃ provider provider' distance,
    (Reach.within 2).provider = .ok provider ∧
    (Reach.nearest (some (.int 2))).provider = .ok provider' ∧
    (usual provider).Alike (.ofPair #v[0] #v[1] Nat.one_pos) (.ofThree #v[9] #v[1] #v[0] Nat.one_pos)
      1 10 ∧
    (usual provider').Alike (.ofPair #v[0] #v[1] Nat.one_pos) (.ofPair #v[1] #v[0] Nat.one_pos) 1 2 ∧
    ((usual provider).run ⟨.ofPair #v[0] #v[1] Nat.one_pos, {}⟩ false).2.distance 1 2 =
      .ok distance ∧
    ((usual provider).run ⟨.ofThree #v[9] #v[1] #v[0] Nat.one_pos, {}⟩ false).2.distance 10 20 =
      .ok distance := by
  let line : PointSet ℝ := .ofPair #v[0] #v[1] Nat.one_pos
  let swapped : PointSet ℝ := .ofPair #v[1] #v[0] Nat.one_pos
  let renamed : PointSet ℝ := .ofThree #v[9] #v[1] #v[0] Nat.one_pos
  obtain ⟨provider, made⟩ := Reach.exists_provider_within (show (0 : ℝ) ≤ 2 by norm_num)
  have made' : (Reach.nearest (some (.int 2)) : Reach ℝ).provider =
      .ok (Provider.nearest.provider (some (.int 2))) := rfl
  obtain ⟨byRadius, _, distances⟩ := outcomes_are_local (p := usual provider)
  obtain ⟨_, byCount, _⟩ := outcomes_are_local (p := usual (Provider.nearest.provider (some (.int 2))))
  have near := PointSet.near_of_rearranged PointSet.rearranged_ofThree fun far away => away.1
  obtain ⟨distance, here, there⟩ := distances 2 made line renamed (10 * ·) 1 2 [0] [1]
    (List.mem_cons_self) (List.mem_cons_of_mem _ List.mem_cons_self)
    PointSet.rearranged_ofThree
  refine ⟨provider, _, distance, made, made', ?_, ?_, ?_, ?_⟩
  · exact byRadius 2 made line renamed 1 10 [0] List.mem_cons_self
      (List.mem_cons_of_mem _ (List.mem_cons_of_mem _ List.mem_cons_self)) near
  · refine byCount 2 made' line swapped 1 2 [0] List.mem_cons_self
      (List.mem_cons_of_mem _ List.mem_cons_self) le_rfl le_rfl
      ⟨_, _, PointSet.drawn_nearest made' (s := line) (0 : Fin 2) le_rfl,
        PointSet.drawn_nearest made' (s := swapped) (1 : Fin 2) le_rfl, ?_⟩
    have all {t : PointSet ℝ} (i : Fin t.size) : ((t.byDistance i).take t.size).Perm
        (List.finRange t.size) := by
      rw [List.take_of_length_le]
      · exact PointSet.byDistance_perm i
      · rw [(PointSet.byDistance_perm i).length_eq, List.length_finRange]
    have found := (all (t := line) (0 : Fin 2)).map fun j => (line.vectors.get j).toList
    have found' := (all (t := swapped) (1 : Fin 2)).map fun j => (swapped.vectors.get j).toList
    have turned : ((List.finRange 2).map fun j => (line.vectors.get j).toList).Perm
        ((List.finRange 2).map fun j => (swapped.vectors.get j).toList) :=
      .swap [1] [0] []
    exact found.trans (turned.trans found'.symm)
  · exact (here {} false (computes_of_fresh (by decide)) (computes_of_fresh (by decide))).2
  · exact (there {} false (computes_of_fresh (by decide)) (computes_of_fresh (by decide))).2

end Preprocessor

end LocalMetric
