import LocalMetric.Proofs.Floods
/-!
# Clusters grow whole

The points are visited in their order. The labels given so far are those of whole clusters: a core
point shares its label with what a chain of core points links to it, and a point that only borders
on clusters belongs to the first of them.
-/
namespace LocalMetric.Density

variable {n : ℕ}

section Growth

variable {near : Mat Bool n n} {core : Vector Bool n}

def Joined (near : Mat Bool n n) (core : Vector Bool n) (i j : Fin n) : Prop :=
  core.get i = true ∧ core.get j = true ∧ near.entry i j = true

def Linked (near : Mat Bool n n) (core : Vector Bool n) : Fin n → Fin n → Prop :=
  Relation.ReflTransGen (Joined near core)

theorem Linked.symm (mirrored : ∀ i j, near.entry i j = near.entry j i) {i j : Fin n}
    (linked : Linked near core i j) : Linked near core j i := by
  induction linked with
  | refl => exact .refl
  | tail _ joined ih =>
      obtain ⟨core_i, core_j, near_ij⟩ := joined
      exact .head ⟨core_j, core_i, mirrored _ _ ▸ near_ij⟩ ih

/-- What holds of the labels when the clusters of the points before `done` are complete. -/
structure Grown (near : Mat Bool n n) (core : Vector Bool n) (done : ℕ) (g : Growth n) : Prop where
  bounded : ∀ i, g.labels.get i = noise ∨ 0 ≤ g.labels.get i ∧ g.labels.get i < g.next
  visited : ∀ i, core.get i = true → i.val < done → g.labels.get i ≠ noise
  linked : ∀ i j, core.get i = true → core.get j = true → g.labels.get i ≠ noise →
    (g.labels.get i = g.labels.get j ↔ Linked near core i j)
  bordering : ∀ p, core.get p = false → g.labels.get p ≠ noise →
    ∃ i, core.get i = true ∧ near.entry i p = true ∧ g.labels.get i = g.labels.get p
  first : ∀ p i, core.get p = false → core.get i = true → near.entry i p = true →
    g.labels.get i ≠ noise → g.labels.get p ≠ noise ∧ g.labels.get p ≤ g.labels.get i
  seeded : ∀ c : ℕ, c < g.next → ∃ k, core.get k = true ∧ k.val < done ∧ g.labels.get k = c
  ordered : ∀ i j, core.get i = true → core.get j = true → g.labels.get i ≠ noise →
    g.labels.get i < g.labels.get j → ∃ k, core.get k = true ∧ g.labels.get k = g.labels.get i ∧
      ∀ l, core.get l = true → g.labels.get l = g.labels.get j → k < l

theorem grown_empty : Grown near core 0 ⟨Vector.replicate n noise, 0⟩ where
  bounded i := .inl (get_replicate noise i)
  visited _ _ before := absurd before (Nat.not_lt_zero _)
  linked i _ _ _ labelled := absurd (get_replicate noise i) labelled
  bordering p _ labelled := absurd (get_replicate noise p) labelled
  first _ i _ _ _ labelled := absurd (get_replicate noise i) labelled
  seeded _ before := absurd before (Nat.not_lt_zero _)
  ordered i _ _ _ labelled := absurd (get_replicate noise i) labelled

section Step

variable {done : ℕ} {g : Growth n} {seed i j p : Fin n}

/-- The points that the cluster of a seed takes. -/
def cluster (near : Mat Bool n n) (core : Vector Bool n) (g : Growth n) (seed : Fin n) :
    Vector Bool n :=
  flood near core (g.labels.map (· == noise)) n (Vector.ofFn fun j => decide (j = seed))

theorem get_cluster : (cluster near core g seed).get j = true ↔
    Relation.ReflTransGen (Flows near core (g.labels.map (· == noise))) seed j :=
  get_flood_from seed

theorem flows_iff : Flows near core (g.labels.map (· == noise)) i j ↔
    core.get i = true ∧ near.entry i j = true ∧ g.labels.get j = noise := by
  rw [Flows, get_map, beq_iff_eq]

theorem linked_of_cluster (taken : (cluster near core g seed).get j = true)
    (core_j : core.get j = true) : Linked near core seed j := by
  have chain := get_cluster.mp taken
  clear taken
  induction chain with
  | refl => exact .refl
  | tail _ flows ih =>
      obtain ⟨core_i, near_ij, _⟩ := flows_iff.mp flows
      exact .tail (ih core_i) ⟨core_i, core_j, near_ij⟩

theorem free_of_cluster (free : g.labels.get seed = noise)
    (taken : (cluster near core g seed).get j = true) : g.labels.get j = noise := by
  rcases Relation.ReflTransGen.cases_tail (get_cluster.mp taken) with here | ⟨_, _, flows⟩
  · exact here ▸ free
  · exact (flows_iff.mp flows).2.2

/-- A point that is linked to a free core point is free, since clusters are complete. -/
theorem cluster_of_linked (mirrored : ∀ i j, near.entry i j = near.entry j i)
    (grown : Grown near core done g) (core_seed : core.get seed = true)
    (free : g.labels.get seed = noise) (linked : Linked near core seed j) :
    (cluster near core g seed).get j = true := by
  rw [get_cluster]
  induction linked with
  | refl => exact .refl
  | @tail i j chain joined ih =>
      obtain ⟨core_i, core_j, near_ij⟩ := joined
      refine .tail ih (flows_iff.mpr ⟨core_i, near_ij, ?_⟩)
      -- With the cluster of a labelled point the seed would have been taken.
      by_contra labelled
      have back : Linked near core j seed :=
        Linked.symm mirrored (.tail chain ⟨core_i, core_j, near_ij⟩)
      exact labelled (((grown.linked j seed core_j core_seed labelled).mpr back).trans free)

theorem cluster_core_iff (mirrored : ∀ i j, near.entry i j = near.entry j i)
    (grown : Grown near core done g) (core_seed : core.get seed = true)
    (free : g.labels.get seed = noise) (core_j : core.get j = true) :
    (cluster near core g seed).get j = true ↔ Linked near core seed j :=
  ⟨fun taken => linked_of_cluster taken core_j, cluster_of_linked mirrored grown core_seed free⟩

theorem cluster_border_iff (core_seed : core.get seed = true)
    (free : g.labels.get seed = noise) (border : core.get p = false) :
    (cluster near core g seed).get p = true ↔ g.labels.get p = noise ∧
      ∃ i, core.get i = true ∧ near.entry i p = true ∧ (cluster near core g seed).get i = true := by
  constructor
  · intro taken
    refine ⟨free_of_cluster free taken, ?_⟩
    rcases Relation.ReflTransGen.cases_tail (get_cluster.mp taken) with here | ⟨i, chain, flows⟩
    · rw [here, core_seed] at border
      cases border
    · obtain ⟨core_i, near_ip, _⟩ := flows_iff.mp flows
      exact ⟨i, core_i, near_ip, get_cluster.mpr chain⟩
  · rintro ⟨free_p, i, core_i, near_ip, taken_i⟩
    exact get_cluster.mpr (.tail (get_cluster.mp taken_i) (flows_iff.mpr ⟨core_i, near_ip, free_p⟩))

def extended (near : Mat Bool n n) (core : Vector Bool n) (g : Growth n) (seed : Fin n) :
    Growth n :=
  ⟨Vector.ofFn fun j => if (cluster near core g seed).get j then g.next else g.labels.get j,
    g.next + 1⟩

theorem grow_of_free (core_seed : core.get seed = true) (free : g.labels.get seed = noise) :
    grow near core g seed = extended near core g seed := by
  rw [grow, if_pos]
  · rfl
  · rw [Bool.and_eq_true, beq_iff_eq]
    exact ⟨core_seed, free⟩

theorem extended_of_taken (taken : (cluster near core g seed).get j = true) :
    (extended near core g seed).labels.get j = g.next := by
  rw [extended, get_ofFn, if_pos taken]

theorem extended_of_not_taken (other : ¬(cluster near core g seed).get j = true) :
    (extended near core g seed).labels.get j = g.labels.get j := by
  rw [extended, get_ofFn, if_neg other]

theorem label_lt_next (grown : Grown near core done g) (i : Fin n) :
    g.labels.get i < g.next := by
  have below : noise < 0 := by decide
  rcases grown.bounded i with noisy | inside
  · omega
  · exact inside.2

theorem extended_of_labelled (free : g.labels.get seed = noise)
    (labelled : g.labels.get j ≠ noise) :
    (extended near core g seed).labels.get j = g.labels.get j :=
  extended_of_not_taken fun taken => labelled (free_of_cluster free taken)

theorem next_ne_noise : (g.next : Int) ≠ noise := by
  have below : noise < 0 := by decide
  omega

theorem extended_linked (mirrored : ∀ i j, near.entry i j = near.entry j i)
    (grown : Grown near core done g) (core_seed : core.get seed = true)
    (free : g.labels.get seed = noise) (core_i : core.get i = true) (core_j : core.get j = true)
    (labelled : (extended near core g seed).labels.get i ≠ noise) :
    (extended near core g seed).labels.get i = (extended near core g seed).labels.get j ↔
      Linked near core i j := by
  have taken_iff {k : Fin n} (core_k : core.get k = true) :=
    cluster_core_iff mirrored grown core_seed free core_k
  by_cases taken_i : (cluster near core g seed).get i = true
  · rw [extended_of_taken taken_i]
    have to_i : Linked near core seed i := (taken_iff core_i).mp taken_i
    by_cases taken_j : (cluster near core g seed).get j = true
    · rw [extended_of_taken taken_j]
      have to_j : Linked near core seed j := (taken_iff core_j).mp taken_j
      exact iff_of_true rfl ((Linked.symm mirrored to_i).trans to_j)
    · rw [extended_of_not_taken taken_j]
      have below := label_lt_next grown j
      refine iff_of_false (by omega) fun linked => ?_
      exact taken_j ((taken_iff core_j).mpr (to_i.trans linked))
  · rw [extended_of_not_taken taken_i] at labelled ⊢
    by_cases taken_j : (cluster near core g seed).get j = true
    · rw [extended_of_taken taken_j]
      have below := label_lt_next grown i
      refine iff_of_false (by omega) fun linked => ?_
      have to_j : Linked near core seed j := (taken_iff core_j).mp taken_j
      exact taken_i ((taken_iff core_i).mpr (to_j.trans (Linked.symm mirrored linked)))
    · rw [extended_of_not_taken taken_j]
      exact grown.linked i j core_i core_j labelled

theorem extended_first (grown : Grown near core done g)
    (core_seed : core.get seed = true) (free : g.labels.get seed = noise)
    (border : core.get p = false)
    (core_i : core.get i = true) (near_ip : near.entry i p = true)
    (labelled : (extended near core g seed).labels.get i ≠ noise) :
    (extended near core g seed).labels.get p ≠ noise ∧
      (extended near core g seed).labels.get p ≤ (extended near core g seed).labels.get i := by
  by_cases taken_i : (cluster near core g seed).get i = true
  · rw [extended_of_taken taken_i]
    by_cases free_p : g.labels.get p = noise
    · have taken_p : (cluster near core g seed).get p = true :=
        (cluster_border_iff core_seed free border).mpr ⟨free_p, i, core_i, near_ip, taken_i⟩
      rw [extended_of_taken taken_p]
      exact ⟨next_ne_noise, le_rfl⟩
    · rw [extended_of_labelled free free_p]
      exact ⟨free_p, (label_lt_next grown p).le⟩
  · rw [extended_of_not_taken taken_i] at labelled ⊢
    have earlier := grown.first p i border core_i near_ip labelled
    rw [extended_of_labelled free earlier.1]
    exact earlier

/-- The first point of the new cluster comes after the first points of the others, as all core
points before it have their labels. -/
theorem extended_ordered (grown : Grown near core done g)
    (free : g.labels.get seed = noise) (here : done = seed.val) (core_i : core.get i = true)
    (labelled : (extended near core g seed).labels.get i ≠ noise)
    (less : (extended near core g seed).labels.get i < (extended near core g seed).labels.get j)
    (core_j : core.get j = true) :
    ∃ k, core.get k = true ∧
      (extended near core g seed).labels.get k = (extended near core g seed).labels.get i ∧
      ∀ l, core.get l = true →
        (extended near core g seed).labels.get l = (extended near core g seed).labels.get j →
        k < l := by
  have below := label_lt_next grown
  have old_i : ¬(cluster near core g seed).get i = true := by
    intro taken_i
    rw [extended_of_taken taken_i] at less
    by_cases taken_j : (cluster near core g seed).get j = true
    · rw [extended_of_taken taken_j] at less
      exact lt_irrefl _ less
    · rw [extended_of_not_taken taken_j] at less
      exact lt_asymm less (below j)
  rw [extended_of_not_taken old_i] at labelled less ⊢
  by_cases taken_j : (cluster near core g seed).get j = true
  · obtain nowhere | ⟨nonneg, inside⟩ := grown.bounded i
    · exact absurd nowhere labelled
    obtain ⟨k, core_k, before, label_k⟩ := grown.seeded (g.labels.get i).toNat (by omega)
    have same : g.labels.get k = g.labels.get i := by omega
    refine ⟨k, core_k, ?_, ?_⟩
    · rw [extended_of_labelled free (same ▸ labelled), same]
    · intro l core_l label_l
      rw [extended_of_taken taken_j] at label_l
      have free_l : g.labels.get l = noise := by
        by_contra labelled_l
        rw [extended_of_labelled free labelled_l] at label_l
        exact absurd label_l (below l).ne
      have later : ¬l.val < done := fun early => grown.visited l core_l early free_l
      exact Fin.lt_def.mpr (by omega)
  · rw [extended_of_not_taken taken_j] at less ⊢
    obtain ⟨k, core_k, same, least⟩ := grown.ordered i j core_i core_j labelled less
    refine ⟨k, core_k, ?_, ?_⟩
    · rw [extended_of_labelled free (same ▸ labelled), same]
    · intro l core_l label_l
      by_cases taken_l : (cluster near core g seed).get l = true
      · rw [extended_of_taken taken_l] at label_l
        exact absurd label_l (below j).ne'
      · rw [extended_of_not_taken taken_l] at label_l
        exact least l core_l label_l

theorem grown_extended (mirrored : ∀ i j, near.entry i j = near.entry j i)
    (grown : Grown near core done g) (core_seed : core.get seed = true)
    (free : g.labels.get seed = noise) (here : done = seed.val) :
    Grown near core (done + 1) (extended near core g seed) := by
  have seed_taken : (cluster near core g seed).get seed = true := get_cluster.mpr .refl
  constructor
  case bounded =>
    intro i
    by_cases taken : (cluster near core g seed).get i = true
    · rw [extended_of_taken taken]
      exact .inr ⟨Int.natCast_nonneg _, Int.ofNat_lt.mpr (Nat.lt_succ_self _)⟩
    · rw [extended_of_not_taken taken]
      exact (grown.bounded i).imp_right fun inside => ⟨inside.1, Int.lt_add_one_of_le inside.2.le⟩
  case visited =>
    intro i core_i before
    by_cases taken : (cluster near core g seed).get i = true
    · rw [extended_of_taken taken]
      exact next_ne_noise
    · rw [extended_of_not_taken taken]
      have other : i.val ≠ seed.val := fun same => taken (Fin.ext same ▸ seed_taken)
      exact grown.visited i core_i (by omega)
  case linked =>
    intro i j core_i core_j labelled
    exact extended_linked mirrored grown core_seed free core_i core_j labelled
  case bordering =>
    intro p border labelled
    by_cases taken : (cluster near core g seed).get p = true
    · obtain ⟨_, i, core_i, near_ip, taken_i⟩ := (cluster_border_iff core_seed free border).mp taken
      exact ⟨i, core_i, near_ip, by rw [extended_of_taken taken_i, extended_of_taken taken]⟩
    · rw [extended_of_not_taken taken] at labelled ⊢
      obtain ⟨i, core_i, near_ip, same⟩ := grown.bordering p border labelled
      refine ⟨i, core_i, near_ip, ?_⟩
      rw [extended_of_labelled free (same ▸ labelled), same]
  case first =>
    intro p i border core_i near_ip labelled
    exact extended_first grown core_seed free border core_i near_ip labelled
  case seeded =>
    intro c before
    rcases Nat.lt_succ_iff_lt_or_eq.mp before with old | new
    · obtain ⟨k, core_k, early, label_k⟩ := grown.seeded c old
      have below : noise < 0 := by decide
      refine ⟨k, core_k, by omega, ?_⟩
      rw [extended_of_labelled free (by omega), label_k]
    · exact ⟨seed, core_seed, by omega, by rw [extended_of_taken seed_taken, new]⟩
  case ordered =>
    intro i j core_i core_j labelled less
    exact extended_ordered grown free here core_i labelled less core_j

theorem grown_step (mirrored : ∀ i j, near.entry i j = near.entry j i)
    (grown : Grown near core seed.val g) :
    Grown near core (seed.val + 1) (grow near core g seed) := by
  by_cases opens : core.get seed = true ∧ g.labels.get seed = noise
  · rw [grow_of_free opens.1 opens.2]
    exact grown_extended mirrored grown opens.1 opens.2 rfl
  · have unchanged : grow near core g seed = g := by
      rw [grow, if_neg]
      rwa [Bool.and_eq_true, beq_iff_eq]
    rw [unchanged]
    refine { grown with visited := ?_, seeded := ?_ }
    · intro i core_i before
      by_cases here : i = seed
      · subst here
        exact fun free => opens ⟨core_i, free⟩
      · have other : i.val ≠ seed.val := fun same => here (Fin.ext same)
        exact grown.visited i core_i (by omega)
    · intro c inside
      obtain ⟨k, core_k, early, label_k⟩ := grown.seeded c inside
      exact ⟨k, core_k, by omega, label_k⟩

end Step

/-- What holds at first and is kept by every step holds after all of them. -/
theorem foldl_finRange_induction {β : Type} (motive : ℕ → β → Prop) {f : β → Fin n → β} {init : β}
    (start : motive 0 init) (step : ∀ i b, motive i.val b → motive (i.val + 1) (f b i)) :
    motive n ((List.finRange n).foldl f init) := by
  rw [← Fin.foldl_eq_finRange_foldl]
  induction n with
  | zero => exact start
  | succ n ih =>
      rw [Fin.foldl_succ_last]
      exact step (Fin.last n) _ (ih fun i b held => step i.castSucc b held)

theorem grown_foldl (mirrored : ∀ i j, near.entry i j = near.entry j i) :
    Grown near core n ((List.finRange n).foldl (grow near core) ⟨Vector.replicate n noise, 0⟩) :=
  foldl_finRange_induction _ grown_empty fun _ _ grown => grown_step mirrored grown

end Growth

end LocalMetric.Density
