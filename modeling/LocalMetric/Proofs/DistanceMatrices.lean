import LocalMetric.Proofs.Reals
import LocalMetric.Proofs.Distances
import LocalMetric.Proofs.Histories
/-!
# Distance matrices

A distance matrix measures each pair of sites twice, once from either end, and clears its diagonal.
A single distance measures one displacement with both matrices. In exact arithmetic the two agree for
every list of points, whatever the weight matrices are.
-/
namespace LocalMetric

namespace Database

variable {m n : ℕ} {db : Database ℝ}

theorem Site.lengthTo_eq (a b : Site ℝ n) :
    a.lengthTo b = √(a.weights.quadraticForm (difference a.vector b.vector)) :=
  Scalar.sqrt_nonNegative _

/-- The two lengths between a pair of sites, each from its own end, are the two lengths of one
displacement. -/
theorem larger_lengthTo (a b : Site ℝ n) :
    Scalar.largerOrNaN (a.lengthTo b) (b.lengthTo a) =
      weightedDistance a.vector b.vector a.weights b.weights := by
  rw [Scalar.largerOrNaN_eq_max, Site.lengthTo_eq, Site.lengthTo_eq, weightedDistance_eq,
    b.weights.quadraticForm_difference_comm]

theorem entry_pairwise (sites : Vector (Site ℝ n) m) (i j : Fin m) :
    (pairwise sites).entry i j = weightedDistance (sites.get i).vector (sites.get j).vector
      (sites.get i).weights (sites.get j).weights := by
  rw [pairwise, Mat.entry_ofFn]
  split
  · rename_i same
    rw [same, weightedDistance_self]
  · rw [Mat.entry_ofFn, Mat.entry_ofFn, larger_lengthTo]

/-- A distance matrix that is answered has a row and a column for each point of the list, and its
entries are the distances. -/
theorem exists_entries_of_distanceMatrix {ids : List Int} {g : Grid ℝ}
    (answered : db.distanceMatrix ids = .ok g) :
    ∃ a : Mat ℝ ids.length ids.length, g = ⟨ids.length, ids.length, a⟩ ∧
      ∀ i j : Fin ids.length, db.distance ids[i] ids[j] = .ok (a.entry i j) := by
  obtain ⟨sites, rfl, sited⟩ := exists_sites_of_distanceMatrix answered
  refine ⟨pairwise sites, rfl, fun i j => ?_⟩
  rw [entry_pairwise, distance_ok_iff]
  exact ⟨sites.get i, sites.get j, sited i, sited j, rfl⟩

end Database

namespace Session

structure Tabulates (s : Session ℝ) (m : ℕ) (ids : List Int)
    (a : Mat ℝ ids.length ids.length) : Prop where
  entry : ∀ i j : Fin ids.length, (s.distance m ids[i] ids[j]).1 = .ok (a.entry i j)
  symmetric : ∀ i j, a.entry i j = a.entry j i
  nonneg : ∀ i j, 0 ≤ a.entry i j
  diagonal : ∀ i, a.entry i i = 0

theorem tabulates_of_entries {s : Session ℝ} {m d : ℕ} {db : Database ℝ} (bound : s.Bound m d)
    (found : s.databases[d]? = some db) {ids : List Int} {a : Mat ℝ ids.length ids.length}
    (entries : ∀ i j : Fin ids.length, db.distance ids[i] ids[j] = .ok (a.entry i j)) :
    s.Tabulates m ids a := by
  refine ⟨fun i j => ?_, fun i j => ?_, fun i j => ?_, fun i => ?_⟩
  · rw [distance_of_bound bound found, entries i j]
  · obtain ⟨x, y, atI, atJ, here⟩ := Database.distance_ok_iff.mp (entries i j)
    obtain ⟨y', x', atJ', atI', there⟩ := Database.distance_ok_iff.mp (entries j i)
    rw [← here, ← there, atI'.unique atI, atJ'.unique atJ, weightedDistance_comm]
  · obtain ⟨x, y, _, _, here⟩ := Database.distance_ok_iff.mp (entries i j)
    rw [← here]
    exact weightedDistance_nonneg _ _ _ _
  · obtain ⟨x, y, atI, atI', here⟩ := Database.distance_ok_iff.mp (entries i i)
    rw [← here, atI'.unique atI, weightedDistance_self]

/-- A bound distance function answers the matrix of a list exactly if it answers each distance
between points of the list, and then the matrix tabulates these distances. A pair that is refused as
a list is refused for the same reason as a distance. -/
theorem distanceMatrix_tabulates {s : Session ℝ} {m d : ℕ} {db : Database ℝ} (bound : s.Bound m d)
    (found : s.databases[d]? = some db) :
    (∀ ids : List Int, (∃ g, (s.distanceMatrix m (some ids)).1 = .ok g) ↔
      ∀ i j : Fin ids.length, ∃ x, (s.distance m ids[i] ids[j]).1 = .ok x) ∧
    (∀ (ids : List Int) (g : Grid ℝ), (s.distanceMatrix m (some ids)).1 = .ok g →
      ∃ a : Mat ℝ ids.length ids.length, g = ⟨ids.length, ids.length, a⟩ ∧ s.Tabulates m ids a) ∧
    ∀ p q fault, (s.distanceMatrix m (some [p, q])).1 = .error fault →
      (s.distance m p q).1 = .error fault := by
  refine ⟨fun ids => ?_, fun ids g answered => ?_, fun p q fault refused => ?_⟩
  · rw [distanceMatrix_of_bound bound found, Option.getD_some, Database.exists_distanceMatrix_iff]
    simp only [distance_of_bound bound found, Database.exists_distance_iff]
    constructor
    · exact fun every i j => ⟨every _ (List.getElem_mem i.isLt), every _ (List.getElem_mem j.isLt)⟩
    · intro every id member
      obtain ⟨i, inside, rfl⟩ := List.mem_iff_getElem.mp member
      exact (every ⟨i, inside⟩ ⟨i, inside⟩).1
  · rw [distanceMatrix_of_bound bound found, Option.getD_some] at answered
    obtain ⟨a, same, entries⟩ := Database.exists_entries_of_distanceMatrix answered
    exact ⟨a, same, tabulates_of_entries bound found entries⟩
  · rw [distanceMatrix_of_bound bound found, Option.getD_some] at refused
    rw [distance_of_bound bound found]
    exact Database.distanceMatrix_pair_error_iff.mp refused

/-- An outcome on a line that weighs squares by a number of any sign. -/
noncomputable def weighing (weight : ℝ) : Associated ℝ :=
  .localPca ⟨[], ⟨0, 0, #v[]⟩, 1, #v[#v[weight]], 1, 0, by decide, by decide⟩

/-- Two points on a line, one of which weighs squares negatively, and a value without weights. -/
noncomputable def weightedLine : Database ℝ where
  points := .onLine 0 1 (Mat.allFinite_real _)
  associations := Associations.empty.setAll .localPca
    [(7, weighing 4), (9, weighing (-1)), (42, .other .null)]

noncomputable def lineSession : Session ℝ where
  databases := #[weightedLine]
  counters := #[{}]
  metrics := #[⟨⟨"line", ⟨fun s id => s.stacked [id], .null, none⟩, ⟨1, 1, 1, .anchor, 0⟩, .rotations,
    .int 1, rfl⟩, false, 0, some 0⟩]

theorem distanceMatrix_tabulates_line :
    (∃ a : Mat ℝ 3 3, (lineSession.distanceMatrix 0 (some [7, 9, 7])).1 = .ok ⟨3, 3, a⟩ ∧
      lineSession.Tabulates 0 [7, 9, 7] a) ∧
    (lineSession.distanceMatrix 0 (some [42, 9])).1 = .error (.noWeightMatrix 42) ∧
    (lineSession.distance 0 42 9).1 = .error (.noWeightMatrix 42) := by
  have bound : lineSession.Bound 0 0 := ⟨_, rfl, rfl⟩
  have found : lineSession.databases[0]? = some weightedLine := rfl
  obtain ⟨answers, table, refuses⟩ := distanceMatrix_tabulates bound found
  have sited : ∀ id ∈ [(7 : Int), 9, 7], ∃ a, weightedLine.Sited id a := by
    intro id member
    simp only [List.mem_cons, List.not_mem_nil, or_false] at member
    rcases member with rfl | rfl | rfl
    · exact Database.exists_sited (by decide) rfl rfl
    · exact Database.exists_sited (by decide) rfl rfl
    · exact Database.exists_sited (by decide) rfl rfl
  have distances : ∀ i j : Fin 3, ∃ x,
      (lineSession.distance 0 [(7 : Int), 9, 7][i] [(7 : Int), 9, 7][j]).1 = .ok x := by
    intro i j
    rw [distance_of_bound bound found, Database.exists_distance_iff]
    exact ⟨sited _ (List.getElem_mem i.isLt), sited _ (List.getElem_mem j.isLt)⟩
  obtain ⟨g, answered⟩ := (answers [7, 9, 7]).mpr distances
  obtain ⟨a, rfl, tabulates⟩ := table [7, 9, 7] g answered
  exact ⟨⟨a, answered, tabulates⟩, rfl, refuses 42 9 _ rfl⟩

end Session

end LocalMetric
