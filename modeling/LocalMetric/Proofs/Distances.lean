import LocalMetric.Database
import LocalMetric.Proofs.Checked
import LocalMetric.Proofs.Stores
/-!
# When a database answers a distance

A point takes part in distances if it has a vector and an outcome whose weight matrix fits: it is a
site then. Single distances and distance matrices are answered exactly for sites, and the answers
depend on nothing but the points and the outcomes stored for them.
-/
namespace LocalMetric

variable {α : Type} [Scalar α]

namespace PointSet

theorem get_mem_ids (s : PointSet α) (i : Fin s.size) : s.ids.get i ∈ s.ids.toList :=
  Vector.mem_toList_iff.mpr (Vector.getElem_mem i.isLt)

theorem row_get (s : PointSet α) (i : Fin s.size) : s.row (s.ids.get i) = .ok i := by
  have found : s.rowOf? (s.ids.get i) = some i := by
    have first : s.ids.toArray.finIdxOf? (s.ids.get i) = some (i.cast s.ids.size_toArray.symm) := by
      refine Array.finIdxOf?_eq_some_iff.mpr ⟨rfl, fun j before same => ?_⟩
      have bound : j.val < s.size := lt_of_lt_of_eq j.isLt s.ids.size_toArray
      have apart := List.pairwise_iff_getElem.mp s.ids_nodup j i (by simpa) (by simp) before
      exact apart same
    rw [rowOf?, Vector.finIdxOf?, first]
    rfl
  rw [row, found]

theorem vector_get (s : PointSet α) (i : Fin s.size) :
    s.vector (s.ids.get i) = .ok (s.vectors.get i) := by
  rw [vector, row_get]
  rfl

/-- The ids of the rows are the ids of the points. -/
theorem exists_get_eq {s : PointSet α} {id : Int} (member : id ∈ s.ids.toList) :
    ∃ i, s.ids.get i = id := by
  obtain ⟨i, inside, here⟩ := Vector.mem_iff_getElem.mp (Vector.mem_toList_iff.mp member)
  exact ⟨⟨i, inside⟩, here⟩

/-- Every point of a set has a vector. -/
theorem exists_vector {s : PointSet α} {id : Int} (member : id ∈ s.ids.toList) :
    ∃ x, s.vector id = .ok x := by
  obtain ⟨i, rfl⟩ := exists_get_eq member
  exact ⟨_, s.vector_get i⟩

end PointSet

namespace Database

variable {db : Database α}

/-- The outcome of a point is what is stored for it, if that is the outcome of an analysis. -/
theorem outcome_of_find? {id : Int} {r : LocalPca α}
    (stored : db.associations.find? .localPca id = some (.localPca r)) : db.outcome id = .ok r := by
  rw [outcome, Associations.get, stored]
  rfl

/-- The point with an id as distances see it. -/
structure Sited (db : Database α) (id : Int) (a : Site α db.points.dim) : Prop where
  weights : ∃ r, db.outcome id = .ok r ∧ fitted db.points.dim r = .ok a.weights
  vector : db.points.vector id = .ok a.vector

/-- A point of the database is a site if an outcome that fits is stored for it. -/
theorem exists_sited {id : Int} {r : LocalPca α} {w : Mat α db.points.dim db.points.dim}
    (member : id ∈ db.ids) (outcome : db.outcome id = .ok r)
    (fits : fitted db.points.dim r = .ok w) : ∃ a, db.Sited id a := by
  obtain ⟨x, vector⟩ := PointSet.exists_vector member
  exact ⟨⟨x, w⟩, ⟨r, outcome, fits⟩, vector⟩

theorem Sited.unique {id : Int} {a b : Site α db.points.dim} (ha : db.Sited id a)
    (hb : db.Sited id b) : a = b := by
  obtain ⟨r, outcomeA, weightsA⟩ := ha.weights
  obtain ⟨r', outcomeB, weightsB⟩ := hb.weights
  obtain rfl : r = r' := Except.ok.inj (outcomeA.symm.trans outcomeB)
  have sameWeights := Except.ok.inj (weightsA.symm.trans weightsB)
  have sameVector := Except.ok.inj (ha.vector.symm.trans hb.vector)
  cases a
  cases b
  simp only at sameWeights sameVector
  rw [sameWeights, sameVector]

/-- A distance is answered exactly for two sites. -/
theorem distance_ok_iff {p q : Int} {x : α} :
    db.distance p q = .ok x ↔ ∃ a b, db.Sited p a ∧ db.Sited q b ∧
      weightedDistance a.vector b.vector a.weights b.weights = x := by
  simp only [distance, Checked.bind_ok_iff, Checked.pure_ok_iff]
  constructor
  · rintro ⟨r, hr, r', hr', x, hx, y, hy, w, hw, w', hw', rfl⟩
    exact ⟨⟨x, w⟩, ⟨y, w'⟩, ⟨⟨r, hr, hw⟩, hx⟩, ⟨⟨r', hr', hw'⟩, hy⟩, rfl⟩
  · rintro ⟨a, b, ⟨⟨r, hr, hw⟩, hx⟩, ⟨⟨r', hr', hw'⟩, hy⟩, rfl⟩
    exact ⟨r, hr, r', hr', _, hx, _, hy, _, hw, _, hw', rfl⟩

/-- The weight matrix that is stored for a point fits the points of a set. -/
def Weighs (db : Database α) (s : PointSet α) (id : Int) (w : Mat α s.dim s.dim) : Prop :=
  ∃ r, db.outcome id = .ok r ∧ fitted s.dim r = .ok w

theorem distance_of_weighs {s : PointSet α} (points : db.points = s) {p q : Int}
    {w w' : Mat α s.dim s.dim} {x y : Vector α s.dim} (weighs : db.Weighs s p w)
    (weighs' : db.Weighs s q w') (vector : s.vector p = .ok x) (vector' : s.vector q = .ok y) :
    db.distance p q = .ok (weightedDistance x y w w') := by
  subst points
  exact distance_ok_iff.mpr ⟨⟨x, w⟩, ⟨y, w'⟩, ⟨weighs, vector⟩, ⟨weighs', vector'⟩, rfl⟩

def matrixOf {n : Nat} (sites : List (Site α n)) : Grid α :=
  ⟨sites.length, sites.length, pairwise ⟨sites.toArray, by simp⟩⟩

theorem forall₂_sited_iff {ids : List Int} {sites : List (Site α db.points.dim)} :
    List.Forall₂ db.Sited ids sites ↔ ∃ outcomes vectors weights,
      List.Forall₂ (fun id r => db.outcome id = .ok r) ids outcomes ∧
      List.Forall₂ (fun id x => db.points.vector id = .ok x) ids vectors ∧
      List.Forall₂ (fun r w => fitted db.points.dim r = .ok w) outcomes weights ∧
      List.zipWith Site.mk vectors weights = sites := by
  constructor
  · intro sited
    induction sited with
    | nil => exact ⟨[], [], [], .nil, .nil, .nil, rfl⟩
    | @cons id a ids sites here _ ih =>
        obtain ⟨outcomes, vectors, weights, ho, hv, hw, rfl⟩ := ih
        obtain ⟨r, outcome, fits⟩ := here.weights
        exact ⟨r :: outcomes, a.vector :: vectors, a.weights :: weights, .cons outcome ho,
          .cons here.vector hv, .cons fits hw, rfl⟩
  · rintro ⟨outcomes, vectors, weights, ho, hv, hw, rfl⟩
    induction ids generalizing outcomes vectors weights with
    | nil =>
        cases ho
        cases hv
        cases hw
        exact .nil
    | cons id ids ih =>
        cases ho with
        | cons outcome ho =>
            cases hv with
            | cons vector hv =>
                cases hw with
                | cons fits hw =>
                    exact .cons ⟨⟨_, outcome, fits⟩, vector⟩ (ih _ _ _ ho hv hw)

/-- A distance matrix is answered exactly for a list of sites. -/
theorem distanceMatrix_ok_iff {ids : List Int} {g : Grid α} :
    db.distanceMatrix ids = .ok g ↔ ∃ sites, List.Forall₂ db.Sited ids sites ∧
      matrixOf sites = g := by
  simp only [distanceMatrix, PointSet.rows, Checked.bind_ok_iff, Checked.pure_ok_iff,
    Checked.mapM_ok_iff, forall₂_sited_iff]
  constructor
  · rintro ⟨outcomes, ho, vectors, hv, weights, hw, rfl⟩
    exact ⟨_, ⟨outcomes, vectors, weights, ho, hv, hw, rfl⟩, rfl⟩
  · rintro ⟨sites, ⟨outcomes, vectors, weights, ho, hv, hw, rfl⟩, rfl⟩
    exact ⟨outcomes, ho, vectors, hv, weights, hw, rfl⟩

/-- A list of sites as a vector of its length. -/
theorem matrixOf_eq {m n : ℕ} {sites : List (Site α n)} (length : sites.length = m) :
    matrixOf sites = ⟨m, m, pairwise ⟨sites.toArray, by simpa using length⟩⟩ := by
  subst length
  rfl

theorem exists_distance_iff {p q : Int} :
    (∃ x, db.distance p q = .ok x) ↔ (∃ a, db.Sited p a) ∧ ∃ b, db.Sited q b := by
  simp only [distance_ok_iff]
  constructor
  · rintro ⟨_, a, b, atP, atQ, _⟩
    exact ⟨⟨a, atP⟩, b, atQ⟩
  · rintro ⟨⟨a, atP⟩, b, atQ⟩
    exact ⟨_, a, b, atP, atQ, rfl⟩

theorem exists_distanceMatrix_iff {ids : List Int} :
    (∃ g, db.distanceMatrix ids = .ok g) ↔ ∀ id ∈ ids, ∃ a, db.Sited id a := by
  simp only [distanceMatrix_ok_iff]
  constructor
  · rintro ⟨_, sites, sited, _⟩ id member
    obtain ⟨a, _, here⟩ := Checked.exists_mem_zip sited member
    exact ⟨a, here⟩
  · intro every
    obtain ⟨sites, sited⟩ := Checked.exists_forall₂_of_forall every
    exact ⟨_, sites, sited, rfl⟩

/-- A distance matrix that is answered measures the site of each point of the list. -/
theorem exists_sites_of_distanceMatrix {ids : List Int} {g : Grid α}
    (answered : db.distanceMatrix ids = .ok g) :
    ∃ sites : Vector (Site α db.points.dim) ids.length,
      g = ⟨ids.length, ids.length, pairwise sites⟩ ∧ ∀ i, db.Sited (ids.get i) (sites.get i) := by
  obtain ⟨sites, sited, rfl⟩ := distanceMatrix_ok_iff.mp answered
  refine ⟨_, matrixOf_eq sited.length_eq.symm, fun i => ?_⟩
  exact sited.get i.isLt (sited.length_eq ▸ i.isLt)

/-- A pair of points is refused as a list for the same reason as a distance. -/
theorem distanceMatrix_pair_error_iff {p q : Int} {fault : Fault α} :
    db.distanceMatrix [p, q] = .error fault ↔ db.distance p q = .error fault := by
  apply Checked.error_iff_of_map_eq
  simp only [distanceMatrix, distance, PointSet.rows, List.mapM_cons, List.mapM_nil]
  cases db.outcome p with
  | error first => rfl
  | ok r =>
  cases db.outcome q with
  | error first => rfl
  | ok r' =>
  cases db.points.vector p with
  | error first => rfl
  | ok x =>
  cases db.points.vector q with
  | error first => rfl
  | ok y =>
  change Except.map _ (List.mapM (fitted db.points.dim) [r, r'] >>= _) =
    Except.map _ (fitted db.points.dim r >>= fun _ => fitted db.points.dim r' >>= _)
  rw [List.mapM_cons, List.mapM_cons, List.mapM_nil]
  cases fitted db.points.dim r with
  | error first => rfl
  | ok w =>
  cases fitted db.points.dim r' with
  | error first => rfl
  | ok w' => rfl

section Missing

variable {kind : String} {other : Int}

/-- A missing outcome is reported only for a point that has none. -/
theorem find?_of_outcome_error {id : Int}
    (refused : db.outcome id = .error (.missingAssociation kind other)) :
    db.associations.find? .localPca id = none := by
  rw [outcome, Checked.bind_error_iff] at refused
  rcases refused with absent | ⟨value, _, unfit⟩
  · unfold Associations.get at absent
    split at absent
    · cases absent
    · assumption
  · split at unfit <;> cases unfit

theorem vector_ne_missing (s : PointSet α) (id : Int) :
    s.vector id ≠ .error (.missingAssociation kind other) := by
  unfold PointSet.vector PointSet.row
  split <;> exact fun refused => nomatch refused

omit [Scalar α] in
theorem fitted_ne_missing (n : Nat) (r : LocalPca α) :
    fitted n r ≠ .error (.missingAssociation kind other) := by
  unfold fitted
  split <;> exact fun refused => nomatch refused

theorem find?_of_distance_error {p q : Int}
    (refused : db.distance p q = .error (.missingAssociation kind other)) :
    ∃ id ∈ [p, q], db.associations.find? .localPca id = none := by
  simp only [distance, Checked.bind_error_iff] at refused
  rcases refused with atP | ⟨_, _, atQ | ⟨_, _, atX | ⟨_, _, atY | ⟨_, _, atW | ⟨_, _, atW' |
    ⟨_, _, last⟩⟩⟩⟩⟩⟩
  · exact ⟨p, by simp, find?_of_outcome_error atP⟩
  · exact ⟨q, by simp, find?_of_outcome_error atQ⟩
  · exact absurd atX (vector_ne_missing _ _)
  · exact absurd atY (vector_ne_missing _ _)
  · exact absurd atW (fitted_ne_missing _ _)
  · exact absurd atW' (fitted_ne_missing _ _)
  · cases last

theorem find?_of_distanceMatrix_error {ids : List Int}
    (refused : db.distanceMatrix ids = .error (.missingAssociation kind other)) :
    ∃ id ∈ ids, db.associations.find? .localPca id = none := by
  simp only [distanceMatrix, PointSet.rows, Checked.bind_error_iff] at refused
  rcases refused with outcomes | ⟨_, _, vectors | ⟨_, _, weights | ⟨_, _, last⟩⟩⟩
  · obtain ⟨id, member, here⟩ := Checked.exists_of_mapM_error outcomes
    exact ⟨id, member, find?_of_outcome_error here⟩
  · obtain ⟨id, _, here⟩ := Checked.exists_of_mapM_error vectors
    exact absurd here (vector_ne_missing _ _)
  · obtain ⟨r, _, here⟩ := Checked.exists_of_mapM_error weights
    exact absurd here (fitted_ne_missing _ _)
  · cases last

end Missing

section Congruence

variable {old new : Database α}

theorem outcome_congr (values : ∀ id, new.associations.find? .localPca id =
    old.associations.find? .localPca id) (id : Int) : new.outcome id = old.outcome id := by
  simp only [outcome, Associations.get, values]

/-- Distances depend on nothing but the points and the outcomes stored for them. -/
theorem distance_congr (points : new.points = old.points)
    (values : ∀ id, new.associations.find? .localPca id = old.associations.find? .localPca id)
    (p q : Int) : new.distance p q = old.distance p q := by
  have outcomes := outcome_congr values
  obtain ⟨newPoints, newAssociations⟩ := new
  cases points
  simp only [distance, outcomes]

theorem distanceMatrix_congr (points : new.points = old.points)
    (values : ∀ id, new.associations.find? .localPca id = old.associations.find? .localPca id)
    (ids : List Int) : new.distanceMatrix ids = old.distanceMatrix ids := by
  have outcomes : new.outcome = old.outcome := funext (outcome_congr values)
  obtain ⟨newPoints, newAssociations⟩ := new
  cases points
  simp only [distanceMatrix, outcomes]

end Congruence

end Database

end LocalMetric
