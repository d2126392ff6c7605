import LocalMetric.Preprocessor
import LocalMetric.Proofs.Checked
import LocalMetric.Proofs.Stores
/-!
# What a run does to a database

A run of a preprocessor is skipped, abandoned or completed. An abandoned run leaves every stored
value as it was; a completed one stores exactly the outcomes of the points that were due. Everything
that is said about runs elsewhere follows from these three cases.
-/
namespace LocalMetric

variable {α : Type} [Scalar α]

/-- What an abandoned run leaves behind: all values, and of the states all but the one that tells
that nothing was completed. -/
structure Database.Abandoned (old new : Database α) : Prop where
  points : new.points = old.points
  values : ∀ kind id, new.associations.find? kind id = old.associations.find? kind id
  states : ∀ kind, kind ≠ .localPca → new.associations.state kind = old.associations.state kind
  unset : new.associations.state .localPca = .unset

/-- What a run leaves behind that computed the given points: their outcomes, and everything else as
it was. -/
structure Database.Completed (p : Preprocessor α) (ids : List Int) (old new : Database α) :
    Prop where
  points : new.points = old.points
  computed : ∀ id ∈ ids, ∃ r, p.compute old.points id = .ok r ∧
    new.associations.find? .localPca id = some (.localPca r)
  kept : ∀ id, id ∉ ids →
    new.associations.find? .localPca id = old.associations.find? .localPca id
  values : ∀ kind, kind ≠ .localPca → ∀ id,
    new.associations.find? kind id = old.associations.find? kind id
  states : ∀ kind, kind ≠ .localPca → new.associations.state kind = old.associations.state kind
  ready : new.associations.state .localPca = .ready

namespace Preprocessor

/-- Whether a run has nothing to do. -/
def Idle (db : Database α) (force : Bool) : Prop :=
  db.associations.state .localPca = .ready ∧ force = false

/-- The three ways in which a run ends, each with its answer and the database that it leaves. -/
inductive Pass (p : Preprocessor α) (db : Database α) (force : Bool) :
    Checked α Nat × Database α → Prop
  | skipped : Idle db force → Pass p db force (.ok 0, db)
  | abandoned {id fault new} : ¬Idle db force → id ∈ pending db force →
      p.compute db.points id = .error fault → db.Abandoned new →
      Pass p db force (.error fault, new)
  | completed {new} : ¬Idle db force → db.Completed p (pending db force) new →
      Pass p db force (.ok (pending db force).length, new)

theorem mem_pending {db : Database α} {force : Bool} {id : Int} :
    id ∈ pending db force ↔
      id ∈ db.ids ∧ (force = true ∨ db.associations.find? .localPca id = none) := by
  cases force with
  | true => simp only [pending, if_true, true_or, and_true]
  | false =>
      simp only [pending, Bool.false_eq_true, if_false, false_or, Associations.mem_missing]

theorem pending_nodup (db : Database α) (force : Bool) : (pending db force).Nodup := by
  have distinct : db.ids.Nodup := db.points.ids_nodup
  unfold pending
  split
  · exact distinct
  · exact distinct.filter _

theorem idle_iff {db : Database α} {force : Bool} :
    Idle db force ↔ (db.associations.isReady .localPca && !force) = true := by
  rw [Bool.and_eq_true, Associations.isReady_iff, Bool.not_eq_true', Idle]

theorem abandoned_of_started (db : Database α) :
    db.Abandoned { db with
      associations := (db.associations.setState .localPca .computing).setState .localPca .unset } where
  points := rfl
  values kind id := rfl
  states kind other := by
    rw [Associations.state_setState_of_ne _ other, Associations.state_setState_of_ne _ other]
  unset := Associations.state_setState_self _ _ _

theorem completed_of_outcomes (p : Preprocessor α) (db : Database α) {ids : List Int}
    {outcomes : List (LocalPca α)} (distinct : ids.Nodup)
    (answers : List.Forall₂ (fun id r => p.compute db.points id = .ok r) ids outcomes) :
    db.Completed p ids { db with
      associations := ((db.associations.setState .localPca .computing).setAll .localPca
        (ids.zip (outcomes.map .localPca))).setState .localPca .ready } := by
  have firsts : (ids.zip (outcomes.map Associated.localPca)).map Prod.fst = ids := by
    apply List.map_fst_zip
    rw [List.length_map]
    exact Nat.le_of_eq answers.length_eq
  refine ⟨rfl, ?_, ?_, ?_, ?_, ?_⟩
  · intro id member
    obtain ⟨r, paired, answer⟩ := Checked.exists_mem_zip answers member
    refine ⟨r, answer, ?_⟩
    rw [Associations.find?_setState]
    apply Associations.find?_setAll_of_mem
    · rwa [firsts]
    · rw [List.zip_map_right]
      exact List.mem_map_of_mem paired
  · intro id absent
    rw [Associations.find?_setState, Associations.find?_setAll_of_not_mem _ _ (by rwa [firsts]),
      Associations.find?_setState]
  · intro kind other id
    rw [Associations.find?_setState, Associations.find?_setAll_of_kind_ne _ other,
      Associations.find?_setState]
  · intro kind other
    rw [Associations.state_setState_of_ne _ other, Associations.state_setAll,
      Associations.state_setState_of_ne _ other]
  · exact Associations.state_setState_self _ _ _

/-- Every run is one of the three. -/
theorem run_pass (p : Preprocessor α) (db : Database α) (force : Bool) :
    Pass p db force (p.run db force) := by
  unfold run
  split
  · exact .skipped (idle_iff.mpr ‹_›)
  · have due : ¬Idle db force := fun idle => ‹¬_› (idle_iff.mp idle)
    simp only
    split
    · rename_i fault refused
      obtain ⟨id, member, failed⟩ := Checked.exists_of_mapM_error refused
      exact .abandoned due member failed (abandoned_of_started db)
    · rename_i outcomes answered
      exact .completed due (completed_of_outcomes p db (pending_nodup db force)
        (Checked.mapM_ok_iff.mp answered))

/-- A point that a completed run did not compute had an outcome when the run began. -/
theorem has_of_completed {p : Preprocessor α} {db new : Database α} {force : Bool}
    (left : db.Completed p (pending db force) new) {id : Int} (member : id ∈ db.ids) :
    new.associations.has .localPca id = true := by
  rw [Associations.has_iff_find?]
  by_cases due : id ∈ pending db force
  · obtain ⟨r, _, stored⟩ := left.computed id due
    exact ⟨_, stored⟩
  · rw [left.kept id due]
    rw [mem_pending, not_and, not_or] at due
    exact Option.ne_none_iff_exists'.mp (due member).2

theorem run_points (p : Preprocessor α) (db : Database α) (force : Bool) :
    (p.run db force).2.points = db.points := by
  have pass := run_pass p db force
  generalize p.run db force = result at pass
  cases pass with
  | skipped => rfl
  | abandoned _ _ _ left => exact left.points
  | completed _ left => exact left.points

/-- A run ends with all outcomes there or with none of its own; nothing is being computed then. -/
theorem run_state (p : Preprocessor α) (db : Database α) (force : Bool) :
    (p.run db force).2.associations.state .localPca = .ready ∨
      (p.run db force).2.associations.state .localPca = .unset := by
  have pass := run_pass p db force
  generalize p.run db force = result at pass
  cases pass with
  | skipped idle => exact .inl idle.1
  | abandoned _ _ _ left => exact .inr left.unset
  | completed _ left => exact .inl left.ready

/-- One refused computation refuses the whole run. -/
theorem exists_run_error {p : Preprocessor α} {db : Database α} {force : Bool} {id : Int}
    {fault : Fault α} (due : ¬Idle db force) (member : id ∈ pending db force)
    (refused : p.compute db.points id = .error fault) :
    ∃ first, (p.run db force).1 = .error first := by
  obtain ⟨first, abandoned⟩ := Checked.exists_mapM_error member refused
  refine ⟨first, ?_⟩
  rw [run, if_neg fun idle => due (idle_iff.mpr idle)]
  simp only [abandoned]

/-- A preprocessor that finds no neighborhood of one point and a neighborhood of one point for any
other. -/
def refusing (bad : Int) : Preprocessor Float where
  name := standardName
  provider :=
    { points := fun s id => if id = bad then .error .emptyNeighborhood else s.stacked [id]
      description := .null }
  config := ⟨0.85, 1, 100, .centroid, 1e-10⟩
  solver := .rotations
  workers := .int 1
  workers_nonzero := rfl

end Preprocessor

def PointSet.onLine (x y : α) (finite : Mat.allFinite (#v[#v[x], #v[y]] : Mat α 2 1) = true) :
    PointSet α where
  size := 2
  dim := 1
  vectors := #v[#v[x], #v[y]]
  ids := #v[7, 9]
  nonempty := by decide
  ids_nodup := by decide
  vectors_finite := finite

def PointSet.pair : PointSet Float := .onLine 0.0 1.0 (by decide +kernel)

end LocalMetric
