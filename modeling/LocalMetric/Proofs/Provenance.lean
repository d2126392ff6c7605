import LocalMetric.Proofs.Histories
/-!
# Where outcomes come from

In a history in which only runs store outcomes, the outcomes of a database are never a mixture:
there are none, or all of them were computed by the preprocessor that computed last.
-/
namespace LocalMetric

variable {α : Type} [Scalar α]

/-- Either no point has an outcome, or each one has the outcome that the given preprocessor
computes. -/
def Database.Uniform (db : Database α) (source : Option (Preprocessor α)) : Prop :=
  (∀ id ∈ db.ids, db.associations.find? .localPca id = none) ∨
    ∃ p, source = some p ∧ ∀ id ∈ db.ids, ∃ r, p.compute db.points id = .ok r ∧
      db.associations.find? .localPca id = some (.localPca r)

namespace Session

/-- The preprocessor that an operation runs on a database, if the run succeeds and computes at least
one point. -/
def computedBy (s : Session α) (d : Nat) (e : Event α) : Option (Preprocessor α) :=
  match s.runOn d e, s.databases[d]? with
  | some (p, force), some db =>
    match (p.run db force).1 with
    | .ok count => if 0 < count then some p else none
    | .error _ => none
  | _, _ => none

/-- The preprocessor of the last successful run on a database that computed at least one point. -/
def lastComputedBy (s : Session α) (d : Nat) (last : Option (Preprocessor α)) :
    List (Event α) → Option (Preprocessor α)
  | [] => last
  | e :: rest => (s.after e).lastComputedBy d ((s.computedBy d e).or last) rest

theorem computedBy_of_idle {s : Session α} {d : Nat} {e : Event α} (idle : s.runOn d e = none) :
    s.computedBy d e = none := by
  rw [computedBy, idle]

theorem runOn_of_storesIn {s : Session α} {d : Nat} {e : Event α} {kind : Kind}
    (stores : e.storesIn d = some kind) : s.runOn d e = none := by
  cases e with
  | associate => rfl
  | store => rfl
  | _ => cases stores

end Session

namespace Database

variable {db new : Database α} {source : Option (Preprocessor α)}

/-- The outcomes have changed in nothing that counts. -/
theorem Uniform.congr (uniform : db.Uniform source) (points : new.points = db.points)
    (values : ∀ id ∈ db.ids,
      new.associations.find? .localPca id = db.associations.find? .localPca id) :
    new.Uniform source := by
  have sameIds : new.ids = db.ids := by rw [ids, points, ids]
  rcases uniform with absent | ⟨p, same, stored⟩
  · refine .inl fun id member => ?_
    rw [sameIds] at member
    rw [values id member, absent id member]
  · refine .inr ⟨p, same, fun id member => ?_⟩
    rw [sameIds] at member
    rw [points, values id member]
    exact stored id member

/-- A database whose outcomes are uniform lacks all or none of them, so a run is due for all points
or for none. -/
theorem Uniform.pending_eq (uniform : db.Uniform source) (force : Bool) :
    Preprocessor.pending db force = db.ids ∨ Preprocessor.pending db force = [] := by
  cases force with
  | true => exact .inl rfl
  | false =>
      rcases uniform with absent | ⟨p, _, stored⟩
      · refine .inl (List.filter_eq_self.mpr fun id member => ?_)
        rw [Associations.has, absent id member]
        rfl
      · refine .inr (List.filter_eq_nil_iff.mpr fun id member => ?_)
        obtain ⟨r, _, present⟩ := stored id member
        rw [Associations.has, present]
        simp only [Option.isSome_some, Bool.not_true, Bool.false_eq_true, not_false_eq_true]

theorem ids_length_pos (db : Database α) : 0 < db.ids.length := by
  rw [ids, Vector.length_toList]
  exact db.points.nonempty.1

/-- What a run makes of uniform outcomes, and whose they are then. -/
theorem Uniform.of_run (uniform : db.Uniform source) (p : Preprocessor α) (force : Bool) :
    (p.run db force).2.Uniform ((match (p.run db force).1 with
      | .ok count => if 0 < count then some p else none
      | .error _ => none).or source) := by
  have pass := p.run_pass db force
  generalize p.run db force = result at pass
  cases pass with
  | skipped => exact uniform
  | abandoned _ _ _ left => exact uniform.congr left.points fun id _ => left.values .localPca id
  | completed _ left =>
      rcases uniform.pending_eq force with all | nothing
      · rw [all] at left ⊢
        refine .inr ⟨p, ?_, fun id member => ?_⟩
        · simp only [db.ids_length_pos, if_true, Option.some_or]
        · rw [ids, left.points] at member
          rw [left.points]
          exact left.computed id member
      · rw [nothing] at left ⊢
        exact uniform.congr left.points fun id _ => left.kept id List.not_mem_nil

/-- No operation mixes outcomes of different origin. -/
theorem Uniform.step {s : Session α} {d : Nat} {e : Session.Event α}
    (found : s.databases[d]? = some db) (foreign : e.storesIn d ≠ some .localPca)
    (uniform : db.Uniform source) (changed : Session.Change s d db e new) :
    new.Uniform ((s.computedBy d e).or source) := by
  cases changed with
  | ran run =>
      rw [Session.computedBy, run, found]
      exact uniform.of_run _ _
  | @stored e kind id value stores =>
      have other : Kind.localPca ≠ kind := fun same => foreign (same ▸ stores)
      rw [Session.computedBy_of_idle (Session.runOn_of_storesIn stores)]
      exact uniform.congr rfl fun _ _ => Associations.find?_set_of_kind_ne _ other _ _ _
  | cleared kind =>
      rw [Session.computedBy_of_idle rfl]
      by_cases same : Kind.localPca = kind
      · subst same
        exact .inl fun id _ => Associations.find?_clear_self _ _ _
      · exact uniform.congr rfl fun _ _ => Associations.find?_clear_of_ne _ same _
  | marked kind state =>
      rw [Session.computedBy_of_idle rfl]
      exact uniform.congr rfl fun _ _ => rfl
  | kept idle =>
      rw [Session.computedBy_of_idle idle]
      exact uniform

end Database

namespace Session

/-- In every history that stores no outcomes other than by runs, the points of a database that had
none before have none or all of them have the outcome computed by one preprocessor, the one of the
last successful run that computed at least one point. -/
theorem uniform_after_replay (start : Session α) {d : Nat} {db : Database α}
    (events : List (Event α)) (found : start.databases[d]? = some db)
    (absent : ∀ id ∈ db.ids, db.associations.find? .localPca id = none)
    (foreign : ∀ e ∈ events, e.storesIn d ≠ some .localPca) :
    ∃ new, (start.replay events).databases[d]? = some new ∧ new.points = db.points ∧
      new.Uniform (start.lastComputedBy d none events) := by
  -- The source is any, since each run that computes replaces it.
  suffices general : ∀ source, db.Uniform source → ∃ new,
      (start.replay events).databases[d]? = some new ∧ new.points = db.points ∧
        new.Uniform (start.lastComputedBy d source events) from general none (.inl absent)
  clear absent
  induction events generalizing start db with
  | nil => exact fun source uniform => ⟨db, found, rfl, uniform⟩
  | cons e rest ih =>
      intro source uniform
      obtain ⟨next, there, changed⟩ := change_after found e
      have step := uniform.step found (foreign e List.mem_cons_self) changed
      obtain ⟨new, final, samePoints, kept⟩ := ih (start.after e) there
        (fun x member => foreign x (List.mem_cons_of_mem e member)) _ step
      exact ⟨new, final, samePoints.trans changed.points, kept⟩

def barePair : Session Float where
  databases := #[{ points := .pair }]
  metrics := #[⟨.refusing 9, true, 0, none⟩]

/-- A false promise, a run that keeps it, one that computes, a refused binding, a run that finds
nothing left to do, and another start. -/
def mixedHistory : List (Event Float) := [
  .setState 0 .localPca .ready, .run (.refusing 3) 0 false, .run (.refusing 3) 0 true, .bind 0 0,
  .store 0 ⟨"note"⟩ 7 (.other .null), .run (.refusing 4) 0 false, .clear 0 .localPca,
  .run (.refusing 4) 0 false]

theorem uniform_after_replay_mixed :
    ∃ new, (barePair.replay mixedHistory).databases[0]? = some new ∧ new.points = .pair ∧
      new.Uniform (barePair.lastComputedBy 0 none mixedHistory) := by
  have found : barePair.databases[0]? = some { points := .pair } := rfl
  exact uniform_after_replay barePair mixedHistory found (fun _ _ => rfl) (by decide)

end Session

end LocalMetric
