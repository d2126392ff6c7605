import LocalMetric.Proofs.Distances
import LocalMetric.Proofs.Histories
/-!
# What readiness promises

Readiness is kept apart from the outcomes that it vouches for. Nevertheless, in every history in
which only runs declare the outcomes of a database ready, they are all there when it is ready, so no
distance misses one; and after each run nothing is being computed any more.
-/
namespace LocalMetric

variable {α : Type} [Scalar α]

/-- If the outcomes of a database are ready, none of its points is without one. -/
def Database.Covered (db : Database α) : Prop :=
  db.associations.state .localPca = .ready → ∀ id ∈ db.ids, db.associations.has .localPca id = true

/-- Nothing is being computed: the outcomes are ready or there is no promise about them. -/
def Database.Settled (db : Database α) : Prop :=
  db.associations.state .localPca = .ready ∨ db.associations.state .localPca = .unset

/-- An operation that does not declare the outcomes of a database ready by itself. -/
def Session.Event.LeavesReadiness (d : Nat) : Event α → Prop
  | .setState database kind state => database = d → kind = .localPca → state ≠ .ready
  | _ => True

namespace Database

variable {db new : Database α}

theorem Covered.of_run (covered : db.Covered) (p : Preprocessor α) (force : Bool) :
    (p.run db force).2.Covered := by
  have pass := p.run_pass db force
  generalize p.run db force = result at pass
  cases pass with
  | skipped => exact covered
  | abandoned _ _ _ left =>
      intro ready
      rw [left.unset] at ready
      cases ready
  | completed _ left =>
      intro _ id member
      rw [ids, left.points] at member
      exact Preprocessor.has_of_completed left member

theorem Covered.of_set (covered : db.Covered) (kind : Kind) (id : Int) (value : Associated α) :
    Covered { db with associations := db.associations.set kind id value } := by
  intro ready point member
  exact Associations.has_set _ (covered ready point member) value

theorem Covered.of_clear (covered : db.Covered) (kind : Kind) :
    Covered { db with associations := db.associations.clear kind } := by
  intro ready point member
  by_cases same : Kind.localPca = kind
  · subst same
    rw [Associations.state_clear_self] at ready
    cases ready
  · rw [Associations.state_clear_of_ne _ same] at ready
    rw [Associations.has, Associations.find?_clear_of_ne _ same]
    exact covered ready point member

theorem Covered.of_setState (covered : db.Covered) {kind : Kind} {state : Readiness}
    (honest : kind = .localPca → state ≠ .ready) :
    Covered { db with associations := db.associations.setState kind state } := by
  intro ready point member
  by_cases same : Kind.localPca = kind
  · subst same
    rw [Associations.state_setState_self] at ready
    exact absurd ready (honest rfl)
  · rw [Associations.state_setState_of_ne _ same] at ready
    exact covered ready point member

/-- No operation breaks the promise. -/
theorem Covered.step {s : Session α} {d : Nat} {e : Session.Event α} (honest : e.LeavesReadiness d)
    (covered : db.Covered) (changed : Session.Change s d db e new) : new.Covered := by
  cases changed with
  | ran => exact covered.of_run _ _
  | stored id value => exact covered.of_set _ id value
  | cleared kind => exact covered.of_clear kind
  | marked kind state => exact covered.of_setState (honest rfl)
  | kept => exact covered

theorem Covered.distance_ne_missing (covered : db.Covered)
    (ready : db.associations.state .localPca = .ready) {p q : Int} (memberP : p ∈ db.ids)
    (memberQ : q ∈ db.ids) (kind : String) (id : Int) :
    db.distance p q ≠ .error (.missingAssociation kind id) := by
  intro refused
  obtain ⟨point, member, absent⟩ := find?_of_distance_error refused
  have known : point ∈ db.ids := by
    rcases List.mem_pair.mp member with rfl | rfl
    · exact memberP
    · exact memberQ
  have stored := covered ready point known
  rw [Associations.has, absent] at stored
  cases stored

theorem Covered.distanceMatrix_ne_missing (covered : db.Covered)
    (ready : db.associations.state .localPca = .ready) (kind : String) (id : Int) :
    db.distanceMatrix db.ids ≠ .error (.missingAssociation kind id) := by
  intro refused
  obtain ⟨point, member, absent⟩ := find?_of_distanceMatrix_error refused
  have stored := covered ready point member
  rw [Associations.has, absent] at stored
  cases stored

end Database

namespace Session

/-- What the operations of a session may expect of a database: no distance misses an outcome once
they are ready, and a run or a binding, answered or refused, leaves nothing being computed. -/
structure Reliable (s : Session α) (d : Nat) (db : Database α) : Prop where
  covered : db.associations.isReady .localPca = true →
    ∀ id ∈ db.ids, db.associations.has .localPca id = true
  distances : db.associations.isReady .localPca = true → ∀ m, s.Bound m d →
    ∀ p ∈ db.ids, ∀ q ∈ db.ids, ∀ kind id,
      (s.distance m p q).1 ≠ .error (.missingAssociation kind id)
  matrices : db.associations.isReady .localPca = true → ∀ m, s.Bound m d → ∀ kind id,
    (s.distanceMatrix m none).1 ≠ .error (.missingAssociation kind id)
  runs : ∀ p force, ∃ new, (s.run p d force).2.databases[d]? = some new ∧ new.Settled
  bindings : ∀ m metric, s.metrics[m]? = some metric →
    ∃ new, (s.bind m d).2.databases[d]? = some new ∧ new.Settled

theorem reliable_of_covered {s : Session α} {d : Nat} {db : Database α}
    (found : s.databases[d]? = some db) (covered : db.Covered) : s.Reliable d db where
  covered ready := covered ((Associations.isReady_iff _ _).mp ready)
  distances ready m bound p memberP q memberQ kind id := by
    rw [distance_of_bound bound found]
    exact covered.distance_ne_missing ((Associations.isReady_iff _ _).mp ready) memberP memberQ _ _
  matrices ready m bound kind id := by
    rw [distanceMatrix_of_bound bound found]
    exact covered.distanceMatrix_ne_missing ((Associations.isReady_iff _ _).mp ready) _ _
  runs p force := ⟨_, getElem?_run_self found p force, p.run_state db force⟩
  bindings _ metric known :=
    ⟨_, getElem?_bind_self found known, metric.preprocessor.run_state db metric.force⟩

/-- A database that has just been added has no outcomes and does not claim to have them. -/
theorem getElem?_addDatabase (s : Session α) (points : PointSet α) :
    (s.addDatabase points).2.databases[(s.addDatabase points).1]? = some { points } :=
  Array.getElem?_push_size

/-- After every history of a database that was built fresh, it can be relied on. -/
theorem reliable_after_replay (start : Session α) (points : PointSet α) (events : List (Event α))
    (honest : ∀ e ∈ events, e.LeavesReadiness (start.addDatabase points).1) :
    ∃ db, ((start.addDatabase points).2.replay events).databases[(start.addDatabase points).1]? =
        some db ∧ db.points = points ∧
      ((start.addDatabase points).2.replay events).Reliable (start.addDatabase points).1 db := by
  have fresh : Database.Covered { points } := fun ready => nomatch ready
  obtain ⟨db, found, samePoints, covered⟩ := replay_induction Database.Covered.step
    (start.addDatabase points).2 honest (start.getElem?_addDatabase points) fresh
  exact ⟨db, found, samePoints, reliable_of_covered found covered⟩

/-- A value under a foreign id, runs and bindings that are refused or answered, a state that
announces a computation, and a forgotten kind. -/
def strayHistory : List (Event Float) := [
  .store 0 .localPca 42 (.other .null), .run (.refusing 3) 0 false,
  .setState 0 .localPca .computing, .bind 0 0, .associate 0 .localPca 7 (.other .null),
  .run (.refusing 7) 0 false, .clear 0 .localPca]

theorem reliable_after_replay_stray :
    ∃ db, ((Session.addDatabase { metrics := #[⟨.refusing 9, true, 0, none⟩] } .pair).2.replay
        strayHistory).databases[0]? = some db ∧ db.points = .pair ∧
      ((Session.addDatabase { metrics := #[⟨.refusing 9, true, 0, none⟩] } .pair).2.replay
        strayHistory).Reliable 0 db := by
  apply reliable_after_replay
  intro e member
  simp only [strayHistory, List.mem_cons, List.not_mem_nil, or_false] at member
  rcases member with rfl | rfl | rfl | rfl | rfl | rfl | rfl
  case inr.inr.inl => exact fun _ _ => by decide
  all_goals exact trivial

end Session

end LocalMetric
