import LocalMetric.Proofs.Distances
import LocalMetric.Proofs.Histories
/-!
# What a refused run leaves behind

A run stores nothing before all its computations are answered. If one of them is refused, the only
trace of the run is that the outcomes are not ready any more: every stored value is the one from
before, and so is every distance.
-/
namespace LocalMetric.Session

variable {α : Type} [Scalar α]

/-- A preparation of a database that was refused: some computation was, the database kept its values,
and the distance functions that were bound to it answer as before. -/
structure Withdrawn (s : Session α) (d : Nat) (db : Database α) (p : Preprocessor α) (force : Bool)
    (fault : Fault α) (after : Session α) : Prop where
  cause : ∃ id ∈ Preprocessor.pending db force, p.compute db.points id = .error fault
  database : ∃ new, after.databases[d]? = some new ∧ db.Abandoned new
  distances : ∀ k, s.Bound k d → ∀ x y, (after.distance k x y).1 = (s.distance k x y).1
  matrices : ∀ k, s.Bound k d → ∀ ids,
    (after.distanceMatrix k ids).1 = (s.distanceMatrix k ids).1

variable {s after : Session α} {d : Nat} {db : Database α} {p : Preprocessor α} {force : Bool}
  {fault : Fault α}

/-- A session whose database was left as a refused run leaves it, with all its distance functions
still bound. -/
theorem withdrawn_of_run_error (found : s.databases[d]? = some db)
    (refused : (p.run db force).1 = .error fault)
    (left : after.databases[d]? = some (p.run db force).2)
    (bound : ∀ k, s.Bound k d → after.Bound k d) : s.Withdrawn d db p force fault after := by
  have pass := p.run_pass db force
  generalize p.run db force = result at pass refused left
  cases pass with
  | skipped => cases refused
  | completed => cases refused
  | @abandoned id _ new _ member failed abandoned =>
      cases refused
      refine ⟨⟨id, member, failed⟩, ⟨new, left, abandoned⟩, ?_, ?_⟩
      · intro k before x y
        rw [distance_of_bound (bound k before) left, distance_of_bound before found]
        exact Database.distance_congr abandoned.points (abandoned.values .localPca) x y
      · intro k before ids
        rw [distanceMatrix_of_bound (bound k before) left, distanceMatrix_of_bound before found,
          Database.ids, abandoned.points]
        exact Database.distanceMatrix_congr abandoned.points (abandoned.values .localPca) _

/-- A run of which one computation is refused is refused. A run or a binding that is refused changes
no stored value of any kind, no state of another kind and no distance; it only leaves the outcomes
without the promise that they are ready. -/
theorem refused_preparation_withdrawn (found : s.databases[d]? = some db) :
    (∀ p force id fault, ¬Preprocessor.Idle db force → id ∈ Preprocessor.pending db force →
      p.compute db.points id = .error fault → ∃ first, (s.run p d force).1 = .error first) ∧
    (∀ p force fault, (s.run p d force).1 = .error fault →
      s.Withdrawn d db p force fault (s.run p d force).2) ∧
    ∀ m metric fault, s.metrics[m]? = some metric → (s.bind m d).1 = .error fault →
      s.Withdrawn d db metric.preprocessor metric.force fault (s.bind m d).2 := by
  refine ⟨?_, ?_, ?_⟩
  · intro p force id fault due member failed
    rw [run, lookup_eq_of_getElem? found]
    exact Preprocessor.exists_run_error due member failed
  · intro p force fault refused
    rw [run, lookup_eq_of_getElem? found] at refused
    refine withdrawn_of_run_error found refused (getElem?_run_self found p force) ?_
    intro k before
    rwa [Bound, metrics_run]
  · intro m metric fault known refused
    rw [bind_answer found known] at refused
    refine withdrawn_of_run_error found ?_ (getElem?_bind_self found known) ?_
    · cases answer : (metric.preprocessor.run db metric.force).1 with
      | error first =>
          rw [answer] at refused
          cases refused
          rfl
      | ok count =>
          rw [answer] at refused
          cases refused
    · exact fun k before => before.bind found known

/-- Two points, one of them with an outcome of unknown origin, that claim to be ready. -/
def storedPair : Database Float where
  points := .pair
  associations := (Associations.empty.set .localPca 7 (.other .null)).setState .localPca .ready

/-- Two stored points and a bound distance function whose preprocessor refuses the second one. -/
def refusingSession : Session Float where
  databases := #[storedPair]
  counters := #[{}]
  metrics := #[⟨.refusing 9, true, 0, some 0⟩]

theorem refused_preparation_withdrawn_refusing :
    ∃ first, (refusingSession.run (.refusing 9) 0 true).1 = .error first ∧
      refusingSession.Withdrawn 0 storedPair (.refusing 9) true first
        (refusingSession.run (.refusing 9) 0 true).2 ∧
      (refusingSession.bind 0 0).1 = .error first ∧
      refusingSession.Withdrawn 0 storedPair (.refusing 9) true first
        (refusingSession.bind 0 0).2 := by
  have found : refusingSession.databases[0]? = some storedPair := rfl
  have known : refusingSession.metrics[0]? = some ⟨.refusing 9, true, 0, some 0⟩ := rfl
  have due : ¬Preprocessor.Idle storedPair true := fun idle => nomatch idle.2
  have failed : (Preprocessor.refusing 9).compute storedPair.points 9 = .error .emptyNeighborhood :=
    rfl
  obtain ⟨raises, runs, binds⟩ := refused_preparation_withdrawn found
  obtain ⟨first, refused⟩ := raises (.refusing 9) true 9 _ due (by decide) failed
  have bound : (refusingSession.bind 0 0).1 = .error first := by
    rw [bind_answer found known]
    change ((refusingSession.run (.refusing 9) 0 true).1.map fun _ => ()) = _
    rw [refused]
    rfl
  exact ⟨first, refused, runs _ _ _ refused, bound, binds 0 _ _ known bound⟩

end LocalMetric.Session
