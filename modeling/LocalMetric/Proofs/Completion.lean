import LocalMetric.Proofs.Preparations
/-!
# What a completed run stores

A run that is due stores an outcome for each point that was asked for, all points if it is forced and
otherwise those without an outcome, and answers how many these were. Everything else stays as it was.
Every point has an outcome then, so a second run has nothing to do.
-/
namespace LocalMetric

variable {α : Type} [Scalar α]

namespace Preprocessor

variable {p : Preprocessor α} {db : Database α} {force : Bool}

theorem run_of_idle (p : Preprocessor α) (idle : Idle db force) : p.run db force = (.ok 0, db) := by
  rw [run, if_pos (idle_iff.mp idle)]

/-- A run whose computations are all answered is completed. -/
theorem exists_completed (due : ¬Idle db force)
    (answered : ∀ id ∈ pending db force, ∃ r, p.compute db.points id = .ok r) :
    ∃ new, p.run db force = (.ok (pending db force).length, new) ∧
      db.Completed p (pending db force) new := by
  have pass := p.run_pass db force
  generalize p.run db force = result at pass
  cases pass with
  | skipped idle => exact absurd idle due
  | completed _ left => exact ⟨_, rfl, left⟩
  | @abandoned id _ _ _ member failed =>
      obtain ⟨r, computed⟩ := answered id member
      rw [computed] at failed
      cases failed

/-- After a run that was skipped or completed the outcomes are ready. -/
theorem idle_after_run (answered : ∀ id ∈ pending db force, ∃ r, p.compute db.points id = .ok r) :
    Idle (p.run db force).2 false := by
  refine ⟨?_, rfl⟩
  by_cases idle : Idle db force
  · rw [p.run_of_idle idle]
    exact idle.1
  · obtain ⟨new, run, left⟩ := exists_completed idle answered
    rw [run]
    exact left.ready

/-- A run whose computations succeed leaves a ready database alone unless it is forced. Otherwise it
answers the number of the points that it was asked for, stores the outcome of each of them and nothing
else, and leaves every point with an outcome and the outcomes ready. No run that follows unforced, of
whichever preprocessor, finds anything to do. -/
theorem run_completes (p : Preprocessor α) (db : Database α) (force : Bool)
    (succeeds : ∀ id ∈ db.ids, force = true ∨ db.associations.find? .localPca id = none →
      ∃ r, p.compute db.points id = .ok r) :
    (Idle db force → p.run db force = (.ok 0, db)) ∧
    (¬Idle db force → ∃ ids new, ids.Nodup ∧
      (∀ id, id ∈ ids ↔
        id ∈ db.ids ∧ (force = true ∨ db.associations.find? .localPca id = none)) ∧
      p.run db force = (.ok ids.length, new) ∧ db.Completed p ids new ∧
      ∀ id ∈ new.ids, new.associations.has .localPca id = true) ∧
    ∀ q : Preprocessor α, q.run (p.run db force).2 false = (.ok 0, (p.run db force).2) := by
  have answered : ∀ id ∈ pending db force, ∃ r, p.compute db.points id = .ok r := by
    intro id member
    obtain ⟨known, wanted⟩ := mem_pending.mp member
    exact succeeds id known wanted
  refine ⟨p.run_of_idle, ?_, ?_⟩
  · intro due
    obtain ⟨new, run, left⟩ := exists_completed due answered
    refine ⟨pending db force, new, pending_nodup db force, fun id => mem_pending, run, left, ?_⟩
    intro id member
    rw [Database.ids, left.points] at member
    exact has_of_completed left member
  · exact fun q => q.run_of_idle (idle_after_run answered)

/-- Two points of which one has a value of unknown origin, a value for a foreign id, a value of
another kind, and a computation that never ended. -/
def strayPair : Database Float where
  points := .pair
  associations := ((Associations.empty.setAll .localPca [(7, .other .null), (42, .other .null)]).set
    ⟨"note"⟩ 9 (.other .null)).setState .localPca .computing

def surveyingPair : Preprocessor Float := .surveying .rotations ⟨0.85, 1, 100, .centroid, 1e-10⟩

theorem run_completes_stray : ∃ new r,
    surveyingPair.run strayPair false = (.ok 1, new) ∧
    surveyingPair.compute .pair 9 = .ok r ∧
    new.associations.find? .localPca 9 = some (.localPca r) ∧
    new.associations.find? .localPca 7 = some (.other .null) ∧
    new.associations.find? .localPca 42 = some (.other .null) ∧
    new.associations.find? ⟨"note"⟩ 9 = some (.other .null) ∧
    (refusing 7).run new false = (.ok 0, new) := by
  have succeeds : ∀ id ∈ strayPair.ids,
      false = true ∨ strayPair.associations.find? .localPca id = none →
      ∃ r, surveyingPair.compute strayPair.points id = .ok r :=
    fun id member _ => exists_compute_iff.mpr (exists_neighborhood_surveying _ _ _ id member)
  have due : ¬Idle strayPair false := fun idle => nomatch idle.1
  obtain ⟨_, completes, again⟩ := run_completes surveyingPair strayPair false succeeds
  obtain ⟨ids, new, distinct, members, run, left, _⟩ := completes due
  have wanted (id : Int) : id ∈ ids ↔ id ∈ [(9 : Int)] := by
    rw [members, List.mem_singleton]
    constructor
    · rintro ⟨known, impossible | absent⟩
      · cases impossible
      · rcases List.mem_pair.mp known with rfl | rfl
        · cases absent
        · rfl
    · rintro rfl
      exact ⟨by decide, .inr rfl⟩
  have single := (List.perm_ext_iff_of_nodup distinct (List.nodup_singleton 9)).mpr wanted
  rw [single.length_eq] at run
  obtain ⟨r, computed, stored⟩ := left.computed 9 ((wanted 9).mpr (List.mem_singleton.mpr rfl))
  have repeated := again (refusing 7)
  rw [run] at repeated
  refine ⟨new, r, run, computed, stored, ?_, ?_, ?_, repeated⟩
  · rw [left.kept 7 fun member => by cases List.mem_singleton.mp ((wanted 7).mp member)]
    rfl
  · rw [left.kept 42 fun member => by cases List.mem_singleton.mp ((wanted 42).mp member)]
    rfl
  · rw [left.values ⟨"note"⟩ (by decide)]
    rfl

end Preprocessor

end LocalMetric
