import LocalMetric.Proofs.Distances
import LocalMetric.Proofs.Histories
/-!
# What counters account for

A counter is started again only by a reset, which answers its count. So after every history what its
resets have answered and what it shows is what was counted: each call of a bound distance function
that uses it, each pair of an answered matrix, and what it was incremented by. What is refused without
counting leaves the whole session as it was.
-/
namespace LocalMetric.Session

variable {α : Type} [Scalar α]

/-- The database that a distance function measures, if it is bound and counts with a counter. -/
def measured (s : Session α) (c m : Nat) : Option (Database α) :=
  match s.metrics[m]? with
  | some metric => if metric.counter = c then (s.boundDatabase metric).toOption else none
  | none => none

/-- How many distances an operation asks for one at a time. A call counts whether it is answered or
not. -/
def called (c : Nat) (s : Session α) : Event α → Int
  | .distance m _ _ => if (s.measured c m).isSome then 1 else 0
  | _ => 0

/-- How many pairs of positions a matrix has that an operation is answered. -/
def paired (c : Nat) (s : Session α) : Event α → Int
  | .distanceMatrix m ids =>
    match (s.distanceMatrix m ids).1, s.measured c m with
    | .ok _, some db =>
      let n := (ids.getD db.ids).length
      (n * (n - 1) / 2 : Nat)
    | _, _ => 0
  | _ => 0

/-- By how much an operation increments a counter. A negative increment is not accepted. -/
def granted (c : Nat) (_ : Session α) : Event α → Int
  | .increment counter n => if counter = c ∧ 0 ≤ n then n else 0
  | _ => 0

/-- The count that an operation answers before it starts a counter again. -/
def returned (c : Nat) (s : Session α) : Event α → Int
  | .reset counter =>
    match (s.reset counter).1 with
    | .ok count => if counter = c then count else 0
    | .error _ => 0
  | _ => 0

/-- The total of what the operations of a history come to, each in the session in which it is
done. -/
def total (amount : Session α → Event α → Int) : Session α → List (Event α) → Int
  | _, [] => 0
  | s, e :: rest => amount s e + total amount (s.after e) rest

variable {s : Session α} {c : Nat} {counter : Counter}

section Counters

theorem counters_change (database : Nat) (f : Database α → Checked α (Database α)) :
    (s.change database f).2.counters = s.counters := by
  unfold change
  split <;> rfl

theorem counters_run (p : Preprocessor α) (database : Nat) (force : Bool) :
    (s.run p database force).2.counters = s.counters := by
  unfold run
  split <;> rfl

theorem counters_bind (m database : Nat) : (s.bind m database).2.counters = s.counters := by
  unfold bind
  split
  · rfl
  · rfl
  · simp only
    split
    · exact counters_run _ _ _
    · rfl

theorem getElem?_setCounter_self (known : s.counters[c]? = some counter) (new : Counter) :
    (s.setCounter c new).counters[c]? = some new := by
  have inside : c < s.counters.size := (Array.getElem?_eq_some_iff.mp known).1
  simp only [setCounter, Array.getElem?_setIfInBounds, if_true, inside]

theorem getElem?_setCounter_of_ne {other : Nat} (apart : other ≠ c) (new : Counter) :
    (s.setCounter other new).counters[c]? = s.counters[c]? := by
  simp only [setCounter, Array.getElem?_setIfInBounds, if_neg apart]

theorem increment_of_nonneg (known : s.counters[c]? = some counter) {n : Int} (nonneg : 0 ≤ n) :
    s.increment c n = (.ok (), s.setCounter c ⟨counter.value + n⟩) := by
  have answered : (lookup (α := α) s.counters c).bind (·.increment n) =
      .ok ⟨counter.value + n⟩ := by
    rw [lookup_eq_of_getElem? known]
    exact if_neg (Int.not_lt.mpr nonneg)
  rw [increment, answered]

theorem increment_of_neg (known : s.counters[c]? = some counter) {n : Int} (negative : n < 0) :
    s.increment c n = (.error (.negativeIncrement n), s) := by
  have refused : (lookup (α := α) s.counters c).bind (·.increment n) =
      .error (.negativeIncrement n) := by
    rw [lookup_eq_of_getElem? known]
    exact if_pos negative
  rw [increment, refused]

theorem getElem?_increment_of_ne {other : Nat} (apart : other ≠ c) (n : Int) :
    (s.increment other n).2.counters[c]? = s.counters[c]? := by
  unfold increment
  split
  · rfl
  · exact getElem?_setCounter_of_ne apart _

theorem reset_eq (known : s.counters[c]? = some counter) :
    s.reset c = (.ok counter.value, s.setCounter c {}) := by
  rw [reset, lookup_eq_of_getElem? known]
  rfl

theorem getElem?_reset_of_ne {other : Nat} (apart : other ≠ c) :
    (s.reset other).2.counters[c]? = s.counters[c]? := by
  unfold reset
  split
  · rfl
  · exact getElem?_setCounter_of_ne apart _

end Counters

section Access

variable {m : Nat}

/-- What a distance function does: it refuses every call, or it reaches its database and counts with
its counter. -/
inductive Access (s : Session α) (m : Nat) : Prop
  | refused (fault : Fault α) : (∀ c, s.measured c m = none) →
      (∀ p q, s.distance m p q = (.error fault, s)) →
      (∀ ids, s.distanceMatrix m ids = (.error fault, s)) → Access s m
  | reached (metric : Metric α) (db : Database α) :
      (∀ c, s.measured c m = if metric.counter = c then some db else none) →
      (∀ p q, s.distance m p q = (db.distance p q, (s.increment metric.counter 1).2)) →
      (∀ ids, s.distanceMatrix m ids = match db.distanceMatrix (ids.getD db.ids) with
        | .error fault => (.error fault, s)
        | .ok g => (.ok g, (s.increment metric.counter (pairCount g.rows)).2)) → Access s m

theorem access (s : Session α) (m : Nat) : s.Access m := by
  cases known : s.metrics[m]? with
  | none =>
      refine .refused (.noSuchObject m) (fun c => ?_) (fun p q => ?_) fun ids => ?_
      · rw [measured, known]
      · rw [distance, lookup, known]
      · rw [distanceMatrix, lookup, known]
  | some metric =>
      have found := lookup_eq_of_getElem? (α := α) known
      cases bound : s.boundDatabase metric with
      | error fault =>
          refine .refused fault (fun c => ?_) (fun p q => ?_) fun ids => ?_
          · simp only [measured, known, bound, Except.toOption, ite_self]
          · simp only [distance, found, bound]
          · simp only [distanceMatrix, found, bound]
      | ok db =>
          refine .reached metric db (fun c => ?_) (fun p q => ?_) fun ids => ?_
          · simp only [measured, known, bound, Except.toOption]
          · simp only [distance, found, bound]
          · cases answer : db.distanceMatrix (ids.getD db.ids) with
            | error fault => simp only [distanceMatrix, found, bound, answer]
            | ok g => simp only [distanceMatrix, found, bound, answer]

/-- A distance function that was never bound refuses every call, and nothing changes. -/
theorem refused_of_unbound {metric : Metric α} (known : s.metrics[m]? = some metric)
    (unbound : metric.database = none) (p q : Int) (ids : Option (List Int)) :
    s.distance m p q = (.error .unbound, s) ∧ s.distanceMatrix m ids = (.error .unbound, s) := by
  have found := lookup_eq_of_getElem? (α := α) known
  constructor
  · simp only [distance, found, boundDatabase, unbound]
  · simp only [distanceMatrix, found, boundDatabase, unbound]

/-- A matrix that is refused changes nothing. -/
theorem distanceMatrix_of_error {ids : Option (List Int)} {fault : Fault α}
    (refused : (s.distanceMatrix m ids).1 = .error fault) :
    s.distanceMatrix m ids = (.error fault, s) := by
  cases s.access m with
  | refused first _ _ matrices =>
      rw [matrices] at refused ⊢
      cases refused
      rfl
  | reached metric db _ _ matrices =>
      rw [matrices] at refused ⊢
      cases answer : db.distanceMatrix (ids.getD db.ids) with
      | error first =>
          rw [answer] at refused
          cases refused
          rfl
      | ok g =>
          rw [answer] at refused
          cases refused

end Access

section Steps

/-- An accepted increment puts a counter ahead, and any other one leaves it where it was. -/
theorem counter_after_increment (known : s.counters[c]? = some counter) (other : Nat) (n : Int) :
    (s.increment other n).2.counters[c]? =
      some ⟨counter.value + granted c s (.increment other n)⟩ := by
  by_cases same : other = c
  · subst same
    by_cases nonneg : 0 ≤ n
    · rw [increment_of_nonneg known nonneg, granted, if_pos ⟨rfl, nonneg⟩]
      exact getElem?_setCounter_self known _
    · rw [increment_of_neg known (Int.not_le.mp nonneg), granted, if_neg fun h => nonneg h.2,
        Int.add_zero]
      exact known
  · rw [getElem?_increment_of_ne same, granted, if_neg fun h => same h.1, Int.add_zero]
    exact known

theorem granted_of_nonneg (other : Nat) {n : Int} (nonneg : 0 ≤ n) :
    granted c s (.increment other n) = if other = c then n else 0 := by
  simp only [granted, nonneg, and_true]

theorem counter_after_distance (known : s.counters[c]? = some counter) (m : Nat) (p q : Int) :
    (s.distance m p q).2.counters[c]? =
      some ⟨counter.value + called c s (.distance m p q)⟩ := by
  cases s.access m with
  | refused fault uncounted distances =>
      rw [distances, called, uncounted c, Option.isSome_none, if_neg Bool.false_ne_true, Int.add_zero]
      exact known
  | reached metric db measures distances =>
      rw [distances, counter_after_increment known, granted_of_nonneg _ (by decide), called,
        measures c]
      split
      · rfl
      · rfl

theorem rows_of_distanceMatrix {db : Database α} {ids : List Int} {g : Grid α}
    (answered : db.distanceMatrix ids = .ok g) : g.rows = ids.length := by
  obtain ⟨sites, sited, rfl⟩ := Database.distanceMatrix_ok_iff.mp answered
  exact sited.length_eq.symm

theorem counter_after_distanceMatrix (known : s.counters[c]? = some counter) (m : Nat)
    (ids : Option (List Int)) :
    (s.distanceMatrix m ids).2.counters[c]? =
      some ⟨counter.value + paired c s (.distanceMatrix m ids)⟩ := by
  rw [paired]
  cases s.access m with
  | refused fault uncounted _ matrices =>
      rw [matrices, uncounted c, Int.add_zero]
      exact known
  | reached metric db measures _ matrices =>
      rw [matrices, measures c]
      cases answer : db.distanceMatrix (ids.getD db.ids) with
      | error fault =>
          simp only
          rw [Int.add_zero]
          exact known
      | ok g =>
          simp only
          rw [counter_after_increment known, granted_of_nonneg _ (Int.natCast_nonneg _),
            rows_of_distanceMatrix answer]
          split
          · rfl
          · rfl

/-- What the operations that only count make of a counter. -/
theorem counter_after_of_ne (known : s.counters[c]? = some counter) {e : Event α}
    (goes : e ≠ .reset c) :
    (s.after e).counters[c]? =
      some ⟨counter.value + (called c s e + paired c s e + granted c s e)⟩ := by
  have kept {s' : Session α} (same : s'.counters[c]? = s.counters[c]?) :
      s'.counters[c]? = some ⟨counter.value + 0⟩ := by
    rw [same, Int.add_zero]
    exact known
  cases e with
  | addDatabase points => exact kept rfl
  | addCounter =>
      have inside : c < s.counters.size := (Array.getElem?_eq_some_iff.mp known).1
      exact kept ((Array.getElem?_push_lt inside).trans (Array.getElem?_eq_getElem inside).symm)
  | addMetric preprocessor force other => exact kept rfl
  | associate database kind id value => exact kept (congrArg (·[c]?) (counters_change database _))
  | store database kind id value => exact kept (congrArg (·[c]?) (counters_change database _))
  | clear database kind => exact kept (congrArg (·[c]?) (counters_change database _))
  | setState database kind state => exact kept (congrArg (·[c]?) (counters_change database _))
  | run preprocessor database force =>
      exact kept (congrArg (·[c]?) (counters_run preprocessor database force))
  | bind metric database => exact kept (congrArg (·[c]?) (counters_bind metric database))
  | distance metric p q =>
      rw [show paired c s (.distance metric p q) = 0 from rfl,
        show granted c s (.distance metric p q) = 0 from rfl, Int.add_zero, Int.add_zero]
      exact counter_after_distance known metric p q
  | distanceMatrix metric ids =>
      rw [show called c s (.distanceMatrix metric ids) = 0 from rfl,
        show granted c s (.distanceMatrix metric ids) = 0 from rfl, Int.zero_add, Int.add_zero]
      exact counter_after_distanceMatrix known metric ids
  | increment other n =>
      rw [show called c s (.increment other n) = 0 from rfl,
        show paired c s (.increment other n) = 0 from rfl, Int.zero_add, Int.zero_add]
      exact counter_after_increment known other n
  | reset other => exact kept (getElem?_reset_of_ne fun same => goes (same ▸ rfl))

theorem reset_after (known : s.counters[c]? = some counter) :
    (s.after (.reset c)).counters[c]? = some {} ∧ returned c s (.reset c) = counter.value := by
  rw [after, returned, reset_eq known]
  exact ⟨getElem?_setCounter_self known _, if_pos rfl⟩

theorem returned_of_ne {e : Event α} (goes : e ≠ .reset c) : returned c s e = 0 := by
  cases e with
  | reset other =>
      have apart : other ≠ c := fun same => goes (same ▸ rfl)
      rw [returned]
      cases (s.reset other).1 with
      | error fault => rfl
      | ok count => exact if_neg apart
  | _ => rfl

theorem called_nonneg (e : Event α) : 0 ≤ called c s e := by
  unfold called
  split
  · split <;> decide
  · exact Int.le_refl 0

theorem paired_nonneg (e : Event α) : 0 ≤ paired c s e := by
  unfold paired
  split
  · split
    · exact Int.natCast_nonneg _
    · exact Int.le_refl 0
  · exact Int.le_refl 0

theorem granted_nonneg (e : Event α) : 0 ≤ granted c s e := by
  unfold granted
  split
  · split
    · rename_i accepted
      exact accepted.2
    · exact Int.le_refl 0
  · exact Int.le_refl 0

end Steps

/-- What a history makes of a counter: what its resets answered and what the counter shows now is
what it showed first and what was counted, and without a reset it never shows less. -/
structure Conserved (c : Nat) (first last : Counter) (start : Session α) (events : List (Event α)) :
    Prop where
  balance : start.total (returned c) events + last.value = first.value +
    (start.total (called c) events + start.total (paired c) events +
      start.total (granted c) events)
  grows : (∀ e ∈ events, e ≠ .reset c) → first.value ≤ last.value

/-- One operation either answers the whole count or adds to it. -/
theorem conserved_step (known : s.counters[c]? = some counter) (e : Event α) :
    ∃ next, (s.after e).counters[c]? = some next ∧ Conserved c counter next s [e] := by
  by_cases stops : e = .reset c
  · subst stops
    obtain ⟨fresh, answers⟩ := reset_after known
    refine ⟨{}, fresh, ?_, fun goes => absurd rfl (goes _ List.mem_cons_self)⟩
    simp only [total, answers, called, paired, granted, Int.add_zero]
  · refine ⟨_, counter_after_of_ne known stops, ?_, fun _ => ?_⟩
    · simp only [total, returned_of_ne stops, Int.add_zero, Int.zero_add]
    · have calls := called_nonneg (s := s) (c := c) e
      have pairs := paired_nonneg (s := s) (c := c) e
      have grants := granted_nonneg (s := s) (c := c) e
      simp only
      omega

theorem exists_conserved (events : List (Event α)) (known : s.counters[c]? = some counter) :
    ∃ last, (s.replay events).counters[c]? = some last ∧ Conserved c counter last s events := by
  induction events generalizing s counter with
  | nil =>
      refine ⟨counter, known, ?_, fun _ => Int.le_refl _⟩
      simp only [total, Int.add_zero, Int.zero_add]
  | cons e rest ih =>
      obtain ⟨next, there, here⟩ := conserved_step known e
      obtain ⟨last, final, later⟩ := ih there
      refine ⟨last, final, ?_, fun goes => ?_⟩
      · have paid := here.balance
        have left := later.balance
        simp only [total, Int.add_zero] at paid ⊢
        omega
      · have first := here.grows fun x single => by
          cases List.mem_singleton.mp single
          exact goes e List.mem_cons_self
        exact Int.le_trans first
          (later.grows fun x member => goes x (List.mem_cons_of_mem e member))

structure Uncounted (s : Session α) (c : Nat) : Prop where
  unbound : ∀ m metric, s.metrics[m]? = some metric → metric.database = none → ∀ p q ids,
    s.distance m p q = (.error .unbound, s) ∧ s.distanceMatrix m ids = (.error .unbound, s)
  matrices : ∀ m ids fault, (s.distanceMatrix m ids).1 = .error fault →
    s.distanceMatrix m ids = (.error fault, s)
  negative : ∀ n < 0, s.increment c n = (.error (.negativeIncrement n), s)

/-- For every history of a session, however its distance functions share its counters, nothing is
lost and nothing is counted twice. A counter that has just been made shows zero, and looking at it
changes nothing. -/
theorem counts_conserved (start : Session α) (c : Nat) (first : Counter)
    (known : start.counters[c]? = some first) (events : List (Event α)) :
    (∃ last, (start.replay events).counters[c]? = some last ∧
      Conserved c first last start events) ∧
    start.Uncounted c :=
  ⟨exists_conserved events known, {
    unbound := fun _ _ there free p q ids => refused_of_unbound there free p q ids
    matrices := fun _ _ _ refused => distanceMatrix_of_error refused
    negative := fun _ below => increment_of_neg known below }⟩

/-- Two distance functions that share a counter. The first one is bound to a pair of points of which
one has an outcome, the second one to nothing. -/
def sharing : Session Float where
  databases := #[{
    points := .pair
    associations := Associations.empty.set .localPca 7
      (.localPca ⟨[0.25], ⟨1, 1, #v[#v[1.0]]⟩, 1, #v[#v[1.0]], 1, 2, Nat.one_pos, Nat.one_pos⟩) }]
  counters := #[{}]
  metrics := #[⟨.refusing 7, false, 0, some 0⟩, ⟨.refusing 9, false, 0, none⟩]

/-- A distance to a point without an outcome, one of a function that is not bound, three positions of
one point, all points, two increments, a reset, and a distance to no point. -/
def sharedHistory : List (Event Float) := [
  .distance 0 7 9, .distance 1 7 7, .distanceMatrix 0 (some [7, 7, 7]), .distanceMatrix 0 none,
  .increment 0 4, .increment 0 (-3), .reset 0, .distance 0 7 100]

theorem counts_conserved_shared :
    sharing.total (returned 0) sharedHistory = 8 ∧ sharing.total (called 0) sharedHistory = 2 ∧
    sharing.total (paired 0) sharedHistory = 3 ∧ sharing.total (granted 0) sharedHistory = 4 ∧
    (sharing.replay sharedHistory).counters[0]? = some ⟨1⟩ := by
  have returns : sharing.total (returned 0) sharedHistory = 8 := by decide +kernel
  have calls : sharing.total (called 0) sharedHistory = 2 := by decide +kernel
  have pairs : sharing.total (paired 0) sharedHistory = 3 := by decide +kernel
  have grants : sharing.total (granted 0) sharedHistory = 4 := by decide +kernel
  obtain ⟨⟨last, final, conserved⟩, _⟩ := counts_conserved sharing 0 {} rfl sharedHistory
  have shows := conserved.balance
  rw [returns, calls, pairs, grants] at shows
  change 8 + last.value = 0 + (2 + 3 + 4) at shows
  have one : last = ⟨1⟩ := congrArg Counter.mk (by omega)
  exact ⟨returns, calls, pairs, grants, one ▸ final⟩

end LocalMetric.Session
