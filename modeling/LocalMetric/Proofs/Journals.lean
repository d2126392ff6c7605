import Mathlib.Data.Finset.Card
import LocalMetric.Proofs.Stores
/-!
# Stores and their journals

What a store answers about a kind follows from the journal of its operations: only those on this kind
count, and only since the kind was last cleared.
-/
namespace LocalMetric.Associations

variable {V : Type}

structure Write (V : Type) where
  label : Kind.Label
  id : Int
  value : V

/-- An operation that changes a store. -/
inductive Operation (V : Type) where
  | set (write : Write V)
  | setState (label : Kind.Label) (state : Readiness)
  | clear (label : Kind.Label)

namespace Operation

def kind : Operation V → Kind
  | set w => w.label.kind
  | setState label _ => label.kind
  | clear label => label.kind

def clears : Operation V → Bool
  | clear _ => true
  | _ => false

def point? : Operation V → Option Int
  | set w => some w.id
  | _ => none

def value? (id : Int) : Operation V → Option V
  | set w => if w.id = id then some w.value else none
  | _ => none

def state? : Operation V → Option Readiness
  | setState _ state => some state
  | _ => none

end Operation

def apply (s : Associations V) : Operation V → Associations V
  | .set w => s.set w.label.kind w.id w.value
  | .setState label state => s.setState label.kind state
  | .clear label => s.clear label.kind

def replay : Associations V → List (Operation V) → Associations V
  | s, [] => s
  | s, op :: rest => replay (s.apply op) rest

/-- The operations on a kind since it was last cleared, the latest one first. -/
def recent (kind : Kind) (journal : List (Operation V)) : List (Operation V) :=
  (journal.filter fun op => op.kind = kind).reverse.takeWhile fun op => !op.clears

theorem replay_append (s : Associations V) (before after : List (Operation V)) :
    s.replay (before ++ after) = (s.replay before).replay after := by
  induction before generalizing s with
  | nil => rfl
  | cons op rest ih => exact ih (s.apply op)

theorem replay_concat (s : Associations V) (journal : List (Operation V)) (op : Operation V) :
    s.replay (journal ++ [op]) = (s.replay journal).apply op :=
  s.replay_append journal [op]

variable {s t : Associations V} {kind : Kind}

section Recent

variable {journal : List (Operation V)} {op : Operation V}

theorem recent_concat_of_ne (other : op.kind ≠ kind) :
    recent kind (journal ++ [op]) = recent kind journal := by
  simp [recent, other]

theorem recent_concat_of_clears (same : op.kind = kind) (clears : op.clears = true) :
    recent kind (journal ++ [op]) = [] := by
  simp [recent, same, clears]

theorem recent_concat_of_keeps (same : op.kind = kind) (keeps : op.clears = false) :
    recent kind (journal ++ [op]) = op :: recent kind journal := by
  simp [recent, same, keeps]

/-- Operations on other kinds are not among the recent ones, wherever they stand. -/
theorem recent_skip (before : List (Operation V)) (other : op.kind ≠ kind)
    (after : List (Operation V)) :
    recent kind (before ++ op :: after) = recent kind (before ++ after) := by
  simp [recent, other]

end Recent

/-- A store that has done what is listed to a kind, the latest first, and nothing since it was
cleared before. -/
structure Recalls (s : Associations V) (kind : Kind) (ops : List (Operation V)) : Prop where
  find? : ∀ id, s.find? kind id = ops.findSome? (Operation.value? id)
  count : s.count kind = (ops.filterMap Operation.point?).toFinset.card
  state : s.state kind = (ops.findSome? Operation.state?).getD .unset

theorem isSome_findSome?_value? {id : Int} {ops : List (Operation V)} :
    (ops.findSome? (Operation.value? id)).isSome = true ↔ id ∈ ops.filterMap Operation.point? := by
  induction ops with
  | nil => simp
  | cons op ops ih =>
      cases op with
      | set w =>
          by_cases same : w.id = id
          · simp [Operation.value?, Operation.point?, same]
          · simp [Operation.value?, Operation.point?, same, Ne.symm same, ← ih]
      | setState label state => simpa [Operation.value?, Operation.point?] using ih
      | clear label => simpa [Operation.value?, Operation.point?] using ih

section Steps

variable {ops : List (Operation V)} {op : Operation V}

theorem Recalls.of_ne (recalls : s.Recalls kind ops) (other : op.kind ≠ kind) :
    (s.apply op).Recalls kind ops := by
  have apart : kind ≠ op.kind := other.symm
  cases op with
  | set w =>
      constructor
      · intro id
        exact (s.find?_set_of_kind_ne apart _ id _).trans (recalls.find? id)
      · exact (s.count_set_of_ne apart _ _).trans recalls.count
      · exact recalls.state
  | setState label state =>
      constructor
      · intro id
        exact (s.find?_setState _ _ _ id).trans (recalls.find? id)
      · exact (s.count_setState _ _ _).trans recalls.count
      · exact (s.state_setState_of_ne apart _).trans recalls.state
  | clear label =>
      constructor
      · intro id
        exact (s.find?_clear_of_ne apart id).trans (recalls.find? id)
      · exact (s.count_clear_of_ne apart).trans recalls.count
      · exact (s.state_clear_of_ne apart).trans recalls.state

theorem recalls_of_clears (same : op.kind = kind) (clears : op.clears = true) :
    (s.apply op).Recalls kind [] := by
  cases op with
  | set w => cases clears
  | setState label state => cases clears
  | clear label =>
      subst same
      constructor
      · intro id
        exact s.find?_clear_self _ id
      · exact s.count_clear_self _
      · exact s.state_clear_self _

theorem Recalls.of_keeps (recalls : s.Recalls kind ops) (same : op.kind = kind)
    (keeps : op.clears = false) : (s.apply op).Recalls kind (op :: ops) := by
  subst same
  cases op with
  | set w =>
      constructor
      · intro id
        by_cases here : w.id = id
        · subst here
          simp [apply, Operation.kind, Operation.value?]
        · simp only [List.findSome?_cons, Operation.value?, if_neg here]
          rw [apply, Operation.kind, find?_set_of_id_ne _ _ (Ne.symm here)]
          exact recalls.find? id
      · -- A point counts once, however often a value is stored for it.
        have known : s.has w.label.kind w.id = true ↔
            w.id ∈ (ops.filterMap Operation.point?).toFinset := by
          rw [List.mem_toFinset, ← isSome_findSome?_value?, ← recalls.find?]
          rfl
        have count : s.count w.label.kind = (ops.filterMap Operation.point?).toFinset.card :=
          recalls.count
        simp only [apply, Operation.kind, count_set_self, count, known, Operation.point?,
          List.filterMap_cons, List.toFinset_cons, Finset.card_insert_eq_ite]
      · exact (s.state_set _ _ _ _).trans recalls.state
  | setState label state =>
      constructor
      · intro id
        exact (s.find?_setState _ _ _ id).trans (recalls.find? id)
      · exact (s.count_setState _ _ _).trans recalls.count
      · exact s.state_setState_self _ _
  | clear label => cases keeps

end Steps

/-- A store recalls what was done to a kind since it was last cleared. -/
theorem recalls_replay (kind : Kind) (journal : List (Operation V)) :
    (empty.replay journal).Recalls kind (recent kind journal) := by
  induction journal using List.reverseRecOn with
  | nil =>
      constructor
      · intro id
        rfl
      · rfl
      · rfl
  | append_singleton journal op ih =>
      rw [replay_concat]
      by_cases same : op.kind = kind
      · cases clears : op.clears with
        | true =>
            rw [recent_concat_of_clears same clears]
            exact recalls_of_clears same clears
        | false =>
            rw [recent_concat_of_keeps same clears]
            exact ih.of_keeps same clears
      · rw [recent_concat_of_ne same]
        exact ih.of_ne same

section Answers

/-- Two stores that answer every question about a kind alike. -/
structure Alike (kind : Kind) (s t : Associations V) : Prop where
  get : ∀ (α : Type) (id : Int), s.get (α := α) kind id = t.get kind id
  has : ∀ id, s.has kind id = t.has kind id
  count : s.count kind = t.count kind
  missing : ∀ ids, s.missing kind ids = t.missing kind ids
  state : s.state kind = t.state kind

theorem get_congr {id : Int} (same : s.find? kind id = t.find? kind id) (α : Type) :
    s.get (α := α) kind id = t.get kind id := by
  rw [Associations.get, Associations.get, same]

theorem alike_of_find? (find? : ∀ id, s.find? kind id = t.find? kind id)
    (count : s.count kind = t.count kind) (state : s.state kind = t.state kind) :
    Alike kind s t := by
  have has (id : Int) : s.has kind id = t.has kind id := congrArg Option.isSome (find? id)
  refine ⟨?_, has, count, ?_, state⟩
  · intro α id
    exact get_congr (find? id) α
  · intro ids
    simp only [Associations.missing, has]

theorem Recalls.alike {ops : List (Operation V)} (recalls : s.Recalls kind ops)
    (recalls' : t.Recalls kind ops) : Alike kind s t := by
  apply alike_of_find?
  · intro id
    rw [recalls.find?, recalls'.find?]
  · rw [recalls.count, recalls'.count]
  · rw [recalls.state, recalls'.state]

theorem get_ok_iff {α : Type} {id : Int} {value : V} :
    s.get (α := α) kind id = .ok value ↔ s.find? kind id = some value := by
  cases found : s.find? kind id with
  | none => simp [Associations.get, found]
  | some v => simp [Associations.get, found]

theorem get_error_iff {α : Type} {id : Int} {fault : Fault α} :
    s.get kind id = .error fault ↔
      s.find? kind id = none ∧ fault = .missingAssociation kind.name id := by
  cases found : s.find? kind id with
  | none => simp [Associations.get, found, eq_comm]
  | some v => simp [Associations.get, found]

structure Answers (s : Associations V) (kind : Kind) (ops : List (Operation V)) : Prop where
  get : ∀ (α : Type) (id : Int) (value : V),
    s.get (α := α) kind id = .ok value ↔ ops.findSome? (Operation.value? id) = some value
  missing_get : ∀ (α : Type) (id : Int) (fault : Fault α), s.get kind id = .error fault ↔
    ops.findSome? (Operation.value? id) = none ∧ fault = .missingAssociation kind.name id
  has : ∀ (α : Type) (id : Int),
    s.has kind id = true ↔ ∃ value, s.get (α := α) kind id = .ok value
  count : s.count kind = (ops.filterMap Operation.point?).toFinset.card
  missing : ∀ ids, s.missing kind ids = ids.filter fun id => !s.has kind id
  state : s.state kind = (ops.findSome? Operation.state?).getD .unset

theorem Recalls.answers {ops : List (Operation V)} (recalls : s.Recalls kind ops) :
    s.Answers kind ops := by
  refine ⟨?_, ?_, ?_, recalls.count, fun ids => rfl, recalls.state⟩
  · intro α id value
    rw [get_ok_iff, recalls.find?]
  · intro α id fault
    rw [get_error_iff, recalls.find?]
  · intro α id
    simp only [has_iff_find?, get_ok_iff]

/-- A store answers what the journal says: the last value that was set for a point since the kind was
cleared, how many points have one and which of some have none, and the last state. Operations on
another kind change none of these answers, and the name of the local analyses is their kind. -/
theorem answers_follow_journal (label : Kind.Label) :
    (∀ journal : List (Operation V),
      (empty.replay journal).Answers label.kind (recent label.kind journal)) ∧
    (∀ (before after : List (Operation V)) (op : Operation V), op.kind ≠ label.kind →
      Alike label.kind (empty.replay (before ++ op :: after)) (empty.replay (before ++ after))) ∧
    ∀ name, (Kind.Label.named name).kind = Kind.Label.localPca.kind ↔ name = "local_pca" := by
  refine ⟨?_, ?_, ?_⟩
  · intro journal
    exact (recalls_replay label.kind journal).answers
  · intro before after op other
    have recalls := recalls_replay label.kind (before ++ op :: after)
    rw [recent_skip before other after] at recalls
    exact recalls.alike (recalls_replay label.kind (before ++ after))
  · intro name
    simp [Kind.Label.kind, Kind.localPca]

/-- The local analyses are stored and cleared under either label, between values of another kind. -/
def relabelled : List (Operation Nat) :=
  [.set ⟨.localPca, 1, 10⟩, .setState .localPca .ready, .clear (.named "local_pca"),
    .set ⟨.named "tag", 1, 5⟩, .set ⟨.named "local_pca", 2, 20⟩, .set ⟨.localPca, 2, 21⟩,
    .set ⟨.localPca, 3, 30⟩]

theorem answers_follow_journal_relabelled :
    (empty.replay relabelled).get (α := Nat) .localPca 2 = .ok 21 ∧
    (empty.replay relabelled).get (α := Nat) .localPca 1 =
      .error (.missingAssociation "local_pca" 1) ∧
    (empty.replay relabelled).count .localPca = 2 ∧
    (empty.replay relabelled).state .localPca = .unset ∧
    Kind.Label.kind (.named "tag") ≠ Kind.localPca ∧
    Alike .localPca (empty.replay relabelled) (empty.replay (relabelled.eraseIdx 3)) := by
  obtain ⟨answers, unrelated, _⟩ := answers_follow_journal (V := Nat) (.named "local_pca")
  have store := answers relabelled
  have apart : Kind.Label.kind (.named "tag") ≠ Kind.localPca := by decide
  refine ⟨?_, ?_, ?_, ?_, apart, ?_⟩
  · exact (store.get Nat 2 21).mpr (by decide)
  · exact (store.missing_get Nat 1 _).mpr ⟨by decide, rfl⟩
  · exact store.count.trans (by decide)
  · exact store.state.trans (by decide)
  · exact unrelated (relabelled.take 3) (relabelled.drop 4) (.set ⟨.named "tag", 1, 5⟩) apart

end Answers

end LocalMetric.Associations
