import LocalMetric.Proofs.Journals
/-!
# Writers that share no point

Values for different points, or of different kinds, may be stored in either order. So however the
writes of several writers are interleaved, if no two writers store for the same point and kind, the
store answers as if they had run one after another.
-/
namespace LocalMetric.Associations

variable {V : Type} {s t u : Associations V} {kind : Kind} {id : Int}

def Write.key (w : Write V) : Kind × Int := (w.label.kind, w.id)

def writeAll (s : Associations V) (writes : List (Write V)) : Associations V :=
  s.replay (writes.map .set)

/-- An order in which the writes of several writers may take effect. The next one is always the first
that one of the writers has left. -/
inductive Interleaving : List (List (Write V)) → List (Write V) → Prop
  | finished {writers} : (∀ writer ∈ writers, writer = []) → Interleaving writers []
  | step {before after : List (List (Write V))} {w : Write V} {rest schedule : List (Write V)} :
      Interleaving (before ++ rest :: after) schedule →
      Interleaving (before ++ (w :: rest) :: after) (w :: schedule)

def Apart (a b : List (Write V)) : Prop := ∀ x ∈ a, ∀ y ∈ b, x.key ≠ y.key

theorem Apart.symm {a b : List (Write V)} (apart : Apart a b) : Apart b a := by
  intro x hx y hy
  exact (apart y hy x hx).symm

section Single

variable {w x y : Write V}

theorem find?_apply_set (s : Associations V) (w : Write V) (kind : Kind) (id : Int) :
    (s.apply (.set w)).find? kind id = if w.key = (kind, id) then some w.value else s.find? kind id := by
  by_cases same : w.key = (kind, id)
  · rw [if_pos same]
    obtain ⟨rfl, rfl⟩ := Prod.mk.inj same
    exact s.find?_set_self _ _ _
  · rw [if_neg same]
    by_cases here : kind = w.label.kind
    · subst here
      have distinct : id ≠ w.id := by
        intro equal
        exact same (congrArg _ equal.symm)
      exact s.find?_set_of_id_ne _ distinct _
    · exact s.find?_set_of_kind_ne here _ _ _

theorem has_apply_set_of_ne (s : Associations V) (other : w.key ≠ (kind, id)) :
    (s.apply (.set w)).has kind id = s.has kind id := by
  rw [has, has, find?_apply_set, if_neg other]

theorem count_apply_set (s : Associations V) (w : Write V) (kind : Kind) :
    (s.apply (.set w)).count kind =
      if w.label.kind = kind ∧ s.has kind w.id = false then s.count kind + 1 else s.count kind := by
  by_cases here : w.label.kind = kind
  · subst here
    have count := s.count_set_self w.label.kind w.id w.value
    cases known : s.has w.label.kind w.id with
    | true => simpa [apply, known] using count
    | false => simpa [apply, known] using count
  · rw [if_neg fun both => here both.1]
    exact s.count_set_of_ne (Ne.symm here) _ _

end Single

structure Agree (s t : Associations V) : Prop where
  find? : ∀ kind id, s.find? kind id = t.find? kind id
  count : ∀ kind, s.count kind = t.count kind
  state : ∀ kind, s.state kind = t.state kind

namespace Agree

theorem refl (s : Associations V) : Agree s s := ⟨fun _ _ => rfl, fun _ => rfl, fun _ => rfl⟩

theorem trans (first : Agree s t) (second : Agree t u) : Agree s u := by
  constructor
  · intro kind id
    exact (first.find? kind id).trans (second.find? kind id)
  · intro kind
    exact (first.count kind).trans (second.count kind)
  · intro kind
    exact (first.state kind).trans (second.state kind)

theorem alike (agree : Agree s t) (kind : Kind) : Alike kind s t :=
  alike_of_find? (agree.find? kind) (agree.count kind) (agree.state kind)

theorem apply_set (agree : Agree s t) (w : Write V) :
    Agree (s.apply (.set w)) (t.apply (.set w)) := by
  constructor
  · intro kind id
    rw [find?_apply_set, find?_apply_set, agree.find?]
  · intro kind
    rw [count_apply_set, count_apply_set, has, has, agree.find?, agree.count]
  · intro kind
    exact agree.state kind

theorem writeAll (agree : Agree s t) (writes : List (Write V)) :
    Agree (s.writeAll writes) (t.writeAll writes) := by
  induction writes generalizing s t with
  | nil => exact agree
  | cons w rest ih => exact ih (agree.apply_set w)

end Agree

section Commutation

/-- Two values under different keys may be stored in either order. -/
theorem agree_swap (s : Associations V) {x y : Write V} (apart : x.key ≠ y.key) :
    Agree ((s.apply (.set x)).apply (.set y)) ((s.apply (.set y)).apply (.set x)) := by
  constructor
  · intro kind id
    simp only [find?_apply_set]
    by_cases hx : x.key = (kind, id)
    · have hy : y.key ≠ (kind, id) := hx ▸ apart.symm
      simp only [hx, hy, if_true, if_false]
    · simp only [hx, if_false]
  · intro kind
    have hasX (here : x.label.kind = kind) : (s.apply (.set y)).has kind x.id = s.has kind x.id :=
      s.has_apply_set_of_ne (here ▸ apart.symm)
    have hasY (here : y.label.kind = kind) : (s.apply (.set x)).has kind y.id = s.has kind y.id :=
      s.has_apply_set_of_ne (here ▸ apart)
    simp only [count_apply_set]
    by_cases hx : x.label.kind = kind
    · by_cases hy : y.label.kind = kind
      · simp only [hx, hy, hasX hx, hasY hy, true_and]
        split <;> split <;> rfl
      · simp only [hx, hy, hasX hx, false_and, if_false]
    · by_cases hy : y.label.kind = kind
      · simp only [hx, hy, hasY hy, false_and, if_false]
      · simp only [hx, hy, false_and, if_false]
  · intro kind
    rfl

/-- A value may be stored later if nothing is stored for its point in between. -/
theorem agree_move (s : Associations V) {w : Write V} {between : List (Write V)}
    (apart : ∀ x ∈ between, x.key ≠ w.key) (rest : List (Write V)) :
    Agree (s.writeAll (w :: (between ++ rest))) (s.writeAll (between ++ w :: rest)) := by
  induction between generalizing s with
  | nil => exact .refl _
  | cons x between ih =>
      have swapped := (s.agree_swap (apart x List.mem_cons_self).symm).writeAll (between ++ rest)
      exact swapped.trans
        (ih (s.apply (.set x)) fun y member => apart y (List.mem_cons_of_mem x member))

theorem writeAll_append (s : Associations V) (first second : List (Write V)) :
    s.writeAll (first ++ second) = (s.writeAll first).writeAll second := by
  rw [writeAll, List.map_append, replay_append]
  rfl

theorem agree_append_comm (s : Associations V) {first second : List (Write V)}
    (apart : Apart first second) (rest : List (Write V)) :
    Agree (s.writeAll (first ++ (second ++ rest))) (s.writeAll (second ++ (first ++ rest))) := by
  induction first generalizing s with
  | nil => exact .refl _
  | cons w first ih =>
      have later := ih (s.apply (.set w)) fun x member => apart x (List.mem_cons_of_mem w member)
      exact later.trans (s.agree_move (apart.symm · · w List.mem_cons_self) (first ++ rest))

/-- Writers that share no key may run one after another in any order. -/
theorem agree_of_perm {order writers : List (List (Write V))} (perm : order.Perm writers)
    (apart : order.Pairwise Apart) (s : Associations V) :
    Agree (s.writeAll order.flatten) (s.writeAll writers.flatten) := by
  induction perm generalizing s with
  | nil => exact .refl s
  | cons writer _ ih =>
      rw [List.flatten_cons, List.flatten_cons, writeAll_append, writeAll_append]
      exact ih (List.pairwise_cons.mp apart).2 _
  | swap a b rest =>
      have ab := (List.pairwise_cons.mp apart).1 a List.mem_cons_self
      exact s.agree_append_comm ab rest.flatten
  | trans first _ ih ih' =>
      exact (ih apart s).trans (ih' (first.pairwise apart Apart.symm) s)

end Commutation

section Interleavings

variable {before after writers : List (List (Write V))} {w : Write V} {rest schedule : List (Write V)}

theorem apart_rest (apart : (before ++ (w :: rest) :: after).Pairwise Apart) :
    (before ++ rest :: after).Pairwise Apart := by
  rw [List.pairwise_append, List.pairwise_cons] at apart ⊢
  obtain ⟨pre, ⟨here, post⟩, across⟩ := apart
  refine ⟨pre, ⟨?_, post⟩, ?_⟩
  · intro b member x hx
    exact here b member x (List.mem_cons_of_mem w hx)
  · intro a ha b hb
    rcases List.mem_cons.mp hb with rfl | later
    · intro x hx y hy
      exact across a ha (w :: b) List.mem_cons_self x hx y (List.mem_cons_of_mem w hy)
    · exact across a ha b (List.mem_cons_of_mem _ later)

theorem apart_before (apart : (before ++ (w :: rest) :: after).Pairwise Apart) :
    ∀ x ∈ before.flatten, x.key ≠ w.key := by
  intro x member
  obtain ⟨a, ha, hx⟩ := List.mem_flatten.mp member
  have across := (List.pairwise_append.mp apart).2.2 a ha (w :: rest) List.mem_cons_self
  exact across x hx w List.mem_cons_self

/-- Every interleaving of writers that share no key comes to the same as the writers in turn. -/
theorem Interleaving.agree (run : Interleaving writers schedule) (apart : writers.Pairwise Apart)
    (s : Associations V) : Agree (s.writeAll schedule) (s.writeAll writers.flatten) := by
  induction run generalizing s with
  | finished idle =>
      rw [List.flatten_eq_nil_iff.mpr idle]
      exact .refl s
  | @step before after w rest schedule _ ih =>
      have later := ih (apart_rest apart) (s.apply (.set w))
      have moved := s.agree_move (apart_before apart) (rest ++ after.flatten)
      rw [List.flatten_append, List.flatten_cons] at later ⊢
      exact later.trans moved

end Interleavings

section Values

theorem find?_writeAll_of_untouched (s : Associations V) {writes : List (Write V)}
    (untouched : ∀ w ∈ writes, w.key ≠ (kind, id)) :
    (s.writeAll writes).find? kind id = s.find? kind id := by
  induction writes generalizing s with
  | nil => rfl
  | cons w rest ih =>
      have later := ih (s.apply (.set w)) fun x member => untouched x (List.mem_cons_of_mem w member)
      rw [find?_apply_set, if_neg (untouched w List.mem_cons_self)] at later
      exact later

theorem find?_writeAll_last (s : Associations V) (before : List (Write V)) {w : Write V}
    {after : List (Write V)} (last : ∀ x ∈ after, x.key ≠ w.key) :
    (s.writeAll (before ++ w :: after)).find? w.label.kind w.id = some w.value := by
  rw [writeAll_append]
  have later := ((s.writeAll before).apply (.set w)).find?_writeAll_of_untouched last
  rw [find?_apply_set, Write.key, if_pos rfl] at later
  exact later

theorem state_writeAll (s : Associations V) (writes : List (Write V)) (kind : Kind) :
    (s.writeAll writes).state kind = s.state kind := by
  induction writes generalizing s with
  | nil => rfl
  | cons w rest ih => exact ih (s.apply (.set w))

theorem foldl_writeAll (s : Associations V) (order : List (List (Write V))) :
    order.foldl writeAll s = s.writeAll order.flatten := by
  induction order generalizing s with
  | nil => rfl
  | cons writer order ih => rw [List.foldl_cons, ih, List.flatten_cons, writeAll_append]

/-- Writers that share no point of a kind leave the same store behind however their writes are
interleaved: it answers as if they had run one after another in any order. Each point has the value
that its writer stored last for it, all other points have what they had, and so do the states. -/
theorem interleaved_writers (start : Associations V) {writers : List (List (Write V))}
    {schedule : List (Write V)} (apart : writers.Pairwise Apart)
    (run : Interleaving writers schedule) :
    (∀ order : List (List (Write V)), order.Perm writers → ∀ kind,
      Alike kind (start.writeAll schedule) (order.foldl writeAll start)) ∧
    (∀ writer ∈ writers, ∀ before w after, writer = before ++ w :: after →
      (∀ x ∈ after, x.key ≠ w.key) →
        ∀ α, (start.writeAll schedule).get (α := α) w.label.kind w.id = .ok w.value) ∧
    (∀ kind id, (∀ writer ∈ writers, ∀ w ∈ writer, w.key ≠ (kind, id)) →
      ∀ α, (start.writeAll schedule).get (α := α) kind id = start.get kind id) ∧
    ∀ kind, (start.writeAll schedule).state kind = start.state kind := by
  have inTurn (order : List (List (Write V))) (perm : order.Perm writers) :
      Agree (start.writeAll schedule) (start.writeAll order.flatten) :=
    (run.agree apart start).trans (agree_of_perm perm.symm apart start)
  refine ⟨?_, ?_, ?_, ?_⟩
  · intro order perm kind
    rw [foldl_writeAll]
    exact (inTurn order perm).alike kind
  · -- The owner may as well come last.
    rintro writer member before w after rfl last α
    obtain ⟨front, back, rfl⟩ := List.append_of_mem member
    have agree := inTurn (front ++ (back ++ [before ++ w :: after]))
      ((List.perm_append_singleton _ back).append_left front)
    have final := start.find?_writeAll_last ((front ++ back).flatten ++ before) last
    simp only [List.flatten_append, List.flatten_cons, List.flatten_nil, List.append_nil,
      List.append_assoc] at agree final
    rw [get_ok_iff, agree.find?, final]
  · intro kind id untouched α
    have other : ∀ w ∈ writers.flatten, w.key ≠ (kind, id) := by
      intro w member
      obtain ⟨writer, owner, own⟩ := List.mem_flatten.mp member
      exact untouched writer owner w own
    have kept := start.find?_writeAll_of_untouched other
    exact get_congr (((inTurn writers (.refl _)).find? kind id).trans kept) α
  · intro kind
    exact start.state_writeAll schedule kind

/-- One writer stores twice for a point that the other one uses under another kind. -/
def couple : List (List (Write Nat)) :=
  [[⟨.localPca, 1, 10⟩, ⟨.named "local_pca", 1, 11⟩], [⟨.named "tag", 1, 5⟩, ⟨.localPca, 2, 20⟩]]

def woven : List (Write Nat) :=
  [⟨.named "tag", 1, 5⟩, ⟨.localPca, 1, 10⟩, ⟨.localPca, 2, 20⟩, ⟨.named "local_pca", 1, 11⟩]

theorem interleaved_writers_couple :
    couple.Pairwise Apart ∧ Interleaving couple woven ∧
    Alike .localPca ((empty.set .localPca 9 0).writeAll woven)
      (couple.reverse.foldl writeAll (empty.set .localPca 9 0)) ∧
    ((empty.set .localPca 9 0).writeAll woven).get (α := Nat) .localPca 1 = .ok 11 ∧
    ((empty.set .localPca 9 0).writeAll woven).get (α := Nat) .localPca 9 = .ok 0 := by
  have apart : couple.Pairwise Apart := by
    simp [couple, Apart, Write.key, Kind.Label.kind, Kind.localPca]
  have finished : Interleaving (V := Nat) [[], []] [] := .finished (by simp)
  have run : Interleaving couple woven :=
    @Interleaving.step _ [couple[0]] [] ⟨.named "tag", 1, 5⟩ [⟨.localPca, 2, 20⟩] _ <|
    @Interleaving.step _ [] _ _ _ _ <|
    @Interleaving.step _ [[⟨.named "local_pca", 1, 11⟩]] [] _ _ _ <|
    @Interleaving.step _ [] _ _ _ _ finished
  obtain ⟨inTurn, owned, kept, _⟩ := interleaved_writers (empty.set .localPca 9 0) apart run
  refine ⟨apart, run, inTurn _ (List.reverse_perm couple) _, ?_, ?_⟩
  · exact owned _ List.mem_cons_self [⟨.localPca, 1, 10⟩] ⟨.named "local_pca", 1, 11⟩ [] rfl
      (by simp) Nat
  · have untouched : ∀ writer ∈ couple, ∀ w ∈ writer, w.key ≠ (.localPca, 9) := by
      simp [couple, Write.key]
    exact (kept .localPca 9 untouched Nat).trans (get_ok_iff.mpr (find?_set_self ..))

end Values

end LocalMetric.Associations
