import Mathlib.Data.List.Forall2
import LocalMetric.Fault
/-!
# Answers that may be refused

A sequence of steps answers if every step does, and a function applied along a list answers if it
answers at every item. A refusal is passed on unchanged.
-/
namespace LocalMetric.Checked

variable {α β γ : Type}

theorem bind_ok_iff {x : Checked α β} {f : β → Checked α γ} {c : γ} :
    (x >>= f) = .ok c ↔ ∃ b, x = .ok b ∧ f b = .ok c := by
  cases x with
  | error fault =>
      constructor
      · intro h
        cases h
      · rintro ⟨b, h, _⟩
        cases h
  | ok b =>
      constructor
      · exact fun h => ⟨b, rfl, h⟩
      · rintro ⟨_, h, answer⟩
        cases h
        exact answer

theorem bind_error_iff {x : Checked α β} {f : β → Checked α γ} {fault : Fault α} :
    (x >>= f) = .error fault ↔ x = .error fault ∨ ∃ b, x = .ok b ∧ f b = .error fault := by
  cases x with
  | error first =>
      constructor
      · intro h
        cases h
        exact .inl rfl
      · rintro (h | ⟨b, h, _⟩)
        · cases h
          rfl
        · cases h
  | ok b =>
      constructor
      · exact fun h => .inr ⟨b, rfl, h⟩
      · rintro (h | ⟨_, h, refused⟩)
        · cases h
        · cases h
          exact refused

theorem eq_ok_of_toOption {x : Checked α β} {b : β} (same : x.toOption = some b) : x = .ok b := by
  cases x with
  | error fault => cases same
  | ok c => exact congrArg Except.ok (Option.some.inj same)

theorem map_error_iff {x : Checked α β} {f : β → γ} {fault : Fault α} :
    f <$> x = .error fault ↔ x = .error fault := by
  cases x with
  | error first =>
      change Except.error first = _ ↔ _
      simp only [Except.error.injEq]
  | ok b => exact iff_of_false nofun nofun

/-- Answers that agree but for their values are refused for the same reason. -/
theorem error_iff_of_map_eq {x : Checked α β} {y : Checked α γ}
    (same : x.map (fun _ => ()) = y.map fun _ => ()) {fault : Fault α} :
    x = .error fault ↔ y = .error fault := by
  cases x with
  | error first =>
      cases y with
      | error second =>
          cases same
          simp only [Except.error.injEq]
      | ok c => cases same
  | ok b =>
      cases y with
      | error second => cases same
      | ok c => simp only [reduceCtorEq]

theorem pure_ok_iff {b c : β} : (pure b : Checked α β) = .ok c ↔ b = c :=
  ⟨Except.ok.inj, congrArg Except.ok⟩

section Lists

variable {f : β → Checked α γ} {xs : List β}

/-- A list is answered item by item. -/
theorem mapM_ok_iff {ys : List γ} :
    xs.mapM f = .ok ys ↔ List.Forall₂ (fun x y => f x = .ok y) xs ys := by
  induction xs generalizing ys with
  | nil => rw [List.mapM_nil, pure_ok_iff, List.forall₂_nil_left_iff, eq_comm]
  | cons x xs ih =>
      simp only [List.mapM_cons, bind_ok_iff, pure_ok_iff, ih, List.forall₂_cons_left_iff]
      constructor
      · rintro ⟨y, first, zs, rest, rfl⟩
        exact ⟨y, zs, first, rest, rfl⟩
      · rintro ⟨y, zs, first, rest, rfl⟩
        exact ⟨y, first, zs, rest, rfl⟩

/-- Related lists pair every item of the first one with a related item. -/
theorem exists_mem_zip {R : β → γ → Prop} {ys : List γ} (related : List.Forall₂ R xs ys) {x : β}
    (member : x ∈ xs) : ∃ y, (x, y) ∈ xs.zip ys ∧ R x y := by
  induction related with
  | nil => cases member
  | @cons first y rest ys here _ ih =>
      rcases List.mem_cons.mp member with rfl | later
      · exact ⟨y, List.mem_cons_self, here⟩
      · obtain ⟨z, paired, there⟩ := ih later
        exact ⟨z, List.mem_cons_of_mem _ paired, there⟩

/-- What related items have in common, related lists have in common. -/
theorem map_eq_of_forall₂ {R : β → γ → Prop} {ys : List γ} {δ : Type} {g : β → δ} {h : γ → δ}
    (related : List.Forall₂ R xs ys) (same : ∀ x y, R x y → g x = h y) : xs.map g = ys.map h := by
  induction related with
  | nil => rfl
  | cons here _ ih => exact congrArg₂ List.cons (same _ _ here) ih

/-- An order along one list is carried over to a related list. -/
theorem pairwise_of_forall₂ {R : β → γ → Prop} {S : β → β → Prop} {T : γ → γ → Prop} {ys : List γ}
    (related : List.Forall₂ R xs ys) (ordered : xs.Pairwise S)
    (carried : ∀ {x x' y y'}, R x y → R x' y' → S x x' → T y y') : ys.Pairwise T := by
  obtain ⟨same, each⟩ := List.forall₂_iff_get.mp related
  rw [List.pairwise_iff_getElem] at ordered ⊢
  intro i j inside_i inside_j before
  exact carried (each i (same ▸ inside_i) inside_i) (each j (same ▸ inside_j) inside_j)
    (ordered i j _ _ before)

theorem exists_forall₂_of_forall {R : β → γ → Prop} (related : ∀ x ∈ xs, ∃ y, R x y) :
    ∃ ys, List.Forall₂ R xs ys := by
  induction xs with
  | nil => exact ⟨[], .nil⟩
  | cons x xs ih =>
      obtain ⟨y, here⟩ := related x List.mem_cons_self
      obtain ⟨ys, rest⟩ := ih fun z member => related z (List.mem_cons_of_mem x member)
      exact ⟨y :: ys, .cons here rest⟩

/-- The refusal of a list is the refusal of one of its items. -/
theorem exists_of_mapM_error {fault : Fault α} (refused : xs.mapM f = .error fault) :
    ∃ x ∈ xs, f x = .error fault := by
  induction xs with
  | nil => cases refused
  | cons x xs ih =>
      simp only [List.mapM_cons, bind_error_iff] at refused
      rcases refused with first | ⟨_, _, rest | ⟨_, _, last⟩⟩
      · exact ⟨x, List.mem_cons_self, first⟩
      · obtain ⟨z, member, at_z⟩ := ih rest
        exact ⟨z, List.mem_cons_of_mem x member, at_z⟩
      · cases last

theorem exists_mapM_error {fault : Fault α} {x : β} (member : x ∈ xs)
    (refused : f x = .error fault) : ∃ first, xs.mapM f = .error first := by
  cases h : xs.mapM f with
  | error first => exact ⟨first, rfl⟩
  | ok ys =>
      obtain ⟨y, _, answer⟩ := exists_mem_zip (mapM_ok_iff.mp h) member
      rw [answer] at refused
      cases refused

end Lists

end LocalMetric.Checked
