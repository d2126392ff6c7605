import Mathlib.Data.List.Infix
import Mathlib.Algebra.Order.BigOperators.Group.List
import Mathlib.Algebra.Order.Ring.Nat
import LocalMetric.Path
/-!
# Paths that stay below a directory

A path that is taken from a directory leads below it, or back to it, or out of it. Which of these it
does is read off its segments; the directory makes a difference only to paths that leave it on the
way.
-/
namespace LocalMetric.Path

/-- Strictly below a directory, for paths that are resolved. -/
def Inside (outer inner : Path) : Prop :=
  inner.root = outer.root ∧ outer.segments <+: inner.segments ∧ inner.segments ≠ outer.segments

instance : DecidableRel Inside := fun _ _ => inferInstanceAs (Decidable (_ ∧ _ ∧ _))

/-- Follows a segment as `climb` does, but not out of the directory that the names are below of. -/
def climb? (names : List String) (segment : String) : Option (List String) :=
  if segment = ".." then names.tail? else some (segment :: names)

/-- Where segments lead below a directory, the last name first, unless they leave it on the way. -/
def descend (names segments : List String) : Option (List String) := segments.foldlM climb? names

/-- Wherever the path is taken from, it leads below that directory without leaving it on the way. -/
def Confined (p : Path) : Prop :=
  p.root = .relative ∧ ∃ names ∈ descend [] p.segments, names ≠ []

def Plain (name : String) : Prop :=
  '/' ∉ name.toList ∧ name ≠ "" ∧ name ≠ "." ∧ name ≠ ".."

instance : DecidablePred Confined := fun _ => inferInstanceAs (Decidable (_ ∧ _))

instance : DecidablePred Plain := fun _ => inferInstanceAs (Decidable (_ ∧ _ ∧ _))

/-! ## Following segments -/

theorem mem_foldl_climb {segments visited : List String} {name : String}
    (member : name ∈ segments.foldl climb visited) : name ∈ visited ∨ name ∈ segments := by
  induction segments generalizing visited with
  | nil => exact .inl member
  | cons segment rest ih =>
      rcases ih member with climbed | later
      · rw [climb] at climbed
        split at climbed
        · exact .inl (List.mem_of_mem_tail climbed)
        · rcases List.mem_cons.mp climbed with rfl | before
          · exact .inr List.mem_cons_self
          · exact .inl before
      · exact .inr (List.mem_cons_of_mem _ later)

theorem climb_append {names names' : List String} {segment : String}
    (followed : climb? names segment = some names') (base : List String) :
    climb (names ++ base) segment = names' ++ base := by
  by_cases up : segment = ".."
  · rw [climb?, if_pos up] at followed
    rw [climb, if_pos up]
    cases names with
    | nil => cases followed
    | cons name above =>
        obtain rfl : above = names' := Option.some.inj followed
        rfl
  · rw [climb?, if_neg up] at followed
    obtain rfl : segment :: names = names' := Option.some.inj followed
    exact if_neg up

theorem climb?_eq_none {names : List String} {segment : String}
    (left : climb? names segment = none) : segment = ".." ∧ names = [] := by
  rw [climb?] at left
  split at left
  · cases names with
    | nil => exact ⟨‹_›, rfl⟩
    | cons name above => cases left
  · cases left

theorem descend_cons (names rest : List String) (segment : String) :
    descend names (segment :: rest) = (climb? names segment).bind (descend · rest) :=
  List.foldlM_cons

/-- Segments that never leave the directory change only what is below it. -/
theorem foldl_climb_of_descend {segments names below : List String}
    (stays : descend names segments = some below) (base : List String) :
    segments.foldl climb (names ++ base) = below ++ base := by
  induction segments generalizing names with
  | nil =>
      obtain rfl : names = below := Option.some.inj stays
      rfl
  | cons segment rest ih =>
      rw [descend_cons] at stays
      obtain ⟨names', followed, stays⟩ := Option.bind_eq_some_iff.mp stays
      rw [List.foldl_cons, climb_append followed]
      exact ih stays

/-- Segments that leave the directory drop its name, and do not bring it back unless it is one of
them. -/
theorem notMem_foldl_climb_of_descend {segments names : List String} {name : String}
    (leaves : descend names segments = none) (fresh : name ∉ segments) :
    name ∉ segments.foldl climb (names ++ [name]) := by
  induction segments generalizing names with
  | nil => cases leaves
  | cons segment rest ih =>
      have later : name ∉ rest := fun member => fresh (List.mem_cons_of_mem _ member)
      rw [descend_cons] at leaves
      rw [List.foldl_cons]
      cases followed : climb? names segment with
      | none =>
          obtain ⟨rfl, rfl⟩ := climb?_eq_none followed
          intro member
          exact (mem_foldl_climb member).elim List.not_mem_nil later
      | some names' =>
          rw [followed] at leaves
          rw [climb_append followed]
          exact ih leaves later

/-! ## Names -/

theorem splitSlashes_of_notMem {cs : List Char} (whole : '/' ∉ cs) : splitSlashes cs = [cs] := by
  induction cs with
  | nil => rfl
  | cons c cs ih =>
      obtain ⟨ne, rest⟩ := List.ne_and_not_mem_of_not_mem_cons whole
      rw [splitSlashes, if_neg ne.symm, ih rest]

theorem rootOf_of_notMem {cs : List Char} (whole : '/' ∉ cs) : rootOf cs = .relative := by
  unfold rootOf
  split <;> first | rfl | exact absurd List.mem_cons_self whole

theorem ofText_of_plain {name : String} (plain : Plain name) :
    ofText name = ⟨.relative, [name]⟩ := by
  obtain ⟨whole, filled, other, _⟩ := plain
  rw [ofText, rootOf_of_notMem whole, splitSegments, splitSlashes_of_notMem whole]
  simp [filled, other]

theorem confined_of_plain {name : String} (plain : Plain name) : (ofText name).Confined := by
  rw [ofText_of_plain plain]
  refine ⟨rfl, [name], ?_, List.cons_ne_nil _ _⟩
  rw [descend_cons, climb?, if_neg plain.2.2.2]
  rfl

theorem parent_child {p : Path} {name : String} (plain : Plain name) :
    (p.child name).parent = p := by
  rw [child, ofText_of_plain plain]
  simp [join, isAbsolute, parent]

/-- A text with anything but points in it is a name, if there is no slash in it. -/
theorem plain_of_mem {name : String} {c : Char} (whole : '/' ∉ name.toList)
    (member : c ∈ name.toList) (letter : c ≠ '.') : Plain name := by
  refine ⟨whole, ?_, ?_, ?_⟩
  · rintro rfl
    exact absurd member List.not_mem_nil
  · rintro rfl
    exact letter (by simpa using member)
  · rintro rfl
    exact letter (by simpa using member)

/-- Some name is none of the given ones. -/
theorem exists_plain_notMem (names : List String) : ∃ name, Plain name ∧ name ∉ names := by
  let size := (names.map String.length).sum + 1
  let name := String.ofList (List.replicate size 'x')
  have spelt : name.toList = List.replicate size 'x' := String.toList_ofList
  have first : 'x' ∈ name.toList := by
    rw [spelt]
    exact List.mem_replicate.mpr ⟨Nat.succ_ne_zero _, rfl⟩
  have whole : '/' ∉ name.toList := by
    intro slash
    rw [spelt] at slash
    exact absurd (List.eq_of_mem_replicate slash) (by decide)
  refine ⟨name, plain_of_mem whole first (by decide), fun member => ?_⟩
  have long : name.length = size := by
    rw [String.length_ofList, List.length_replicate]
  have short : name.length ≤ (names.map String.length).sum :=
    List.single_le_sum (fun _ _ => Nat.zero_le _) _ (List.mem_map_of_mem member)
  omega

theorem child_of_plain {name : String} (plain : Plain name) (p : Path) :
    p.child name = ⟨p.root, p.segments ++ [name]⟩ := by
  rw [child, ofText_of_plain plain]
  rfl

theorem join_child (directory p : Path) {name : String} (plain : Plain name) :
    (directory.join (p.child name)).segments = (directory.join p).segments ++ [name] := by
  rw [child_of_plain plain]
  unfold join
  split
  · rename_i absolute
    rw [if_pos (show p.isAbsolute = true from absolute)]
  · rename_i relative
    rw [if_neg (show ¬p.isAbsolute = true from relative), List.append_assoc]

/-! ## Texts -/

theorem intercalate_concat {names : List String} (filled : names ≠ []) (separator name : String) :
    separator.intercalate (names ++ [name]) = separator.intercalate names ++ (separator ++ name) := by
  induction names with
  | nil => exact absurd rfl filled
  | cons first rest ih =>
      cases rest with
      | nil => simp [String.intercalate_cons_of_ne_nil, String.append_assoc]
      | cons second rest =>
          rw [List.cons_append, String.intercalate_cons_of_ne_nil (by simp),
            ih (List.cons_ne_nil _ _), String.intercalate_cons_of_ne_nil (List.cons_ne_nil _ _),
            String.append_assoc, String.append_assoc, String.append_assoc]

/-- The text of a path below a directory ends with the name, and is no shorter than that of the
directory. -/
theorem exists_text_child {name : String} (plain : Plain name) (p : Path) :
    ∃ lead, (p.child name).text = lead ++ name ∧
      p.text.utf8ByteSize ≤ (p.child name).text.utf8ByteSize := by
  rw [child_of_plain plain]
  obtain ⟨root, segments⟩ := p
  have filled : 0 < name.utf8ByteSize :=
    Nat.pos_of_ne_zero fun empty => plain.2.1 (String.utf8ByteSize_eq_zero_iff.mp empty)
  by_cases empty : segments = []
  · subst empty
    cases root with
    | relative => exact ⟨"", rfl, filled⟩
    | slash => exact ⟨"/", rfl, by simp [text]⟩
    | doubleSlash => exact ⟨"//", rfl, by simp [text]⟩
  · have names := intercalate_concat empty "/" name
    cases root with
    | relative =>
        refine ⟨"/".intercalate segments ++ "/", ?_, ?_⟩
        · simp [text, names, String.append_assoc]
        · simp [text, names, empty]
    | slash =>
        refine ⟨"/" ++ ("/".intercalate segments ++ "/"), ?_, ?_⟩
        · simp [text, names, String.append_assoc]
        · simp [text, names]
    | doubleSlash =>
        refine ⟨"//" ++ ("/".intercalate segments ++ "/"), ?_, ?_⟩
        · simp [text, names, String.append_assoc]
        · simp [text, names]

/-! ## Resolving -/

theorem resolve_join {q : Path} (relative : q.root = .relative) (directory p : Path) :
    directory.resolve (p.join q) =
      ⟨.slash, (q.segments.foldl climb (directory.resolve p).segments.reverse).reverse⟩ := by
  have joined :
      (directory.join (p.join q)).segments = (directory.join p).segments ++ q.segments := by
    by_cases other : p.root = .relative <;> simp [join, isAbsolute, relative, other]
  rw [resolve, joined, List.foldl_append, resolve, List.reverse_reverse]

theorem inside_join {q : Path} (confined : q.Confined) (directory p : Path) :
    (directory.resolve p).Inside (directory.resolve (p.join q)) := by
  obtain ⟨relative, names, stays, below⟩ := confined
  have followed : q.segments.foldl climb (directory.resolve p).segments.reverse =
      names ++ (directory.resolve p).segments.reverse := foldl_climb_of_descend stays _
  rw [resolve_join relative, followed]
  refine ⟨rfl, ?_, ?_⟩ <;> simp only [List.reverse_append, List.reverse_reverse]
  · exact List.prefix_append _ _
  · exact fun same => below (List.reverse_eq_nil_iff.mp (List.append_right_eq_self.mp same))

theorem Inside.trans {p q r : Path} (first : p.Inside q) (second : q.Inside r) : p.Inside r := by
  obtain ⟨root, below, ne⟩ := first
  obtain ⟨root', below', ne'⟩ := second
  refine ⟨root'.trans root, below.trans below', fun same => ne ?_⟩
  exact (below.eq_of_length_le ((same ▸ below').length_le)).symm

/-- A path that leads below every directory is confined. It is enough to take it from directories of
the root. -/
theorem confined_of_inside {q : Path}
    (inside : ∀ name, Plain name →
      (resolve ⟨.slash, []⟩ (child ⟨.slash, []⟩ name)).Inside
        (resolve ⟨.slash, []⟩ ((child ⟨.slash, []⟩ name).join q))) : q.Confined := by
  obtain ⟨name, plain, fresh⟩ := exists_plain_notMem q.segments
  have base : resolve ⟨.slash, []⟩ (child ⟨.slash, []⟩ name) = ⟨.slash, [name]⟩ := by
    rw [child, ofText_of_plain plain]
    simp [join, isAbsolute, resolve, climb, plain.2.2.2]
  have within := inside name plain
  rw [base] at within
  obtain ⟨-, below, ne⟩ := within
  have kept := below.subset List.mem_cons_self
  by_cases relative : q.root = .relative
  · rw [resolve_join relative, base] at kept ne
    cases led : descend [] q.segments with
    | none =>
        exact absurd (List.mem_reverse.mp kept)
          (notMem_foldl_climb_of_descend led fresh)
    | some names =>
        refine ⟨relative, names, led, ?_⟩
        rintro rfl
        exact absurd (congrArg List.reverse (foldl_climb_of_descend led [name])) ne
  · have absolute : q.isAbsolute = true := decide_eq_true relative
    simp only [resolve, join, absolute, if_true] at kept
    exact ((mem_foldl_climb (List.mem_reverse.mp kept)).elim List.not_mem_nil fresh).elim

end LocalMetric.Path
