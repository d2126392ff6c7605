import Mathlib.Data.List.Induction
import LocalMetric.Proofs.Checked
import LocalMetric.Proofs.Paths
import LocalMetric.Proofs.Stores
import LocalMetric.Run.Disk
/-!
# What stays on a disk

What is put at a place is found there, and nothing else is lost: directories stay directories, and
files stay what they are unless they are written again. So a path leads to the same place before and
after, and a directory that has been made once need not be made again.
-/
namespace LocalMetric

variable {α : Type}

namespace Node

variable {new node : Node α}

theorem at?_append (place rest : List String) (node : Node α) :
    at? (place ++ rest) node = (at? place node).bind (at? rest) := by
  induction place generalizing node with
  | nil => rfl
  | cons name place ih =>
      cases node with
      | file content => rfl
      | directory entries =>
          rw [List.cons_append, at?, at?]
          cases findEntry name entries with
          | none => rfl
          | some inner => exact ih inner

theorem at?_put_of_ne {name other : String} (apart : other ≠ name) (place rest : List String)
    (entries : List (String × Node α)) :
    at? (other :: rest) (put new (name :: place) (directory entries)) =
      at? (other :: rest) (directory entries) := by
  rw [put, at?, at?, findEntry_setEntry_of_ne apart]

theorem at?_put_same (name : String) (place rest : List String)
    (entries : List (String × Node α)) :
    at? (name :: rest) (put new (name :: place) (directory entries)) =
      at? rest (put new place ((findEntry name entries).getD (directory []))) := by
  rw [put, at?, findEntry_setEntry_self]
  rfl

/-- What is put into a directory is found there. -/
theorem at?_put_self {place : List String} {name : String} {entries : List (String × Node α)}
    (inside : at? place node = some (directory entries)) :
    at? (place ++ [name]) (put new (place ++ [name]) node) = some new := by
  induction place generalizing node with
  | nil =>
      cases inside
      exact at?_put_same name [] [] entries
  | cons first place ih =>
      cases node with
      | file content => cases inside
      | directory outer =>
          rw [at?] at inside
          obtain ⟨inner, found, inside⟩ := Option.bind_eq_some_iff.mp inside
          rw [List.cons_append, at?_put_same, found]
          exact ih inside

/-- What becomes of something that is not replaced: a file stays as it is, and a directory stays a
directory. -/
inductive Outlasts : Node α → Node α → Prop
  | file (content : Content α) : Outlasts (file content) (file content)
  | directory (old new : List (String × Node α)) : Outlasts (directory old) (directory new)

theorem Outlasts.refl (node : Node α) : node.Outlasts node := by
  cases node with
  | file content => exact .file content
  | directory entries => exact .directory entries entries

theorem Outlasts.trans {a b c : Node α} (first : a.Outlasts b) (second : b.Outlasts c) :
    a.Outlasts c := by
  cases first with
  | file => exact second
  | directory =>
      cases second
      exact .directory _ _

/-- Nothing but what is at a place is lost if something is put there, unless that is a directory. -/
theorem exists_at?_put {place other : List String} {old : Node α}
    (free : ∀ inner, at? place node ≠ some (directory inner)) (there : at? other node = some old) :
    other = place ∨ ∃ now, at? other (put new place node) = some now ∧ old.Outlasts now := by
  induction place generalizing other node with
  | nil =>
      cases node with
      | directory inner => exact absurd rfl (free inner)
      | file content =>
          cases other with
          | nil => exact .inl rfl
          | cons name rest => cases there
  | cons name place ih =>
      cases node with
      | file content => exact .inr ⟨old, there, .refl old⟩
      | directory outer =>
          cases other with
          | nil =>
              cases there
              exact .inr ⟨_, rfl, .directory _ _⟩
          | cons first rest =>
              by_cases same : first = name
              · subst same
                rw [at?] at there
                obtain ⟨inner, found, there⟩ := Option.bind_eq_some_iff.mp there
                rw [at?_put_same, found]
                refine (ih (fun entries blocked => free entries ?_) there).imp_left (congrArg _)
                rw [at?, found]
                exact blocked
              · rw [at?_put_of_ne same]
                exact .inr ⟨old, there, .refl old⟩

end Node

namespace Disk

variable {d d' d'' : Disk α} {changed : List String → Prop}

/-- What was on a disk is still there, but for files at places that may have changed. -/
def Keeps (changed : List String → Prop) (d d' : Disk α) : Prop :=
  ∀ place old, d.node? place = some old → (∀ content, old = .file content → ¬changed place) →
    ∃ now, d'.node? place = some now ∧ old.Outlasts now

theorem Keeps.refl (changed : List String → Prop) (d : Disk α) : Keeps changed d d :=
  fun _ old there _ => ⟨old, there, .refl old⟩

theorem Keeps.trans (first : Keeps changed d d') (second : Keeps changed d' d'') :
    Keeps changed d d'' := by
  intro place old there unchanged
  obtain ⟨now, there, outlasts⟩ := first place old there unchanged
  have unchanged (content : Content α) (same : now = .file content) : ¬changed place := by
    subst same
    cases outlasts
    exact unchanged content rfl
  obtain ⟨last, there, outlasts'⟩ := second place now there unchanged
  exact ⟨last, there, outlasts.trans outlasts'⟩

theorem Keeps.mono {changed' : List String → Prop} (keeps : Keeps changed d d')
    (implies : ∀ place, changed place → changed' place) : Keeps changed' d d' :=
  fun place old there unchanged =>
    keeps place old there fun content same may => unchanged content same (implies place may)

theorem Keeps.directory (keeps : Keeps changed d d') {place : List String}
    {entries : List (String × Node α)} (there : d.node? place = some (.directory entries)) :
    ∃ entries', d'.node? place = some (.directory entries') := by
  obtain ⟨now, there, outlasts⟩ := keeps place _ there nofun
  cases outlasts
  exact ⟨_, there⟩

theorem Keeps.file (keeps : Keeps changed d d') {place : List String} {content : Content α}
    (there : d.node? place = some (.file content)) (unchanged : ¬changed place) :
    d'.node? place = some (.file content) := by
  obtain ⟨now, there, outlasts⟩ := keeps place _ there fun _ _ => unchanged
  cases outlasts
  exact there

/-! ## Trails -/

/-- A trail of what is there: each step is looked up in the directory it is taken from. -/
def Walked (d : Disk α) : Trail α → Prop
  | [] => True
  | (name, node) :: rest => Walked d rest ∧
    ∃ entries, d.last? rest = some (.directory entries) ∧ node = findEntry name entries

theorem Trail.place_cons (name : String) (node : Option (Node α)) (rest : Trail α) :
    place ((name, node) :: rest) = place rest ++ [name] := by
  rw [place, List.map_cons, List.reverse_cons, place]

theorem Walked.last?_eq {t : Trail α} (walked : d.Walked t) : d.last? t = d.node? t.place := by
  induction t with
  | nil => rfl
  | cons step rest ih =>
      obtain ⟨name, node⟩ := step
      obtain ⟨before, entries, there, rfl⟩ := walked
      have found := (ih before).symm.trans there
      rw [Trail.place_cons, node?, Node.at?_append, ← node?, found]
      exact (Option.bind_fun_some _).symm

theorem Walked.tail {t : Trail α} (walked : d.Walked t) : d.Walked t.tail := by
  cases t with
  | nil => trivial
  | cons step rest => exact walked.1

/-- A segment is followed from a directory, upwards or to one of its names. -/
theorem follow_ok_iff {t next : Trail α} {segment : String} :
    d.follow t segment = .ok next ↔ ∃ entries, d.last? t = some (.directory entries) ∧
      ¬255 < segment.utf8ByteSize ∧
      next = if segment = ".." then t.tail else (segment, findEntry segment entries) :: t := by
  unfold follow
  split
  · rename_i missing
    exact iff_of_false nofun fun ⟨_, there, _⟩ => nomatch missing.symm.trans there
  · rename_i blocked
    exact iff_of_false nofun fun ⟨_, there, _⟩ => nomatch blocked.symm.trans there
  · rename_i entries there
    constructor
    · intro followed
      split at followed
      · cases followed
      · rename_i short
        refine ⟨entries, there, short, ?_⟩
        split at followed
        · rename_i up
          rw [if_pos up]
          exact (Except.ok.inj followed).symm
        · rename_i down
          rw [if_neg down]
          exact (Except.ok.inj followed).symm
    · rintro ⟨_, there', short, rfl⟩
      cases there.symm.trans there'
      rw [if_neg short]
      split <;> rfl

theorem Walked.follow {t next : Trail α} {segment : String} (walked : d.Walked t)
    (followed : d.follow t segment = .ok next) : d.Walked next := by
  obtain ⟨entries, there, _, rfl⟩ := follow_ok_iff.mp followed
  split
  · exact walked.tail
  · exact ⟨walked, entries, there, rfl⟩

def Trail.names (t : Trail α) : List String := t.map (·.1)

theorem Trail.names_tail (t : Trail α) : names t.tail = (names t).tail := List.map_tail

/-- On a disk that has kept what was there a segment is followed as before. -/
theorem Keeps.exists_follow (keeps : Keeps changed d d') {t t' next : Trail α} {segment : String}
    (walked : d.Walked t) (walked' : d'.Walked t') (same : t'.names = t.names)
    (followed : d.follow t segment = .ok next) :
    ∃ next', d'.follow t' segment = .ok next' ∧ next'.names = next.names := by
  obtain ⟨entries, there, short, rfl⟩ := follow_ok_iff.mp followed
  rw [walked.last?_eq, Trail.place, ← Trail.names, ← same] at there
  obtain ⟨entries', there'⟩ := keeps.directory there
  refine ⟨_, follow_ok_iff.mpr ⟨entries', walked'.last?_eq.trans there', short, rfl⟩, ?_⟩
  split
  · rw [Trail.names_tail, Trail.names_tail, same]
  · exact congrArg (segment :: ·) same

theorem locate_append (d : Disk α) (segments : List String) (segment : String) :
    d.locate (segments ++ [segment]) = d.locate segments >>= fun t => d.follow t segment := by
  rw [locate, List.foldlM_append]
  exact congrArg _ (funext fun t => bind_pure _)

theorem walked_of_locate {segments : List String} {t : Trail α} (located : d.locate segments = .ok t) :
    d.Walked t := by
  induction segments using List.reverseRecOn generalizing t with
  | nil =>
      cases located
      trivial
  | append_singleton segments segment ih =>
      rw [locate_append] at located
      obtain ⟨before, located, followed⟩ := Checked.bind_ok_iff.mp located
      exact (ih located).follow followed

/-- A path leads to the same place as before. -/
theorem Keeps.exists_locate (keeps : Keeps changed d d') {segments : List String} {t : Trail α}
    (located : d.locate segments = .ok t) :
    ∃ t', d'.locate segments = .ok t' ∧ t'.names = t.names := by
  induction segments using List.reverseRecOn generalizing t with
  | nil =>
      cases located
      exact ⟨[], rfl, rfl⟩
  | append_singleton segments segment ih =>
      rw [locate_append] at located
      obtain ⟨before, located, followed⟩ := Checked.bind_ok_iff.mp located
      obtain ⟨before', located', same⟩ := ih located
      obtain ⟨next, followed', same'⟩ := keeps.exists_follow (walked_of_locate located)
        (walked_of_locate located') same followed
      exact ⟨next, by rw [locate_append]; exact Checked.bind_ok_iff.mpr ⟨_, located', followed'⟩,
        same'⟩

theorem find?_of_locate {segments : List String} {t : Trail α} (located : d.locate segments = .ok t) :
    d.find? segments = d.node? t.place := by
  rw [find?, located]
  exact (walked_of_locate located).last?_eq

theorem exists_of_find? {segments : List String} {node : Node α}
    (found : d.find? segments = some node) :
    ∃ t, d.locate segments = .ok t ∧ d.node? t.place = some node := by
  have located := found
  rw [find?] at located
  split at located
  · rename_i t reached
    exact ⟨t, reached, (find?_of_locate reached).symm.trans found⟩
  · cases located

theorem Keeps.find?_directory (keeps : Keeps changed d d') {segments : List String}
    {entries : List (String × Node α)} (found : d.find? segments = some (.directory entries)) :
    ∃ entries', d'.find? segments = some (.directory entries') := by
  obtain ⟨t, located, there⟩ := exists_of_find? found
  obtain ⟨t', located', same⟩ := keeps.exists_locate located
  have same : t'.place = t.place := congrArg List.reverse same
  rw [find?_of_locate located', same]
  exact keeps.directory there

theorem isDirectory_iff {segments : List String} :
    d.isDirectory segments = true ↔ ∃ entries, d.find? segments = some (.directory entries) := by
  unfold isDirectory
  split
  · rename_i entries found
    exact iff_of_true rfl ⟨entries, found⟩
  · rename_i other
    exact iff_of_false Bool.false_ne_true fun ⟨entries, found⟩ => other entries found

theorem Keeps.isDirectory (keeps : Keeps changed d d') {segments : List String}
    (there : d.isDirectory segments = true) : d'.isDirectory segments = true := by
  obtain ⟨entries, found⟩ := isDirectory_iff.mp there
  exact isDirectory_iff.mpr (keeps.find?_directory found)

/-- What leads to a directory is a directory all along. -/
theorem isDirectory_of_append {segments : List String} {segment : String}
    (there : d.isDirectory (segments ++ [segment]) = true) : d.isDirectory segments = true := by
  obtain ⟨entries, found⟩ := isDirectory_iff.mp there
  obtain ⟨t, located, _⟩ := exists_of_find? found
  rw [locate_append] at located
  obtain ⟨before, located, followed⟩ := Checked.bind_ok_iff.mp located
  obtain ⟨inner, there, _⟩ := follow_ok_iff.mp followed
  refine isDirectory_iff.mpr ⟨inner, ?_⟩
  rw [find?_of_locate located, ← (walked_of_locate located).last?_eq]
  exact there

/-! ## Putting -/

theorem root_put {place : List String} (below : place ≠ []) (new : Node α) :
    (d.put place new).root = Node.put new place d.root := by
  obtain ⟨name, rest, rfl⟩ := List.exists_cons_of_ne_nil below
  rfl

theorem keeps_put {place : List String} (below : place ≠ [])
    (free : ∀ entries, d.node? place ≠ some (.directory entries)) (new : Node α)
    (allowed : ∀ content, d.node? place = some (.file content) → changed place) :
    Keeps changed d (d.put place new) := by
  intro other old there unchanged
  rw [node?, root_put below]
  rcases Node.exists_at?_put free there with rfl | kept
  · cases old with
    | directory entries => exact absurd there (free entries)
    | file content => exact absurd (allowed content there) (unchanged content rfl)
  · exact kept

/-- What is put at the end of a trail is found there. -/
theorem find?_put {segments : List String} {t : Trail α} (located : d.locate segments = .ok t)
    (free : ∀ entries, d.last? t ≠ some (.directory entries)) (new : Node α)
    (keeps : Keeps changed d (d.put t.place new)) :
    (d.put t.place new).find? segments = some new := by
  obtain ⟨t', located', same⟩ := keeps.exists_locate located
  have same : t'.place = t.place := congrArg List.reverse same
  have walked := walked_of_locate located
  rw [find?_of_locate located', same]
  cases t with
  | nil => exact absurd rfl (free d.entries)
  | cons step rest =>
      obtain ⟨name, node⟩ := step
      obtain ⟨before, entries, there, _⟩ := walked
      rw [Trail.place_cons, node?, root_put (by simp)]
      exact Node.at?_put_self (before.last?_eq.symm.trans there)

theorem place_ne_nil {t : Trail α} (free : ∀ entries, d.last? t ≠ some (.directory entries)) :
    t.place ≠ [] := by
  cases t with
  | nil => exact absurd rfl (free d.entries)
  | cons step rest => simp [Trail.place]

/-! ## Directories -/

theorem makeOne_spec {segments : List String} (made : d.makeOne segments = .ok d') :
    Keeps changed d d' ∧ d'.isDirectory segments = true := by
  obtain ⟨t, located, rest⟩ := Checked.bind_ok_iff.mp made
  split at rest
  · cases rest
  · rename_i missing
    obtain rfl := Checked.pure_ok_iff.mp rest
    have free (entries : List (String × Node α)) : d.last? t ≠ some (.directory entries) := by
      rw [missing]
      exact nofun
    have absent : d.node? t.place = none := by
      rw [← (walked_of_locate located).last?_eq, missing]
    have keeps : Keeps changed d (d.put t.place (.directory [])) := by
      refine keeps_put (place_ne_nil free) ?_ _ ?_
      · rw [absent]
        exact nofun
      · rw [absent]
        exact nofun
    exact ⟨keeps, isDirectory_iff.mpr ⟨[], find?_put located free _ keeps⟩⟩

theorem ensureOne_spec {segments : List String} (made : d.ensureOne segments = .ok d') :
    Keeps changed d d' ∧ d'.isDirectory segments = true := by
  unfold ensureOne at made
  split at made
  · rename_i new fresh
    obtain rfl : new = d' := Except.ok.inj made
    exact makeOne_spec fresh
  · split at made
    · rename_i there
      obtain rfl := Except.ok.inj made
      exact ⟨.refl _ _, there⟩
    · cases made

/-- A directory that is there is not made again. -/
theorem ensureOne_of_isDirectory {segments : List String} (there : d.isDirectory segments = true) :
    d.ensureOne segments = .ok d := by
  obtain ⟨entries, found⟩ := isDirectory_iff.mp there
  obtain ⟨t, located, known⟩ := exists_of_find? found
  have refused : d.makeOne segments = .error (.fileExists (absolute t.place)) := by
    refine Checked.bind_error_iff.mpr (.inr ⟨t, located, ?_⟩)
    rw [(walked_of_locate located).last?_eq, known]
    rfl
  rw [ensureOne, refused]
  exact if_pos there

theorem ensureAll_nil (d : Disk α) (limit : ℕ) : d.ensureAll limit [] = .ok d := by
  cases limit <;> rfl

theorem ensureAll_spec {limit : ℕ} {segments : List String}
    (made : d.ensureAll limit segments = .ok d') :
    Keeps changed d d' ∧ d'.isDirectory segments.reverse = true := by
  induction segments generalizing limit d d' with
  | nil =>
      rw [ensureAll_nil] at made
      cases made
      exact ⟨.refl _ _, rfl⟩
  | cons name parents ih =>
      unfold ensureAll at made
      split at made
      · cases made
      · obtain ⟨around, first, last⟩ := Checked.bind_ok_iff.mp made
        obtain ⟨keeps, there⟩ := ensureOne_spec last
        exact ⟨(ih first).1.trans keeps, there⟩
      · exact ensureOne_spec made

theorem ensureAll_of_isDirectory {limit : ℕ} {segments : List String}
    (there : d.isDirectory segments.reverse = true) : d.ensureAll limit segments = .ok d := by
  cases segments with
  | nil => exact ensureAll_nil d limit
  | cons name parents =>
      unfold ensureAll
      rw [ensureOne_of_isDirectory there]

/-! ## Effects -/

variable {place : Path}

theorem checkPath_ok_iff {p : Path} : (checkPath p : Checked α Unit) = .ok () ↔
    p.holdsZero = false ∧ p.text.utf8ByteSize ≤ longestPath := by
  unfold checkPath
  split
  · rename_i zero
    exact iff_of_false nofun fun ⟨whole, _⟩ => nomatch zero.symm.trans whole
  · rename_i whole
    split
    · rename_i long
      exact iff_of_false nofun fun ⟨_, short⟩ => Nat.not_lt.mpr short long
    · rename_i short
      exact iff_of_true rfl ⟨Bool.eq_false_iff.mpr whole, Nat.not_lt.mp short⟩

/-- If a path is looked up, so is the one of the directory around it. -/
theorem checkPath_of_child {p : Path} {name : String} (plain : Path.Plain name)
    (accepted : (checkPath (p.child name) : Checked α Unit) = .ok ()) :
    (checkPath p : Checked α Unit) = .ok () := by
  obtain ⟨whole, short⟩ := checkPath_ok_iff.mp accepted
  obtain ⟨_, _, longer⟩ := Path.exists_text_child plain p
  refine checkPath_ok_iff.mpr ⟨?_, longer.trans short⟩
  rw [Path.child_of_plain plain, Path.holdsZero, List.any_append, Bool.or_eq_false_iff] at whole
  exact whole.1

theorem makeDirectory_spec {p : Path} (made : d.perform place (.makeDirectory p) = .ok d') :
    Keeps changed d d' ∧ (checkPath p : Checked α Unit) = .ok () ∧
      d'.isDirectory (place.join p).segments = true := by
  obtain ⟨⟨⟩, accepted, made⟩ := Checked.bind_ok_iff.mp made
  obtain ⟨keeps, there⟩ := ensureAll_spec made
  rw [List.reverse_reverse] at there
  exact ⟨keeps, accepted, there⟩

/-- A directory that is there is not made again. -/
theorem makeDirectory_of_isDirectory {p : Path} (accepted : (checkPath p : Checked α Unit) = .ok ())
    (there : d.isDirectory (place.join p).segments = true) :
    d.perform place (.makeDirectory p) = .ok d := by
  refine Checked.bind_ok_iff.mpr ⟨(), accepted, ensureAll_of_isDirectory ?_⟩
  rwa [List.reverse_reverse]

/-- A name that leads somewhere else is the last one of the place it leads to. -/
theorem getLast?_place {segments : List String} {name : String} {t : Trail α} (down : name ≠ "..")
    (located : d.locate (segments ++ [name]) = .ok t) : t.place.getLast? = some name := by
  rw [locate_append] at located
  obtain ⟨before, _, followed⟩ := Checked.bind_ok_iff.mp located
  obtain ⟨entries, _, _, rfl⟩ := follow_ok_iff.mp followed
  rw [if_neg down, Trail.place_cons, List.getLast?_concat]

theorem write_spec {p : Path} {name : String} {content : Content α} (plain : Path.Plain name)
    (written : d.perform place (.write (p.child name) content) = .ok d') :
    Keeps (·.getLast? = some name) d d' ∧
      d'.find? (place.join (p.child name)).segments = some (.file content) := by
  obtain ⟨_, _, written⟩ := Checked.bind_ok_iff.mp written
  obtain ⟨t, located, rest⟩ := Checked.bind_ok_iff.mp written
  split at rest
  · cases rest
  · rename_i free
    obtain rfl := Checked.pure_ok_iff.mp rest
    have keeps : Keeps (·.getLast? = some name) d (d.put t.place (.file content)) := by
      refine keeps_put (place_ne_nil free) ?_ _ fun _ _ => ?_
      · rw [← (walked_of_locate located).last?_eq]
        exact free
      · rw [Path.join_child place p plain] at located
        exact getLast?_place plain.2.2.2 located
    exact ⟨keeps, find?_put located free _ keeps⟩

/-- A file stays at the end of its path if no file with its name may have changed. -/
theorem Keeps.find?_file (keeps : Keeps changed d d') {p : Path} {name : String}
    {content : Content α} (plain : Path.Plain name)
    (found : d.find? (place.join (p.child name)).segments = some (.file content))
    (unchanged : ∀ q, q.getLast? = some name → ¬changed q) :
    d'.find? (place.join (p.child name)).segments = some (.file content) := by
  obtain ⟨t, located, there⟩ := exists_of_find? found
  obtain ⟨t', located', same⟩ := keeps.exists_locate located
  have same : t'.place = t.place := congrArg List.reverse same
  rw [find?_of_locate located', same]
  rw [Path.join_child place p plain] at located
  exact keeps.file there (unchanged _ (getLast?_place plain.2.2.2 located))

end Disk

/-! ## Logs -/

def Effect.name? : Effect α → Option String
  | makeDirectory _ => none
  | write path _ => path.segments.getLast?

def Effect.Plain : Effect α → Prop
  | makeDirectory _ => True
  | write path _ => ∃ (p : Path) (name : String), Path.Plain name ∧ path = p.child name

theorem Effect.name?_write {name : String} (plain : Path.Plain name) (p : Path)
    (content : Content α) : (write (p.child name) content).name? = some name := by
  rw [name?, Path.child_of_plain plain, List.getLast?_concat]

namespace Disk

variable {place : Path} {d d' : Disk α} {log : List (Effect α)}

def Touches (log : List (Effect α)) (q : List String) : Prop :=
  ∃ name ∈ log.filterMap Effect.name?, q.getLast? = some name

theorem keeps_of_perform {effect : Effect α} (plain : effect.Plain)
    (performed : d.perform place effect = .ok d') : Keeps (Touches [effect]) d d' := by
  cases effect with
  | makeDirectory path => exact (makeDirectory_spec performed).1
  | write path content =>
      obtain ⟨p, name, plain, rfl⟩ := plain
      refine (write_spec plain performed).1.mono fun q ends => ⟨name, ?_, ends⟩
      rw [List.filterMap_cons_some (Effect.name?_write plain p content)]
      exact List.mem_cons_self

theorem keeps_of_performAll (plain : ∀ effect ∈ log, effect.Plain)
    (performed : d.performAll place log = .ok d') : Keeps (Touches log) d d' := by
  induction log generalizing d with
  | nil =>
      cases performed
      exact .refl _ _
  | cons effect rest ih =>
      obtain ⟨before, first, later⟩ := Checked.bind_ok_iff.mp performed
      have here := keeps_of_perform (plain effect List.mem_cons_self) first
      have there := ih (fun e member => plain e (List.mem_cons_of_mem _ member)) later
      refine (here.mono ?_).trans (there.mono ?_)
      · rintro q ⟨name, member, ends⟩
        refine ⟨name, ?_, ends⟩
        rw [← List.singleton_append, List.filterMap_append]
        exact List.mem_append_left _ member
      · rintro q ⟨name, member, ends⟩
        refine ⟨name, ?_, ends⟩
        rw [← List.singleton_append, List.filterMap_append]
        exact List.mem_append_right _ member

/-- If no two files of a log have the same name, all of them are there in the end. -/
theorem find?_of_performAll (plain : ∀ effect ∈ log, effect.Plain)
    (distinct : (log.filterMap Effect.name?).Nodup)
    (performed : d.performAll place log = .ok d') {path : Path} {content : Content α}
    (member : .write path content ∈ log) :
    d'.find? (place.join path).segments = some (.file content) := by
  induction log generalizing d with
  | nil => cases member
  | cons effect rest ih =>
      obtain ⟨before, first, later⟩ := Checked.bind_ok_iff.mp performed
      have plain' (e : Effect α) (member : e ∈ rest) : e.Plain :=
        plain e (List.mem_cons_of_mem _ member)
      rw [← List.singleton_append, List.filterMap_append] at distinct
      obtain ⟨_, distinct', apart⟩ := List.nodup_append.mp distinct
      rcases List.mem_cons.mp member with rfl | member
      · obtain ⟨p, name, named, rfl⟩ := plain _ List.mem_cons_self
        refine (keeps_of_performAll plain' later).find?_file named (write_spec named first).2 ?_
        rintro q ends ⟨name', member, ends'⟩
        obtain rfl : name = name' := Option.some.inj (ends.symm.trans ends')
        refine apart name ?_ name member rfl
        rw [List.filterMap_cons_some (Effect.name?_write named p content)]
        exact List.mem_cons_self
      · exact ih plain' distinct' later member

/-- A directory that a log has made is there in the end, and may be made again. -/
theorem directory_of_performAll (plain : ∀ effect ∈ log, effect.Plain)
    (performed : d.performAll place log = .ok d') {p : Path} (member : .makeDirectory p ∈ log) :
    (checkPath p : Checked α Unit) = .ok () ∧ d'.isDirectory (place.join p).segments = true := by
  induction log generalizing d with
  | nil => cases member
  | cons effect rest ih =>
      obtain ⟨before, first, later⟩ := Checked.bind_ok_iff.mp performed
      have plain' (e : Effect α) (member : e ∈ rest) : e.Plain :=
        plain e (List.mem_cons_of_mem _ member)
      rcases List.mem_cons.mp member with rfl | member
      · obtain ⟨_, accepted, there⟩ : Keeps (Touches rest) d before ∧ _ ∧ _ :=
          makeDirectory_spec first
        exact ⟨accepted, (keeps_of_performAll plain' later).isDirectory there⟩
      · exact ih plain' later member

end Disk

end LocalMetric
