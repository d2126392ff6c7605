import Mathlib.Logic.Relation
import LocalMetric.Proofs.Checked
import LocalMetric.Proofs.Paths
/-!
# Where runs are put

What a text stands for as a path from the root is told without a stack: empty parts and points are
left out, and so are names with the step back from them and steps back from the root, until only names
remain. The order in which this is done does not matter. Runs are put where the text leads that was
asked for, and never directly into the working directory or the root.
-/
namespace LocalMetric.Path

open Relation (ReflTransGen)

/-- The parts of a text between its slashes, as they are written. -/
def parts (s : String) : List String := (splitSlashes s.toList).map String.ofList

/-- One thing is left out of the parts of a path from the root. -/
inductive Tidies : List String → List String → Prop
  | empty (before after : List String) : Tidies (before ++ "" :: after) (before ++ after)
  | point (before after : List String) : Tidies (before ++ "." :: after) (before ++ after)
  | back (before after : List String) {name : String} (plain : Plain name) :
      Tidies (before ++ name :: ".." :: after) (before ++ after)
  | top (after : List String) : Tidies (".." :: after) after

/-- A path from the root that consists of names. -/
structure Normal (p : Path) : Prop where
  absolute : p.root = .slash
  plain : ∀ name ∈ p.segments, Plain name

/-- A text, taken from the root, stands for the normal path that it can be tidied to. -/
structure StandsFor (text : String) (p : Path) : Prop where
  normal : p.Normal
  tidied : ReflTransGen Tidies (parts text) p.segments

/-- The text of a path from the root, where the second text is taken from the first one. -/
def fullText (place text : String) : String :=
  if rootOf text.toList = .relative then place ++ "/" ++ text else text

/-! ## The parts of a text -/

theorem splitSlashes_ne_nil (cs : List Char) : splitSlashes cs ≠ [] := by
  cases cs with
  | nil => exact List.cons_ne_nil _ _
  | cons c cs =>
      rw [splitSlashes]
      split
      · exact List.cons_ne_nil _ _
      · split <;> exact List.cons_ne_nil _ _

theorem splitSlashes_append (cs ds : List Char) :
    splitSlashes (cs ++ '/' :: ds) = splitSlashes cs ++ splitSlashes ds := by
  induction cs with
  | nil => rfl
  | cons c cs ih =>
      obtain ⟨part, rest, split⟩ := List.exists_cons_of_ne_nil (splitSlashes_ne_nil cs)
      rw [List.cons_append, splitSlashes, splitSlashes, ih, split]
      by_cases slash : c = '/'
      · rw [if_pos slash, if_pos slash]
        rfl
      · rw [if_neg slash, if_neg slash]
        rfl

theorem mem_of_mem_splitSlashes {cs part : List Char} (member : part ∈ splitSlashes cs) {c : Char}
    (inside : c ∈ part) : c ∈ cs ∧ c ≠ '/' := by
  induction cs generalizing part with
  | nil =>
      obtain rfl := List.mem_singleton.mp member
      exact absurd inside List.not_mem_nil
  | cons d cs ih =>
      obtain ⟨first, rest, split⟩ := List.exists_cons_of_ne_nil (splitSlashes_ne_nil cs)
      rw [splitSlashes] at member
      rw [split] at ih
      have later {part : List Char} (member : part ∈ first :: rest) (inside : c ∈ part) :
          c ∈ d :: cs ∧ c ≠ '/' :=
        ⟨List.mem_cons_of_mem _ (ih member inside).1, (ih member inside).2⟩
      by_cases slash : d = '/'
      · rw [if_pos slash, split] at member
        rcases List.mem_cons.mp member with rfl | member
        · exact absurd inside List.not_mem_nil
        · exact later member inside
      · rw [if_neg slash, split] at member
        rcases List.mem_cons.mp member with rfl | member
        · rcases List.mem_cons.mp inside with rfl | inside
          · exact ⟨List.mem_cons_self, slash⟩
          · exact later List.mem_cons_self inside
        · exact later (List.mem_cons_of_mem _ member) inside

theorem parts_append (s t : String) : parts (s ++ "/" ++ t) = parts s ++ parts t := by
  have spelt : (s ++ "/" ++ t).toList = s.toList ++ '/' :: t.toList := by
    rw [String.toList_append, String.toList_append, List.append_assoc]
    rfl
  rw [parts, spelt, splitSlashes_append, List.map_append, parts, parts]

theorem slash_notMem_of_mem_parts {s part : String} (member : part ∈ parts s) :
    '/' ∉ part.toList := by
  obtain ⟨cs, split, rfl⟩ := List.mem_map.mp member
  rw [String.toList_ofList]
  exact fun slash => (mem_of_mem_splitSlashes split slash).2 rfl

theorem segments_ofText (s : String) :
    (ofText s).segments = (parts s).filter fun part => part ≠ "" ∧ part ≠ "." := rfl

theorem segments_ofText_append (s t : String) :
    (ofText (s ++ "/" ++ t)).segments = (ofText s).segments ++ (ofText t).segments := by
  rw [segments_ofText, parts_append, List.filter_append, segments_ofText, segments_ofText]

theorem zeroIn_of_mem_segments {s segment : String} (clean : zeroIn s = false)
    (member : segment ∈ (ofText s).segments) : zeroIn segment = false := by
  obtain ⟨cs, split, rfl⟩ := List.mem_map.mp (List.mem_filter.mp member).1
  rw [zeroIn, List.contains_eq_mem, decide_eq_false_iff_not] at clean ⊢
  rw [String.toList_ofList]
  exact fun zero => clean (mem_of_mem_splitSlashes split zero).1

/-! ## Tidying -/

/-- Follows a part of a text as it is written. -/
def pass (visited : List String) (part : String) : List String :=
  if part ≠ "" ∧ part ≠ "." then climb visited part else visited

theorem pass_plain {name : String} (plain : Plain name) (visited : List String) :
    pass visited name = name :: visited := by
  rw [pass, if_pos ⟨plain.2.1, plain.2.2.1⟩, climb, if_neg plain.2.2.2]

theorem foldl_pass_plain {names : List String} (plain : ∀ name ∈ names, Plain name)
    (visited : List String) : names.foldl pass visited = names.reverse ++ visited := by
  induction names generalizing visited with
  | nil => rfl
  | cons name names ih =>
      rw [List.foldl_cons, pass_plain (plain name List.mem_cons_self),
        ih fun other later => plain other (List.mem_cons_of_mem _ later), List.reverse_cons,
        List.append_assoc]
      rfl

/-- What parts lead to does not change when they are tidied. -/
theorem Tidies.foldl_pass {before after : List String} (tidies : Tidies before after) :
    before.foldl pass [] = after.foldl pass [] := by
  cases tidies with
  | empty before after => rw [List.foldl_append, List.foldl_append, List.foldl_cons]; rfl
  | point before after => rw [List.foldl_append, List.foldl_append, List.foldl_cons]; rfl
  | back before after plain =>
      rw [List.foldl_append, List.foldl_append, List.foldl_cons, List.foldl_cons, pass_plain plain]
      rfl
  | top after => rfl

theorem foldl_pass_of_tidied {before after : List String} (tidied : ReflTransGen Tidies before after) :
    before.foldl pass [] = after.foldl pass [] := by
  induction tidied with
  | refl => rfl
  | tail _ tidies ih => exact ih.trans tidies.foldl_pass

theorem plain_of_mem_pass {visited : List String} {part : String}
    (plain : ∀ name ∈ visited, Plain name) (whole : '/' ∉ part.toList) :
    ∀ name ∈ pass visited part, Plain name := by
  intro name member
  rw [pass] at member
  split at member
  · rename_i filled
    rw [climb] at member
    split at member
    · exact plain name (List.mem_of_mem_tail member)
    · rename_i forward
      rcases List.mem_cons.mp member with rfl | member
      · exact ⟨whole, filled.1, filled.2, forward⟩
      · exact plain name member
  · exact plain name member

/-- Parts after names that were visited are tidied to what they lead to. -/
theorem tidied_pass {visited : List String} {part : String} (plain : ∀ name ∈ visited, Plain name)
    (after : List String) :
    ReflTransGen Tidies (visited.reverse ++ part :: after)
      ((pass visited part).reverse ++ after) := by
  rw [pass]
  split
  · rw [climb]
    split
    · rename_i up
      subst up
      cases visited with
      | nil => exact .single (.top after)
      | cons name above =>
          rw [List.reverse_cons, List.append_assoc]
          exact .single (.back _ after (plain name List.mem_cons_self))
    · rw [List.reverse_cons, List.append_assoc]
      exact .refl
  · rename_i left
    by_cases empty : part = ""
    · subst empty
      exact .single (.empty _ after)
    · have point : part = "." := by
        by_contra other
        exact left ⟨empty, other⟩
      subst point
      exact .single (.point _ after)

theorem tidied_foldl_pass {parts visited : List String} (plain : ∀ name ∈ visited, Plain name)
    (whole : ∀ part ∈ parts, '/' ∉ part.toList) :
    ReflTransGen Tidies (visited.reverse ++ parts) (parts.foldl pass visited).reverse ∧
      ∀ name ∈ parts.foldl pass visited, Plain name := by
  induction parts generalizing visited with
  | nil =>
      rw [List.append_nil]
      exact ⟨.refl, plain⟩
  | cons part parts ih =>
      have kept := plain_of_mem_pass plain (whole part List.mem_cons_self)
      obtain ⟨tidied, names⟩ := ih kept fun other later => whole other (List.mem_cons_of_mem _ later)
      exact ⟨(tidied_pass plain parts).trans tidied, names⟩

/-- The path from the root that segments lead to. -/
def led (segments : List String) : Path := ⟨.slash, (segments.foldl climb []).reverse⟩

theorem foldl_pass_parts (s : String) :
    (parts s).foldl pass [] = (ofText s).segments.foldl climb [] := by
  rw [segments_ofText, List.foldl_filter]
  simp only [decide_eq_true_eq]
  rfl

/-- Every text stands for exactly one path. -/
theorem standsFor_iff {text : String} {p : Path} :
    StandsFor text p ↔ p = led (ofText text).segments := by
  constructor
  · rintro ⟨⟨absolute, plain⟩, tidied⟩
    have same := foldl_pass_of_tidied tidied
    rw [foldl_pass_parts, foldl_pass_plain plain, List.append_nil] at same
    rw [led, same, List.reverse_reverse, ← absolute]
  · rintro rfl
    have start : ∀ name ∈ ([] : List String), Plain name := fun _ none => absurd none List.not_mem_nil
    obtain ⟨tidied, plain⟩ :=
      tidied_foldl_pass start fun part (member : part ∈ parts text) => slash_notMem_of_mem_parts member
    rw [foldl_pass_parts] at tidied plain
    exact ⟨⟨rfl, fun name member => plain name (List.mem_reverse.mp member)⟩, tidied⟩

theorem existsUnique_standsFor (text : String) : ∃! p, StandsFor text p :=
  ⟨_, standsFor_iff.mpr rfl, fun _ other => standsFor_iff.mp other⟩

/-! ## The guard -/

theorem resolve_ofText (place text : String) :
    (ofText place).resolve (ofText text) = led (ofText (fullText place text)).segments := by
  rw [resolve, led, join, fullText]
  by_cases relative : rootOf text.toList = .relative
  · have within : (ofText text).isAbsolute = false := decide_eq_false (not_not.mpr relative)
    rw [within, if_neg Bool.false_ne_true, if_pos relative, segments_ofText_append]
  · have outside : (ofText text).isAbsolute = true := decide_eq_true relative
    rw [outside, if_pos rfl, if_neg relative]

theorem resolve_here (place : String) :
    (ofText place).resolve ⟨.relative, []⟩ = led (ofText place).segments := by
  rw [resolve, led, join, if_neg (by decide), List.append_nil]

theorem Normal.led {p : Path} (normal : p.Normal) : led p.segments = p := by
  obtain ⟨root, segments⟩ := p
  obtain ⟨rfl, plain⟩ := normal
  have stays : segments.foldl climb [] = segments.foldl pass [] := by
    refine List.foldl_ext _ _ _ fun visited name member => ?_
    rw [pass, if_pos ⟨(plain name member).2.1, (plain name member).2.2.1⟩]
  rw [Path.led, stays, foldl_pass_plain plain, List.append_nil, List.reverse_reverse]

/-- Where nothing is ever written directly. -/
def Forbidden (place : String) (p : Path) : Prop := StandsFor place p ∨ p = ⟨.slash, []⟩

/-- A relative text whose first name begins like the name of a home directory. -/
def LeadsHome (text : String) : Prop :=
  rootOf text.toList = .relative ∧ ∃ first ∈ (ofText text).segments.head?, '~' ∈ first.toList.head?

instance : DecidablePred LeadsHome := fun _ => inferInstanceAs (Decidable (_ ∧ _))

/-- Where runs are put that are asked for by a text. -/
structure Guarded (α : Type) (home : String → Option Path) (place text caller : String)
    (result : Path) : Prop where
  answered : (outputRoot home (ofText place) (ofText text) caller : Checked α Path) = .ok result
  normal : result.Normal
  allowed : ¬Forbidden place result
  kept : ∀ p, StandsFor (fullText place text) p → ¬Forbidden place p → result = p
  moved : ∀ p, StandsFor (fullText place text) p → Forbidden place p →
    StandsFor (place ++ "/runs/" ++ caller) result
  again : (outputRoot home (ofText place) result caller : Checked α Path) = .ok result

variable {α : Type} {home : String → Option Path} {place text caller : String}

theorem forbidden_iff {p : Path} :
    Forbidden place p ↔ p = (ofText place).resolve ⟨.relative, []⟩ ∨ p = ⟨.slash, []⟩ := by
  rw [Forbidden, standsFor_iff, resolve_here]

theorem expandHome_of_absolute {p : Path} (absolute : p.root = .slash) :
    (p.expandHome home : Checked α Path) = .ok p := by
  rw [expandHome, absolute]

theorem expandHome_of_not_leadsHome (own : ¬LeadsHome text) :
    ((ofText text).expandHome home : Checked α Path) = .ok (ofText text) := by
  unfold expandHome
  split
  · rename_i first rest relative segments
    split
    · rename_i user spelt
      refine absurd ⟨relative, first, ?_, ?_⟩ own
      · rw [segments]
        rfl
      · rw [spelt]
        rfl
    · rfl
  · rfl

instance (place : String) : DecidablePred (Forbidden place) := fun _ =>
  decidable_of_iff _ forbidden_iff.symm

/-- Everything that the guard answers. -/
theorem outputRoot_ok_iff (named : Plain caller) (clean : zeroIn caller = false) {p result : Path} :
    (outputRoot home (ofText place) p caller : Checked α Path) = .ok result ↔
      ∃ expanded, (p.expandHome home : Checked α Path) = .ok expanded ∧ expanded.holdsZero = false ∧
        result = if Forbidden place ((ofText place).resolve expanded) then
          (ofText place).resolve ⟨.relative, ["runs", caller]⟩ else (ofText place).resolve expanded := by
  have instead : (ofText "runs").child caller = ⟨.relative, ["runs", caller]⟩ :=
    child_of_plain named _
  have free : holdsZero ⟨.relative, ["runs", caller]⟩ = false := by
    rw [holdsZero, List.any_cons, List.any_cons, clean]
    rfl
  have root (q : Path) : ((ofText place).resolve q).segments = [] ↔
      (ofText place).resolve q = ⟨.slash, []⟩ :=
    ⟨fun empty => congrArg (Path.mk .slash) empty, fun same => congrArg segments same⟩
  rw [outputRoot, Checked.bind_ok_iff]
  refine exists_congr fun expanded => and_congr_right fun _ => ?_
  simp only [forbidden_iff, ← root, instead, free]
  cases expanded.holdsZero with
  | true =>
      refine iff_of_false (fun answered => ?_) fun kept => Bool.noConfusion kept.1
      cases answered
  | false =>
      simp only [Bool.false_eq_true, if_false, true_and]
      split
      · exact Checked.pure_ok_iff.trans eq_comm
      · exact Checked.pure_ok_iff.trans eq_comm

theorem holdsZero_ofText (clean : zeroIn text = false) : (ofText text).holdsZero = false :=
  List.any_eq_false.mpr fun _ member => Bool.not_eq_true _ ▸ zeroIn_of_mem_segments clean member

theorem zeroIn_append (s t : String) : zeroIn (s ++ t) = (zeroIn s || zeroIn t) := by
  rw [zeroIn, String.toList_append, List.contains_append, zeroIn, zeroIn]

theorem zeroIn_fullText (clean : zeroIn place = false) (clean' : zeroIn text = false) :
    zeroIn (fullText place text) = false := by
  rw [fullText]
  split
  · rw [zeroIn_append, zeroIn_append, clean, clean']
    rfl
  · exact clean'

/-- Nothing with a zero in it is found by following a text without one. -/
theorem StandsFor.holdsZero {p : Path} (stands : StandsFor text p) (clean : zeroIn text = false) :
    p.holdsZero = false := by
  obtain rfl := standsFor_iff.mp stands
  refine List.any_eq_false.mpr fun name member => Bool.not_eq_true _ ▸ ?_
  have followed := (mem_foldl_climb (List.mem_reverse.mp member)).resolve_left List.not_mem_nil
  exact zeroIn_of_mem_segments clean followed

/-- A normal path is kept as it is, unless nothing may be written there. -/
theorem outputRoot_of_normal {p : Path} (normal : p.Normal) (allowed : ¬Forbidden place p)
    (free : p.holdsZero = false) (named : Plain caller) (clean : zeroIn caller = false) :
    (outputRoot home (ofText place) p caller : Checked α Path) = .ok p := by
  have same : (ofText place).resolve p = p := by
    rw [resolve, join, isAbsolute, normal.absolute, if_pos (by decide)]
    exact normal.led
  refine (outputRoot_ok_iff named clean).mpr ⟨p, expandHome_of_absolute normal.absolute, free, ?_⟩
  rw [same, if_neg allowed]

/-- Where runs are put instead lies below the working directory. -/
theorem not_forbidden_moved (named : Plain caller) :
    ¬Forbidden place ((ofText place).resolve ⟨.relative, ["runs", caller]⟩) := by
  have confined : Confined ⟨.relative, ["runs", caller]⟩ := by
    refine ⟨rfl, [caller, "runs"], ?_, List.cons_ne_nil _ _⟩
    rw [descend_cons, climb?, if_neg (by decide), Option.bind_some, descend_cons, climb?,
      if_neg named.2.2.2]
    rfl
  obtain ⟨-, below, other⟩ : Inside _ ((ofText place).resolve ⟨.relative, ["runs", caller]⟩) :=
    inside_join confined (ofText place) ⟨.relative, []⟩
  rw [forbidden_iff]
  rintro (here | root)
  · exact other (congrArg segments here)
  · rw [root] at below other
    exact other (List.prefix_nil.mp below).symm

/-- Nothing is put where nothing may be written, whatever is asked for and wherever homes are. -/
theorem not_forbidden_of_outputRoot (named : Plain caller) (clean : zeroIn caller = false)
    {p result : Path}
    (answered : (outputRoot home (ofText place) p caller : Checked α Path) = .ok result) :
    ¬Forbidden place result := by
  obtain ⟨expanded, _, _, rfl⟩ := (outputRoot_ok_iff named clean).mp answered
  split
  · exact not_forbidden_moved named
  · assumption

theorem standsFor_moved (named : Plain caller) : StandsFor (place ++ "/runs/" ++ caller)
    ((ofText place).resolve ⟨.relative, ["runs", caller]⟩) := by
  have spelt : place ++ "/runs/" ++ caller = place ++ "/" ++ "runs" ++ "/" ++ caller := by
    have between : "/runs/" = "/" ++ "runs" ++ "/" := rfl
    rw [between, ← String.append_assoc, ← String.append_assoc]
  rw [standsFor_iff, spelt, segments_ofText_append, segments_ofText_append, ofText_of_plain named,
    List.append_assoc]
  rfl

/-- Every text leads to one path, and runs are put there unless that is the working directory or the
root; then they are put below the working directory. Where they are put can be asked for again. Nothing
else that is asked for leads to the working directory or the root. -/
theorem output_roots_guarded (α : Type) (home : String → Option Path) {place text caller : String}
    (named : Plain caller) (own : ¬LeadsHome text)
    (clean : ∀ s ∈ [place, text, caller], zeroIn s = false) :
    (∃! p, StandsFor place p) ∧ (∃! p, StandsFor (fullText place text) p) ∧
    (∃ result, Guarded α home place text caller result) ∧
    ∀ p result, (outputRoot home (ofText place) p caller : Checked α Path) = .ok result →
      ¬Forbidden place result := by
  simp only [List.mem_cons, List.not_mem_nil, or_false, forall_eq_or_imp, forall_eq] at clean
  obtain ⟨cleanPlace, cleanText, cleanCaller⟩ := clean
  refine ⟨existsUnique_standsFor _, existsUnique_standsFor _, ?_,
    fun p result answered => not_forbidden_of_outputRoot named cleanCaller answered⟩
  have answered : (outputRoot home (ofText place) (ofText text) caller : Checked α Path) = .ok
      (if Forbidden place ((ofText place).resolve (ofText text)) then
        (ofText place).resolve ⟨.relative, ["runs", caller]⟩
      else (ofText place).resolve (ofText text)) :=
    (outputRoot_ok_iff named cleanCaller).mpr
      ⟨ofText text, expandHome_of_not_leadsHome own, holdsZero_ofText cleanText, rfl⟩
  have allowed := not_forbidden_of_outputRoot named cleanCaller answered
  have stands : StandsFor (fullText place text) ((ofText place).resolve (ofText text)) :=
    standsFor_iff.mpr (resolve_ofText place text)
  have unique {p : Path} (other : StandsFor (fullText place text) p) :
      p = (ofText place).resolve (ofText text) :=
    (existsUnique_standsFor _).unique other stands
  by_cases forbidden : Forbidden place ((ofText place).resolve (ofText text))
  · rw [if_pos forbidden] at answered allowed
    have moved : StandsFor (place ++ "/runs/" ++ caller) _ := standsFor_moved named
    have free : zeroIn (place ++ "/runs/" ++ caller) = false := by
      rw [zeroIn_append, zeroIn_append, cleanPlace, cleanCaller]
      rfl
    refine ⟨_, answered, moved.normal, allowed, ?_, fun _ _ _ => moved,
      outputRoot_of_normal moved.normal allowed (moved.holdsZero free) named cleanCaller⟩
    intro p other allowed'
    exact absurd (unique other ▸ forbidden) allowed'
  · rw [if_neg forbidden] at answered
    have free := stands.holdsZero (zeroIn_fullText cleanPlace cleanText)
    refine ⟨_, answered, stands.normal, forbidden, fun p other _ => (unique other).symm, ?_,
      outputRoot_of_normal stands.normal forbidden free named cleanCaller⟩
    intro p other forbidden'
    exact absurd (unique other ▸ forbidden') forbidden

/-- A roundabout way back to the working directory is not taken. -/
theorem output_roots_guarded_roundabout :
    Plain "preprocess" ∧ ¬LeadsHome "a/..//../w/." ∧
    (∀ s ∈ ["/w", "a/..//../w/.", "preprocess"], zeroIn s = false) ∧
    StandsFor "/w/a/..//../w/." ⟨.slash, ["w"]⟩ ∧
    Guarded Float (fun _ => none) "/w" "a/..//../w/." "preprocess"
      ⟨.slash, ["w", "runs", "preprocess"]⟩ := by
  have named : Plain "preprocess" := by decide
  have own : ¬LeadsHome "a/..//../w/." := by decide
  have clean : ∀ s ∈ ["/w", "a/..//../w/.", "preprocess"], zeroIn s = false := by decide
  obtain ⟨_, _, ⟨result, guarded⟩, _⟩ := output_roots_guarded Float (fun _ => none) named own clean
  obtain rfl : ⟨.slash, ["w", "runs", "preprocess"]⟩ = result := Except.ok.inj guarded.answered
  exact ⟨named, own, clean, standsFor_iff.mpr rfl, guarded⟩

/-- A point in front does not keep the name of a home directory from being replaced, a text with a zero
in it leads nowhere, and a caller whose name is a step back is led to the working directory. -/
theorem output_roots_fail_spelt_out :
    "./~/x".toList.head? ≠ some '~' ∧
    (¬∃ result, Guarded Float (fun _ => some ⟨.slash, ["w"]⟩) "/w" "./~/x" "preprocess" result) ∧
    "a\x00".toList.head? ≠ some '~' ∧
    (¬∃ result, Guarded Float (fun _ => some ⟨.slash, ["w"]⟩) "/w" "a\x00" "preprocess" result) ∧
    ¬∃ result, Guarded Float (fun _ => some ⟨.slash, ["w"]⟩) "/w" "." ".." result := by
  refine ⟨by decide, ?_, by decide, ?_, ?_⟩
  · rintro ⟨result, guarded⟩
    obtain rfl : ⟨.slash, ["w", "x"]⟩ = result := Except.ok.inj guarded.answered
    have stands : StandsFor (fullText "/w" "./~/x") ⟨.slash, ["w", "~", "x"]⟩ := standsFor_iff.mpr rfl
    have allowed : ¬Forbidden "/w" ⟨.slash, ["w", "~", "x"]⟩ := by
      rw [forbidden_iff]
      decide
    exact absurd (guarded.kept _ stands allowed) (by decide)
  · rintro ⟨result, guarded⟩
    cases guarded.answered
  · rintro ⟨result, guarded⟩
    obtain rfl : ⟨.slash, ["w"]⟩ = result := Except.ok.inj guarded.answered
    exact guarded.allowed (.inl (standsFor_iff.mpr rfl))

end LocalMetric.Path
