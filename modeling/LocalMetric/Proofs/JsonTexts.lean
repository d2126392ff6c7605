import LocalMetric.Proofs.JsonWords
import LocalMetric.Proofs.Stores
/-!
# JSON texts read back

The text of a value is read as that value. Characters are followed to tokens first, where a value without
parts may still go on until a character comes that no number has, and tokens are then followed to values.
Nothing else is lost than fields of an object that has another one of their name.
-/
namespace LocalMetric.Json

/-! ## Scanning -/

/-- A state that, once a character comes that is in no word, goes on as between these tokens. -/
def Settles (state : List Token × Mode) (tokens : List Token) : Prop :=
  ∀ c, ¬InWord c → scan state c = some (scanBetween tokens c)

/-- Characters that are read as some tokens, whatever came before. -/
def Scans (cs : List Char) (tokens : List Token) : Prop :=
  ∀ before, ∃ state, cs.foldlM scan (before, .between) = some state ∧
    Settles state (tokens.reverse ++ before)

theorem settles_between (tokens : List Token) : Settles (tokens, .between) tokens := fun _ _ => rfl

/-- Characters after which no token is unfinished. -/
def Closes (cs : List Char) (tokens : List Token) : Prop :=
  ∀ before, cs.foldlM scan (before, .between) = some (tokens.reverse ++ before, .between)

section Closes

variable {c : Char} {cs ds : List Char} {ts us : List Token}

theorem Closes.nil : Closes [] [] := fun _ => rfl

theorem Closes.scans (closes : Closes cs ts) : Scans cs ts :=
  fun before => ⟨_, closes before, settles_between _⟩

theorem Closes.append (first : Closes cs ts) (rest : Closes ds us) : Closes (cs ++ ds) (ts ++ us) := by
  intro before
  rw [List.foldlM_append, first before, Option.bind_eq_bind, Option.bind_some, rest,
    List.reverse_append, List.append_assoc]

theorem Closes.append_scans (first : Closes cs ts) (rest : Scans ds us) :
    Scans (cs ++ ds) (ts ++ us) := by
  intro before
  obtain ⟨state, scanned, settles⟩ := rest (ts.reverse ++ before)
  refine ⟨state, ?_, ?_⟩
  · rw [List.foldlM_append, first before, Option.bind_eq_bind, Option.bind_some, scanned]
  · rwa [List.reverse_append, List.append_assoc]

theorem Scans.append_closes (first : Scans cs ts) (rest : Closes (c :: ds) us) (other : ¬InWord c) :
    Closes (cs ++ c :: ds) (ts ++ us) := by
  intro before
  obtain ⟨state, scanned, settles⟩ := first before
  have next := rest (ts.reverse ++ before)
  rw [List.foldlM_cons] at next
  rw [List.foldlM_append, scanned, Option.bind_eq_bind, Option.bind_some, List.foldlM_cons,
    settles c other, List.reverse_append, List.append_assoc]
  exact next

theorem Closes.single (between : ∀ before, scanBetween before c = (ts.reverse ++ before, .between)) :
    Closes [c] ts :=
  fun before => congrArg some (between before)

theorem Closes.blanks (n : ℕ) : Closes (List.replicate n ' ') [] := by
  induction n with
  | zero => exact .nil
  | succ n ih =>
      have first : Closes [' '] [] := .single fun _ => rfl
      exact first.append ih

def indent (depth : ℕ) : List Char := '\n' :: List.replicate (2 * depth) ' '

theorem Closes.indent (depth : ℕ) : Closes (indent depth) [] := by
  have first : Closes ['\n'] [] := .single fun _ => rfl
  exact first.append (.blanks _)

/-- Texts between separators, followed by characters that are in no word. -/
theorem closes_intercalate {texts : List (List Char)} {parts : List (List Token)} {sep : List Char}
    (scanned : List.Forall₂ Scans texts parts) (filled : texts ≠ [])
    (separated : Closes (',' :: sep) [.comma]) (rest : Closes (c :: ds) us) (other : ¬InWord c) :
    Closes ((',' :: sep).intercalate texts ++ c :: ds) ([.comma].intercalate parts ++ us) := by
  induction scanned with
  | nil => exact absurd rfl filled
  | @cons text ts texts parts first later ih =>
      cases later with
      | nil =>
          rw [List.intercalate_singleton, List.intercalate_singleton]
          exact first.append_closes rest other
      | cons second later =>
          have next := separated.append (ih (List.cons_ne_nil _ _))
          rw [List.intercalate_cons_cons, List.intercalate_cons_cons, List.append_assoc,
            List.append_assoc, List.append_assoc, List.append_assoc]
          exact first.append_closes next (by simp [InWord])

end Closes

theorem scanBetween_inWord {c : Char} (inside : InWord c) (before : List Token) :
    scanBetween before c = (before, .word [c]) := by
  have plain (c' : Char) (other : ¬InWord c') : c ≠ c' := fun same => other (same ▸ inside)
  have inner : punctuation? c = none := by
    unfold punctuation?
    split
    · exact absurd rfl (plain '[' (by simp [InWord]))
    · exact absurd rfl (plain ']' (by simp [InWord]))
    · exact absurd rfl (plain '\x7b' (by simp [InWord]))
    · exact absurd rfl (plain '\x7d' (by simp [InWord]))
    · exact absurd rfl (plain ':' (by simp [InWord]))
    · exact absurd rfl (plain ',' (by simp [InWord]))
    · rfl
  simp only [scanBetween, inner]
  rw [if_neg (plain '"' (by simp [InWord])), if_neg]
  rintro (blank | blank | blank | blank)
  · exact plain ' ' (by simp [InWord]) blank
  · exact plain '\n' (by simp [InWord]) blank
  · exact plain '\r' (by simp [InWord]) blank
  · exact plain '\t' (by simp [InWord]) blank

theorem foldlM_scan_word {cs : List Char} (inside : ∀ c ∈ cs, InWord c) (before : List Token)
    (letters : List Char) :
    cs.foldlM scan (before, .word letters) = some (before, .word (cs.reverse ++ letters)) := by
  induction cs generalizing letters with
  | nil => rfl
  | cons c cs ih =>
      obtain ⟨first, rest⟩ := List.forall_mem_cons.mp inside
      have step : scan (before, .word letters) c = some (before, .word (c :: letters)) := if_pos first
      rw [List.foldlM_cons, step, Option.bind_eq_bind, Option.bind_some, ih rest, List.reverse_cons,
        List.append_assoc]
      rfl

theorem Scans.word {cs : List Char} {v : Json Float} (word : IsWord cs v) : Scans cs [.value v] := by
  intro before
  obtain ⟨c, cs, rfl⟩ := List.exists_cons_of_ne_nil word.filled
  obtain ⟨first, rest⟩ := List.forall_mem_cons.mp word.inside
  have start : scan (before, .between) c = some (before, .word [c]) :=
    congrArg some (scanBetween_inWord first before)
  refine ⟨(before, .word (cs.reverse ++ [c])), ?_, fun d other => ?_⟩
  · rw [List.foldlM_cons, start]
    exact foldlM_scan_word rest before [c]
  · have letters : (cs.reverse ++ [c]).reverse = c :: cs := by simp
    refine (if_neg other).trans ?_
    rw [letters, word.read]
    rfl

/-! ## Strings -/

def units (c : Char) : List Nat :=
  if c.toNat < 0x10000 then [c.toNat]
  else [0xd800 + (c.toNat - 0x10000) / 0x400, 0xdc00 + (c.toNat - 0x10000) % 0x400]

theorem hexValue?_digitChar {d : ℕ} (small : d < 16) : hexValue? (Nat.digitChar d) = some d := by
  interval_cases d <;> rfl

theorem hex_four {n : ℕ} (small : n < 0x10000) :
    Text.hex 4 n = [n / 4096, n / 256 % 16, n / 16 % 16, n % 16].map Nat.digitChar := by
  have longer {k : ℕ} (large : 16 ≤ k) :
      Nat.toDigits 16 k = Nat.toDigits 16 (k / 16) ++ [Nat.digitChar (k % 16)] :=
    Nat.toDigits_of_base_le (by decide) large
  rcases lt_or_ge n 16 with one | more
  · have zeros : n / 4096 = 0 ∧ n / 256 % 16 = 0 ∧ n / 16 % 16 = 0 ∧ n % 16 = n := by omega
    simp [Text.hex, Nat.toDigits_of_lt_base one, zeros]
  rcases lt_or_ge n 256 with two | more'
  · have zeros : n / 4096 = 0 ∧ n / 256 % 16 = 0 ∧ n / 16 % 16 = n / 16 := by omega
    simp [Text.hex, longer more, Nat.toDigits_of_lt_base (by omega : n / 16 < 16), zeros]
  rcases lt_or_ge n 4096 with three | four
  · have zeros : n / 4096 = 0 ∧ n / 256 % 16 = n / 256 ∧ n / 16 / 16 = n / 256 := by omega
    simp [Text.hex, longer more, longer (by omega : 16 ≤ n / 16), zeros,
      Nat.toDigits_of_lt_base (by omega : n / 256 < 16)]
  · have zeros : n / 16 / 16 = n / 256 ∧ n / 256 / 16 = n / 4096 := by omega
    simp [Text.hex, longer more, longer (by omega : 16 ≤ n / 16), zeros,
      longer (by omega : 16 ≤ n / 256), Nat.toDigits_of_lt_base (by omega : n / 4096 < 16)]

theorem foldlM_scan_hex (before : List Token) (codes : List Nat) {n : ℕ} (small : n < 0x10000) :
    (Text.hex 4 n).foldlM scan (before, .unit codes 0 4) = some (before, .text (n :: codes)) := by
  have value : 16 * (16 * (16 * (16 * 0 + n / 4096) + n / 256 % 16) + n / 16 % 16) + n % 16 = n := by
    omega
  have first := hexValue?_digitChar (by omega : n / 4096 < 16)
  have second := hexValue?_digitChar (by omega : n / 256 % 16 < 16)
  have third := hexValue?_digitChar (by omega : n / 16 % 16 < 16)
  have fourth := hexValue?_digitChar (by omega : n % 16 < 16)
  rw [hex_four small]
  simp [scan, first, second, third, fourth]
  omega

theorem foldlM_scan_escapedUnit (before : List Token) (codes : List Nat) {n : ℕ}
    (small : n < 0x10000) :
    (escapedUnit n).foldlM scan (before, .text codes) = some (before, .text (n :: codes)) :=
  foldlM_scan_hex before codes small

theorem toNat_cases (c : Char) : c.toNat < 0xd800 ∨ 0xe000 ≤ c.toNat ∧ c.toNat < 0x110000 := by
  rcases c.valid with low | high
  · exact .inl low
  · exact .inr ⟨high.1, high.2⟩

theorem units_of_lt {c : Char} (small : c.toNat < 0x10000) : units c = [c.toNat] := if_pos small

theorem foldlM_scan_plain (before : List Token) (codes : List Nat) {c : Char} (quote : c ≠ '"')
    (backslash : c ≠ '\\') (printable : ' ' ≤ c) :
    [c].foldlM scan (before, .text codes) = some (before, .text (c.toNat :: codes)) := by
  simp [scan, quote, backslash, not_lt.mpr printable]

theorem foldlM_scan_escapedChar (before : List Token) (codes : List Nat) (c : Char) :
    (escapedChar c).foldlM scan (before, .text codes) =
      some (before, .text ((units c).reverse ++ codes)) := by
  unfold escapedChar
  split_ifs with quoted newline carriage tab back feed plain unit
  · rcases quoted with rfl | rfl <;> rfl
  · subst newline; rfl
  · subst carriage; rfl
  · subst tab; rfl
  · subst back; rfl
  · subst feed; rfl
  · obtain ⟨quote, backslash⟩ := not_or.mp quoted
    have small : c.toNat ≤ '~'.toNat := plain.2
    rw [foldlM_scan_plain before codes quote backslash plain.1,
      units_of_lt (small.trans_lt (by decide))]
    rfl
  · rw [foldlM_scan_escapedUnit _ _ unit, units_of_lt unit]
    rfl
  · have range := toNat_cases c
    rw [List.foldlM_append, foldlM_scan_escapedUnit _ _ (by omega), Option.bind_eq_bind,
      Option.bind_some, foldlM_scan_escapedUnit _ _ (by omega), units, if_neg unit]
    rfl

theorem foldlM_scan_escaped (before : List Token) (codes : List Nat) (cs : List Char) :
    (cs.flatMap escapedChar).foldlM scan (before, .text codes) =
      some (before, .text ((cs.flatMap units).reverse ++ codes)) := by
  induction cs generalizing codes with
  | nil => rfl
  | cons c cs ih =>
      rw [List.flatMap_cons, List.foldlM_append, foldlM_scan_escapedChar, Option.bind_eq_bind,
        Option.bind_some, ih, List.flatMap_cons, List.reverse_append, List.append_assoc]

theorem unitChar?_toNat (c : Char) : unitChar? c.toNat = some c := by
  have valid : c.toNat.isValidChar := c.valid
  rw [unitChar?, if_pos valid, Char.ofNat_toNat]

theorem joinUnits?_cons {code : ℕ} (whole : code < 0xd800 ∨ 0xe000 ≤ code) (codes : List ℕ) :
    joinUnits? (code :: codes) = (unitChar? code).bind fun c => (joinUnits? codes).map (c :: ·) := by
  cases codes with
  | nil =>
      simp only [joinUnits?]
      cases unitChar? code <;> rfl
  | cons low codes => rw [joinUnits?, if_neg (by omega)]

theorem joinUnits?_units (c : Char) (codes : List ℕ) :
    joinUnits? (units c ++ codes) = (joinUnits? codes).map (c :: ·) := by
  have range := toNat_cases c
  by_cases small : c.toNat < 0x10000
  · rw [units_of_lt small, List.singleton_append, joinUnits?_cons (by omega), unitChar?_toNat,
      Option.bind_some]
  · have joined : 0x10000 + (0xd800 + (c.toNat - 0x10000) / 0x400 - 0xd800) * 0x400 +
        (0xdc00 + (c.toNat - 0x10000) % 0x400 - 0xdc00) = c.toNat := by omega
    rw [units, if_neg small]
    change joinUnits? (_ :: _ :: codes) = _
    rw [joinUnits?, if_pos (by omega), joined, Char.ofNat_toNat]

/-- Characters that are written as units, some as a pair, are joined again. -/
theorem joinUnits?_flatMap_units (cs : List Char) : joinUnits? (cs.flatMap units) = some cs := by
  induction cs with
  | nil => rfl
  | cons c cs ih => rw [List.flatMap_cons, joinUnits?_units, ih, Option.map_some]

theorem closes_string (s : String) : Closes (stringText s).toList [.value (.str s)] := by
  intro before
  have opened : ['"'].foldlM scan (before, .between) = some (before, .text []) := rfl
  have closed : scan (before, .text (s.toList.flatMap units).reverse) '"' =
      some (.value (.str s) :: before, .between) := by
    simp [scan, joinUnits?_flatMap_units]
  rw [stringText, String.toList_ofList, List.foldlM_append, List.foldlM_append, opened,
    Option.bind_eq_bind, Option.bind_some, foldlM_scan_escaped, List.append_nil,
    Option.bind_some, List.foldlM_cons, closed]
  rfl

/-! ## Texts as tokens -/

mutual

/-- The tokens that the text of a value consists of. -/
def tokens : Json Float → List Token
  | .arr items => .openList :: ([.comma].intercalate (itemTokens items) ++ [.closeList])
  | .obj fields => .openObject :: ([.comma].intercalate (fieldTokens fields) ++ [.closeObject])
  | value => [.value value]

def itemTokens : List (Json Float) → List (List Token)
  | [] => []
  | item :: items => tokens item :: itemTokens items

def fieldTokens : List (String × Json Float) → List (List Token)
  | [] => []
  | (name, value) :: fields => (.value (.str name) :: .colon :: tokens value) :: fieldTokens fields

end

theorem toList_block (depth : ℕ) (opening closing : String) {texts : List String}
    (filled : texts ≠ []) :
    (block depth opening closing texts).toList = opening.toList ++ (indent (depth + 1) ++
      ((',' :: indent (depth + 1)).intercalate (texts.map String.toList) ++
        (indent depth ++ closing.toList))) := by
  have comma : ",".toList = [','] := rfl
  have newline : "\n".toList = ['\n'] := rfl
  rw [block, List.isEmpty_eq_false_iff.mpr filled]
  simp only [Bool.false_eq_true, if_false, String.toList_append, String.toList_intercalate,
    String.toList_ofList, comma, newline, List.append_assoc, List.singleton_append, indent]

theorem closes_block (depth : ℕ) {opening closing : String} {o c : Char} {start finish : Token}
    {texts : List String} {parts : List (List Token)} (opens : opening.toList = [o])
    (closes : closing.toList = [c])
    (started : ∀ before, scanBetween before o = (start :: before, .between))
    (finished : ∀ before, scanBetween before c = (finish :: before, .between))
    (scanned : List.Forall₂ (fun text ts => Scans text.toList ts) texts parts) :
    Closes (block depth opening closing texts).toList
      (start :: ([.comma].intercalate parts ++ [finish])) := by
  have first : Closes [o] [start] := .single started
  have last : Closes [c] [finish] := .single finished
  have comma : Closes [','] [.comma] := .single fun _ => rfl
  rcases eq_or_ne texts [] with rfl | filled
  · cases scanned
    rw [block, List.isEmpty_nil, if_pos rfl, String.toList_append, opens, closes]
    exact first.append last
  · rw [toList_block depth opening closing filled, opens, closes]
    have inner := closes_intercalate (List.forall₂_map_left_iff.mpr scanned)
      (mt List.map_eq_nil_iff.mp filled) (comma.append (.indent (depth + 1)))
      ((Closes.indent depth).append last) (by simp [InWord])
    exact first.append ((Closes.indent (depth + 1)).append inner)

theorem scans_field (name : String) {value : String} {ts : List Token}
    (scanned : Scans value.toList ts) :
    Scans (stringText name ++ ": " ++ value).toList (.value (.str name) :: .colon :: ts) := by
  have colon : Closes [':', ' '] [.colon] := by
    have first : Closes [':'] [.colon] := .single fun _ => rfl
    exact first.append (.blanks 1)
  rw [String.toList_append, String.toList_append, List.append_assoc]
  exact (closes_string name).append_scans (colon.append_scans scanned)

mutual

theorem scans_textAt (depth : ℕ) : ∀ v : Json Float, Scans (textAt depth v).toList v.tokens
  | .null => .word isWord_null
  | .bool true => .word isWord_true
  | .bool false => .word isWord_false
  | .int n => .word (isWord_int n)
  | .num x => .word (isWord_num x)
  | .str s => (closes_string s).scans
  | .arr items => (closes_block depth rfl rfl (fun _ => rfl) (fun _ => rfl)
      (scans_itemTexts (depth + 1) items)).scans
  | .obj fields => (closes_block depth rfl rfl (fun _ => rfl) (fun _ => rfl)
      (scans_fieldTexts (depth + 1) fields)).scans

theorem scans_itemTexts (depth : ℕ) : ∀ items : List (Json Float),
    List.Forall₂ (fun text ts => Scans text.toList ts) (itemTexts depth items) (itemTokens items)
  | [] => .nil
  | item :: items => .cons (scans_textAt depth item) (scans_itemTexts depth items)

theorem scans_fieldTexts (depth : ℕ) : ∀ fields : List (String × Json Float),
    List.Forall₂ (fun text ts => Scans text.toList ts) (fieldTexts depth fields) (fieldTokens fields)
  | [] => .nil
  | (name, value) :: fields => .cons (scans_field name (scans_textAt depth value))
      (scans_fieldTexts depth fields)

end

/-! ## Values from tokens -/

mutual

/-- A value as it is read. Of fields with one name the last value is kept, in the place of the first. -/
def merged : Json Float → Json Float
  | .arr items => .arr (mergedItems items)
  | .obj fields => .obj (mergeEntries (mergedFields fields))
  | value => value

def mergedItems : List (Json Float) → List (Json Float)
  | [] => []
  | item :: items => merged item :: mergedItems items

def mergedFields : List (String × Json Float) → List (String × Json Float)
  | [] => []
  | (name, value) :: fields => (name, merged value) :: mergedFields fields

end

def Opens (e : Expected) : Prop := e = .value ∨ e = .itemOrClose

theorem Opens.value : Opens .value := .inl rfl

theorem Opens.itemOrClose : Opens .itemOrClose := .inr rfl

section Assembly

variable {frames : List Frame} {e : Expected}

theorem assemble_value (opens : Opens e) (v : Json Float) :
    assemble (frames, e) (.value v) = some (place v frames) := by
  rcases opens with rfl | rfl <;> rfl

theorem assemble_openList (opens : Opens e) :
    assemble (frames, e) .openList = some (.list [] :: frames, .itemOrClose) := by
  rcases opens with rfl | rfl <;> rfl

theorem assemble_openObject (opens : Opens e) :
    assemble (frames, e) .openObject = some (.object [] "" :: frames, .nameOrClose) := by
  rcases opens with rfl | rfl <;> rfl

def Names (e : Expected) : Prop := e = .name ∨ e = .nameOrClose

theorem assemble_name (names : Names e) (fields : List (String × Json Float)) (last name : String) :
    assemble (.object fields last :: frames, e) (.value (.str name)) =
      some (.object fields name :: frames, .colon) := by
  rcases names with rfl | rfl <;> rfl

/-- Tokens that are put together to a value, whatever is open around it. -/
def Assembles (ts : List Token) (v : Json Float) : Prop :=
  ∀ frames e, Opens e → ts.foldlM assemble (frames, e) = some (place v frames)

end Assembly

theorem assembles_items {parts : List (List Token)} {items : List (Json Float)}
    (assembled : List.Forall₂ Assembles parts items) (filled : parts ≠ []) (frames : List Frame)
    {e : Expected} (opens : Opens e) (done : List (Json Float)) :
    ([.comma].intercalate parts).foldlM assemble (.list done :: frames, e) =
      some (.list (items.reverse ++ done) :: frames, .separator) := by
  induction assembled generalizing done e with
  | nil => exact absurd rfl filled
  | @cons ts v parts items first later ih =>
      cases later with
      | nil =>
          rw [List.intercalate_singleton]
          exact first _ e opens
      | cons second later =>
          have next := ih (List.cons_ne_nil _ _) .value (v :: done)
          rw [List.intercalate_cons_cons, List.append_assoc, List.foldlM_append, first _ e opens,
            Option.bind_eq_bind, Option.bind_some, List.singleton_append, List.foldlM_cons, place,
            List.reverse_cons, List.append_assoc]
          exact next

def AssemblesField (ts : List Token) (field : String × Json Float) : Prop :=
  ∃ rest, ts = .value (.str field.1) :: .colon :: rest ∧ Assembles rest field.2

theorem AssemblesField.foldlM {ts : List Token} {name : String} {v : Json Float}
    (assembled : AssemblesField ts (name, v)) (frames : List Frame) {e : Expected} (names : Names e)
    (done : List (String × Json Float)) (last : String) :
    ts.foldlM assemble (.object done last :: frames, e) =
      some (.object ((name, v) :: done) name :: frames, .separator) := by
  obtain ⟨rest, rfl, assembles⟩ := assembled
  rw [List.foldlM_cons, assemble_name names]
  exact assembles _ .value .value

theorem assembles_fields {parts : List (List Token)} {fields : List (String × Json Float)}
    (assembled : List.Forall₂ AssemblesField parts fields) (filled : parts ≠ []) (frames : List Frame)
    {e : Expected} (names : Names e) (done : List (String × Json Float)) (last : String) :
    ∃ name, ([.comma].intercalate parts).foldlM assemble (.object done last :: frames, e) =
      some (.object (fields.reverse ++ done) name :: frames, .separator) := by
  induction assembled generalizing done e last with
  | nil => exact absurd rfl filled
  | @cons ts field parts fields first later ih =>
      have start := first.foldlM frames names done last
      cases later with
      | nil =>
          rw [List.intercalate_singleton]
          exact ⟨_, start⟩
      | cons second later =>
          obtain ⟨name, next⟩ := ih (List.cons_ne_nil _ _) (.inl rfl) (field :: done) field.1
          refine ⟨name, ?_⟩
          rw [List.intercalate_cons_cons, List.append_assoc, List.foldlM_append, start,
            Option.bind_eq_bind, Option.bind_some, List.singleton_append, List.foldlM_cons,
            List.reverse_cons, List.append_assoc]
          exact next

theorem assembles_list {parts : List (List Token)} {items : List (Json Float)}
    (assembled : List.Forall₂ Assembles parts items) :
    Assembles (.openList :: ([.comma].intercalate parts ++ [.closeList])) (.arr items) := by
  intro frames e opens
  rw [List.foldlM_cons, assemble_openList opens, Option.bind_eq_bind, Option.bind_some]
  rcases eq_or_ne parts [] with rfl | filled
  · cases assembled
    rfl
  · have read := assembles_items assembled filled frames .itemOrClose []
    rw [List.append_nil] at read
    rw [List.foldlM_append, read, Option.bind_eq_bind, Option.bind_some]
    change some (place (.arr items.reverse.reverse) frames) = _
    rw [List.reverse_reverse]

theorem assembles_object {parts : List (List Token)} {fields : List (String × Json Float)}
    (assembled : List.Forall₂ AssemblesField parts fields) :
    Assembles (.openObject :: ([.comma].intercalate parts ++ [.closeObject]))
      (.obj (mergeEntries fields)) := by
  intro frames e opens
  rw [List.foldlM_cons, assemble_openObject opens, Option.bind_eq_bind, Option.bind_some]
  rcases eq_or_ne parts [] with rfl | filled
  · cases assembled
    rfl
  · obtain ⟨name, read⟩ := assembles_fields assembled filled frames (.inr rfl) [] ""
    rw [List.append_nil] at read
    rw [List.foldlM_append, read, Option.bind_eq_bind, Option.bind_some]
    change some (place (.obj (mergeEntries fields.reverse.reverse)) frames) = _
    rw [List.reverse_reverse]

theorem assembles_single (v : Json Float) : Assembles [.value v] v := by
  intro frames e opens
  rw [List.foldlM_cons, assemble_value opens]
  rfl

mutual

theorem assembles_tokens : ∀ v : Json Float, Assembles v.tokens v.merged
  | .null => assembles_single _
  | .bool _ => assembles_single _
  | .int _ => assembles_single _
  | .num _ => assembles_single _
  | .str _ => assembles_single _
  | .arr items => assembles_list (assembles_itemTokens items)
  | .obj fields => assembles_object (assembles_fieldTokens fields)

theorem assembles_itemTokens : ∀ items : List (Json Float),
    List.Forall₂ Assembles (itemTokens items) (mergedItems items)
  | [] => .nil
  | item :: items => .cons (assembles_tokens item) (assembles_itemTokens items)

theorem assembles_fieldTokens : ∀ fields : List (String × Json Float),
    List.Forall₂ AssemblesField (fieldTokens fields) (mergedFields fields)
  | [] => .nil
  | (_, value) :: fields => .cons ⟨_, rfl, assembles_tokens value⟩ (assembles_fieldTokens fields)

end

/-- The text of a value is read as that value, but for names that an object has twice. -/
theorem read?_text (v : Json Float) : read? v.text = some v.merged := by
  obtain ⟨state, scanned, settles⟩ := scans_textAt 0 v []
  have tokenized : tokens? v.text = some v.tokens := by
    rw [tokens?, text, List.foldlM_append, scanned, Option.bind_eq_bind, Option.bind_some,
      List.foldlM_cons, settles '\n' (by simp [InWord]), List.append_nil]
    change some v.tokens.reverse.reverse = _
    rw [List.reverse_reverse]
  rw [read?, tokenized, Option.bind_some, assembles_tokens v [] .value .value]
  rfl

/-! ## Values that are read as they are -/

section Kept

variable {items : List (Json Float)} {fields : List (String × Json Float)}

/-- Nothing is lost of a value when its text is read. -/
def Kept (v : Json Float) : Prop := v.merged = v

def AllKept (fields : List (String × Json Float)) : Prop := ∀ field ∈ fields, Kept field.2

theorem AllKept.nil : AllKept [] := nofun

theorem AllKept.cons {name : String} {v : Json Float} (first : Kept v) (rest : AllKept fields) :
    AllKept ((name, v) :: fields) :=
  List.forall_mem_cons.mpr ⟨first, rest⟩

theorem mergedItems_eq_map (items : List (Json Float)) : mergedItems items = items.map merged := by
  induction items with
  | nil => rfl
  | cons item items ih => rw [mergedItems, ih, List.map_cons]

theorem mergedFields_eq_map (fields : List (String × Json Float)) :
    mergedFields fields = fields.map fun field => (field.1, field.2.merged) := by
  induction fields with
  | nil => rfl
  | cons field fields ih => rw [mergedFields, ih, List.map_cons]

theorem kept_arr (kept : ∀ item ∈ items, Kept item) : Kept (.arr items) := by
  refine congrArg Json.arr ?_
  rw [mergedItems_eq_map]
  exact (List.map_congr_left kept).trans (List.map_id items)

theorem mergeEntries_mergedFields (distinct : (fields.map Prod.fst).Nodup) :
    mergeEntries (mergedFields fields) = mergedFields fields := by
  refine mergeEntries_of_nodup ?_
  rw [mergedFields_eq_map, List.map_map]
  exact distinct

theorem kept_obj (distinct : (fields.map Prod.fst).Nodup) (kept : AllKept fields) :
    Kept (.obj fields) := by
  refine congrArg Json.obj ?_
  rw [mergeEntries_mergedFields distinct, mergedFields_eq_map]
  refine (List.map_congr_left fun field member => ?_).trans (List.map_id fields)
  rw [kept field member]
  rfl

/-- What stands under a name in an object is read on its own. -/
theorem get?_merged (distinct : (fields.map Prod.fst).Nodup) (name : String) :
    (Json.obj fields).merged.get? name = ((Json.obj fields).get? name).map merged := by
  change findEntry name (mergeEntries (mergedFields fields)) = _
  rw [mergeEntries_mergedFields distinct]
  change _ = (findEntry name fields).map merged
  clear distinct
  induction fields with
  | nil => rfl
  | cons field fields ih =>
      simp only [mergedFields, findEntry]
      split
      · rfl
      · exact ih

/-- If only what stands under one name may be read as something else, the rest is read as it is. -/
theorem get?_merged_of_ne (front : List (String × Json Float)) {back : List (String × Json Float)}
    {except name : String} {v : Json Float} (distinct : ((front ++ (except, v) :: back).map Prod.fst).Nodup)
    (before : AllKept front) (after : AllKept back) (other : name ≠ except) :
    (Json.obj (front ++ (except, v) :: back)).merged.get? name =
      (Json.obj (front ++ (except, v) :: back)).get? name := by
  rw [get?_merged distinct]
  change (findEntry name _).map merged = findEntry name _
  cases found : findEntry name (front ++ (except, v) :: back) with
  | none => rfl
  | some value =>
      refine congrArg some ?_
      rcases List.mem_append.mp (mem_of_findEntry found) with earlier | later
      · exact before _ earlier
      · rcases List.mem_cons.mp later with here | later
        · exact absurd (congrArg Prod.fst here) other
        · exact after _ later

end Kept

end LocalMetric.Json
