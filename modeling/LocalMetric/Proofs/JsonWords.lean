import LocalMetric.Json.Printer
import LocalMetric.Json.Reader
import LocalMetric.Proofs.ShortestTexts
/-!
# Numbers in JSON texts

Numbers, truth values and null stand in a text without quotes. They consist of characters that nothing
else in a text goes on with, so that each is read as a whole, and each is read as the value it was written
for: a double has a point or an exponent in its text, and an integer has neither.
-/
namespace LocalMetric.Json

open Decimal Text
open BinaryFormat (double)

/-! ## Numbers -/

/-- The text of a number as its digits and what comes after them, a fraction or an exponent. -/
structure Shaped (whole rest : List Char) : Prop where
  digits : Digits whole
  filled : whole ≠ []
  leading : whole.head? = some '0' → whole.length = 1
  ends : ∀ c ∈ rest.head?, c.isDigit = false
  continues : rest ≠ []
  fraction : ∀ more, rest = '.' :: more → (splitDigits more).1 ≠ []

def signed (negative : Bool) (cs : List Char) : List Char := (if negative then ['-'] else []) ++ cs

theorem writtenNumber?_eq (negative : Bool) {c : Char} (digit : c.isDigit = true) (cs : List Char) :
    writtenNumber? (signed negative (c :: cs)) = unsigned? negative (c :: cs) := by
  cases negative with
  | true => rfl
  | false =>
      unfold writtenNumber? signed
      split
      · rename_i same
        obtain ⟨rfl, _⟩ := List.cons.inj same
        cases digit
      · rfl

theorem unsigned?_of_shaped {whole rest : List Char} (shaped : Shaped whole rest) (negative : Bool) :
    unsigned? negative (whole ++ rest) =
      (decimal? (whole ++ rest)).map fun d => .num (toDouble negative d) := by
  have parted := splitDigits_append shaped.digits shaped.ends
  have leading : (whole.head? = some '0' → whole.length = 1) = True := eq_true shaped.leading
  cases rest with
  | nil => exact absurd rfl shaped.continues
  | cons c tail =>
      by_cases point : c = '.'
      · subst point
        have fraction := shaped.fraction tail rfl
        simp only [unsigned?, decimal?, parted]
        generalize splitDigits tail = parts at fraction ⊢
        obtain ⟨ds, after⟩ := parts
        cases exponent? after with
        | none => simp [shaped.filled, fraction]
        | some e => simp [shaped.filled, leading, fraction]
      · cases exponent : exponent? (c :: tail) with
        | none => simp [unsigned?, decimal?, parted, exponent, shaped.filled, point]
        | some e => simp [unsigned?, decimal?, parted, exponent, shaped.filled, leading, point]

/-! ## Layouts -/

theorem head?_toDigits {n : ℕ} (positive : 0 < n) : (Nat.toDigits 10 n).head? ≠ some '0' := by
  induction n using Nat.strong_induction_on with
  | _ n ih =>
      rcases Nat.lt_or_ge n 10 with small | large
      · rw [Nat.toDigits_of_lt_base small]
        interval_cases n <;> decide
      · rw [Nat.toDigits_of_base_le (by decide) large, List.head?_append_of_ne_nil _ Nat.toDigits_ne_nil]
        exact ih (n / 10) (by omega) (by omega)

/-- The digits of a number start with a zero only if they are a single one. -/
def Leads (ds : List Char) : Prop := ds ≠ [] ∧ Digits ds ∧ (ds.head? = some '0' → ds = ['0'])

theorem leads_toDigits (n : ℕ) : Leads (Nat.toDigits 10 n) := by
  refine ⟨Nat.toDigits_ne_nil, digits_toDigits n, fun zero => ?_⟩
  rcases Nat.eq_zero_or_pos n with rfl | positive
  · rfl
  · exact absurd zero (head?_toDigits positive)

theorem shaped_point {whole es : List Char} (digits : Digits whole) (filled : whole ≠ [])
    (leading : whole.head? = some '0' → whole.length = 1) (fraction : Digits es) (continued : es ≠ [])
    (more : List Char) : Shaped whole ('.' :: (es ++ more)) := by
  refine ⟨digits, filled, leading, ?_, List.cons_ne_nil _ _, ?_⟩
  · rintro c ⟨⟩
    decide
  · rintro more ⟨⟩
    obtain ⟨c, cs, rfl⟩ := List.exists_cons_of_ne_nil continued
    simp [splitDigits, fraction c List.mem_cons_self]

theorem exists_shaped_pointAfterFirst {ds : List Char} (leads : Leads ds) (e : ℤ) :
    ∃ whole rest, pointAfterFirst ds ++ exponentText e = whole ++ rest ∧ Shaped whole rest := by
  obtain ⟨filled, digits, _⟩ := leads
  match ds, filled with
  | [d], _ =>
      refine ⟨[d], exponentText e, rfl, digits, List.cons_ne_nil _ _, fun _ => rfl, ?_, ?_, ?_⟩
      · rintro c ⟨⟩
        decide
      · exact List.cons_ne_nil _ _
      · rintro more ⟨⟩
  | d :: d' :: rest, _ =>
      obtain ⟨first, later⟩ := List.forall_mem_cons.mp digits
      exact ⟨[d], '.' :: (d' :: rest ++ exponentText e), rfl, shaped_point
        (List.forall_mem_singleton.mpr first) (List.cons_ne_nil _ _) (fun _ => rfl) later
        (List.cons_ne_nil _ _) _⟩

theorem exists_shaped_positional {ds : List Char} (leads : Leads ds) {e : ℤ}
    (zero : ds = ['0'] → e ≤ 0) :
    ∃ whole rest, Style.exact.positional ds e = whole ++ rest ∧ Shaped whole rest := by
  obtain ⟨filled, digits, first⟩ := leads
  by_cases small : e < 0
  · rw [positional_of_neg _ small, List.append_assoc]
    exact ⟨['0'], _, rfl, shaped_point (digits_zeros 1) (List.cons_ne_nil _ _) (fun _ => rfl)
      ((digits_zeros _).append digits) (List.append_ne_nil_of_right_ne_nil _ filled) _⟩
  obtain ⟨k, rfl⟩ := Int.eq_ofNat_of_zero_le (not_lt.mp small)
  by_cases fits : ds.length ≤ k + 1
  · rw [positional_of_le _ fits]
    refine ⟨ds ++ List.replicate (k + 1 - ds.length) '0', '.' :: (['0'] ++ []), rfl, shaped_point
      (digits.append (digits_zeros _)) (List.append_ne_nil_of_left_ne_nil filled _) (fun leading => ?_)
      (digits_zeros 1) (List.cons_ne_nil _ _) _⟩
    rw [List.head?_append_of_ne_nil _ filled] at leading
    obtain rfl := first leading
    have short := zero rfl
    rw [List.length_append, List.length_replicate, List.length_singleton]
    omega
  · rw [positional_of_lt _ (not_le.mp fits), List.append_assoc]
    refine ⟨ds.take (k + 1), _, rfl, shaped_point (fun c member => digits c (List.mem_of_mem_take member))
      ?_ (fun leading => ?_) (fun c member => digits c (List.mem_of_mem_drop member)) ?_ _⟩
    · simp [filled]
    · rw [List.head?_take, if_neg (by omega)] at leading
      rw [first leading] at fits
      simp at fits
    · rw [ne_eq, List.drop_eq_nil_iff]
      omega

theorem exists_shaped_layout (d : Scientific) (zero : d.coefficient = 0 → d.exponent ≤ 0)
    (deciding : ℤ) : ∃ whole rest, Style.exact.layout d.digits d.leading deciding = whole ++ rest ∧
      Shaped whole rest := by
  rw [Style.layout]
  split
  · exact exists_shaped_pointAfterFirst (leads_toDigits _) _
  · refine exists_shaped_positional (leads_toDigits _) fun single => ?_
    have empty : d.coefficient = 0 :=
      (digitsValue_toDigits d.coefficient).symm.trans (congrArg digitsValue single)
    have := zero empty
    rw [Scientific.leading, empty]
    change d.exponent + 1 - 1 ≤ 0
    omega

/-! ## Words -/

/-- Characters that numbers, and the words for values without parts, are made of. -/
def InWord (c : Char) : Prop := c.isAlphanum ∨ c = '+' ∨ c = '-' ∨ c = '.'

theorem inWord_of_isDigit {c : Char} (digit : c.isDigit = true) : InWord c := by
  refine .inl ?_
  rw [Char.isAlphanum, digit, Bool.or_true]

theorem inWord_of_digits {ds : List Char} (digits : ds.all Char.isDigit = true) :
    ∀ c ∈ ds, InWord c :=
  fun c member => inWord_of_isDigit (List.all_eq_true.mp digits c member)

theorem mem_splitSign {cs : List Char} {c : Char} (member : c ∈ cs) :
    c = '+' ∨ c = '-' ∨ c ∈ (splitSign cs).2 := by
  unfold splitSign
  split
  · rcases List.mem_cons.mp member with rfl | member
    · exact .inr (.inl rfl)
    · exact .inr (.inr member)
  · rcases List.mem_cons.mp member with rfl | member
    · exact .inl rfl
    · exact .inr (.inr member)
  · exact .inr (.inr member)

theorem inWord_of_exponent? {tail : List Char} {e : ℤ} (exponent : exponent? tail = some e) :
    ∀ c ∈ tail, InWord c := by
  cases tail with
  | nil => exact nofun
  | cons first cs =>
      simp only [exponent?] at exponent
      split at exponent
      · rename_i written
        obtain ⟨letter, _, digits⟩ := written
        intro c member
        rcases List.mem_cons.mp member with rfl | member
        · rcases letter with rfl | rfl
          · exact .inl (by decide)
          · exact .inl (by decide)
        · rcases mem_splitSign member with rfl | rfl | member
          · exact .inr (.inl rfl)
          · exact .inr (.inr (.inl rfl))
          · exact inWord_of_digits digits c member
      · cases exponent

theorem mem_splitDigits {cs : List Char} {c : Char} (member : c ∈ cs) :
    c.isDigit = true ∨ c ∈ (splitDigits cs).2 := by
  rw [← List.takeWhile_append_dropWhile (p := Char.isDigit) (l := cs)] at member
  rcases List.mem_append.mp member with front | rest
  · exact .inl (List.mem_takeWhile_imp front)
  · exact .inr rest

theorem inWord_of_decimal? {cs : List Char} {d : Scientific} (read : decimal? cs = some d) :
    ∀ c ∈ cs, InWord c := by
  intro c member
  rcases mem_splitDigits member with digit | member
  · exact inWord_of_isDigit digit
  simp only [decimal?, Option.bind_eq_bind, Option.bind_eq_some_iff] at read
  obtain ⟨_, _, e, exponent, _⟩ := read
  generalize (splitDigits cs).2 = rest at exponent member
  split at exponent
  · rcases List.mem_cons.mp member with rfl | member
    · exact .inr (.inr (.inr rfl))
    · rcases mem_splitDigits member with digit | member
      · exact inWord_of_isDigit digit
      · exact inWord_of_exponent? exponent c member
  · exact inWord_of_exponent? exponent c member

/-- A text without quotes that is read as a value, whatever stands behind it. -/
structure IsWord (cs : List Char) (v : Json Float) : Prop where
  filled : cs ≠ []
  inside : ∀ c ∈ cs, InWord c
  read : word? (String.ofList cs) = some v

theorem inWord_signed {cs : List Char} (inside : ∀ c ∈ cs, InWord c) (negative : Bool) :
    ∀ c ∈ signed negative cs, InWord c := by
  cases negative with
  | false => exact inside
  | true => exact List.forall_mem_cons.mpr ⟨.inr (.inr (.inl rfl)), inside⟩

section Signs

variable {negative : Bool} {c d : Char} {cs rest : List Char} {w : String}

theorem ofList_signed_ne (digit : c.isDigit = true) (start : w.toList = d :: rest)
    (letter : d ≠ '-' ∧ d.isDigit = false) : String.ofList (signed negative (c :: cs)) ≠ w := by
  rintro rfl
  rw [String.toList_ofList] at start
  cases negative with
  | false =>
      obtain ⟨rfl, _⟩ := List.cons.inj start
      rw [digit] at letter
      cases letter.2
  | true => exact letter.1 (List.cons.inj start).1.symm

theorem ofList_signed_ne_of_sign (digit : c.isDigit = true) (start : w.toList = '-' :: d :: rest)
    (letter : d.isDigit = false) : String.ofList (signed negative (c :: cs)) ≠ w := by
  rintro rfl
  rw [String.toList_ofList] at start
  cases negative with
  | false =>
      obtain ⟨rfl, _⟩ := List.cons.inj start
      cases digit
  | true =>
      obtain ⟨rfl, _⟩ := List.cons.inj (List.cons.inj start).2
      rw [digit] at letter
      cases letter

/-- No word that is not a number starts with a digit or with a sign and a digit. -/
theorem word?_signed (negative : Bool) (digit : c.isDigit = true) :
    word? (String.ofList (signed negative (c :: cs))) = writtenNumber? (signed negative (c :: cs)) := by
  unfold word?
  split
  · exact absurd ‹_› (ofList_signed_ne digit rfl (by decide))
  · exact absurd ‹_› (ofList_signed_ne digit rfl (by decide))
  · exact absurd ‹_› (ofList_signed_ne digit rfl (by decide))
  · exact absurd ‹_› (ofList_signed_ne digit rfl (by decide))
  · exact absurd ‹_› (ofList_signed_ne digit rfl (by decide))
  · exact absurd ‹_› (ofList_signed_ne_of_sign digit rfl (by decide))
  · rw [String.toList_ofList]

theorem numberText_signed {x : Float} (text : Numeral.exact x = String.ofList (signed negative (c :: cs)))
    (digit : c.isDigit = true) : numberText x = String.ofList (signed negative (c :: cs)) := by
  unfold numberText
  rw [text]
  split
  · exact absurd ‹_› (ofList_signed_ne digit rfl (by decide))
  · exact absurd ‹_› (ofList_signed_ne digit rfl (by decide))
  · exact absurd ‹_› (ofList_signed_ne_of_sign digit rfl (by decide))
  · rfl

end Signs

theorem unsigned?_of_leads {ds : List Char} (leads : Leads ds) (negative : Bool) :
    unsigned? negative ds =
      some (.int (if negative then -(digitsValue ds : Int) else digitsValue ds)) := by
  obtain ⟨filled, digits, first⟩ := leads
  have parted : splitDigits ds = (ds, []) := by
    have ends : ∀ c ∈ ([] : List Char).head?, c.isDigit = false := nofun
    have parted := splitDigits_append digits ends
    rwa [List.append_nil] at parted
  have leading : (ds.head? = some '0' → ds.length = 1) = True := eq_true fun zero => by
    rw [first zero]
    rfl
  simp [unsigned?, parted, filled, leading]

theorem toList_toString (n : ℤ) :
    (toString n).toList = signed (decide (n < 0)) (Nat.toDigits 10 n.natAbs) := by
  cases n with
  | ofNat k =>
      have text : toString (Int.ofNat k) = toString k := rfl
      rw [text, Nat.toString_eq_ofList_toDigits, String.toList_ofList]
      rfl
  | negSucc k =>
      have text : toString (Int.negSucc k) = "-" ++ toString (k + 1) := rfl
      rw [text, String.toList_append, Nat.toString_eq_ofList_toDigits,
        String.toList_ofList (l := Nat.toDigits 10 (k + 1)), decide_eq_true (Int.negSucc_lt_zero k)]
      rfl

theorem isWord_int (n : ℤ) : IsWord (toString n).toList (.int n) := by
  have leads := leads_toDigits n.natAbs
  have inside : ∀ c ∈ Nat.toDigits 10 n.natAbs, InWord c :=
    fun c member => inWord_of_isDigit (leads.2.1 c member)
  refine ⟨?_, ?_, ?_⟩
  · rw [toList_toString]
    exact List.append_ne_nil_of_right_ne_nil _ leads.1
  · rw [toList_toString]
    exact inWord_signed inside _
  · obtain ⟨c, cs, same⟩ := List.exists_cons_of_ne_nil leads.1
    have digit := leads.2.1 c (same ▸ List.mem_cons_self)
    rw [toList_toString, same, word?_signed _ digit, writtenNumber?_eq _ digit, ← same,
      unsigned?_of_leads leads, digitsValue_toDigits]
    refine congrArg (some ∘ Json.int) ?_
    rcases lt_or_ge n 0 with negative | nonneg
    · rw [if_pos (decide_eq_true negative)]
      omega
    · rw [if_neg (by simpa using nonneg)]
      omega

/-! ## Doubles -/

theorem toBits_infinity : (1.0 / 0.0 : Float).toBits.toNat = 2047 * 2 ^ 52 := by decide +kernel

theorem toBits_negInfinity : (-1.0 / 0.0 : Float).toBits.toNat = 2 ^ 63 + 2047 * 2 ^ 52 := by
  decide +kernel

theorem toBits_nan : (0.0 / 0.0 : Float).toBits.toBitVec =
    Float.Model.UnpackedFloat.packedNaN .binary64 := by decide +kernel

theorem eq_of_decode_infinite {x : Float} {negative : Bool}
    (decoded : double.decode x.toBits.toNat = .infinite negative) :
    x = if negative then -1.0 / 0.0 else 1.0 / 0.0 := by
  have parts := parts_of_bits x.toBits.toNat_lt
  rw [decode_double] at decoded
  split_ifs at decoded with full zero
  obtain rfl := Binary.infinite.inj decoded
  rw [full, zero] at parts
  rw [← Float.toBits_inj, ← UInt64.toNat_inj]
  split
  · rename_i high
    rw [toBits_negInfinity, parts, if_pos high, Nat.add_zero]
  · rename_i low
    rw [toBits_infinity, parts, if_neg low, Nat.zero_add, Nat.add_zero]

theorem eq_of_decode_nan {x : Float} (decoded : double.decode x.toBits.toNat = .nan) :
    x = 0.0 / 0.0 := by
  have exponent := toNat_unpackExponent x.toBits.toBitVec
  have mantissa := toNat_unpackMantissa x.toBits.toBitVec
  rw [UInt64.toNat_toBitVec] at exponent mantissa
  rw [decode_double] at decoded
  split_ifs at decoded with full zero
  rw [full] at exponent
  have packed := x.toModel.valid.eq_packedNaN (BitVec.eq_of_toNat_eq exponent) fun empty => by
    refine zero (mantissa.symm.trans ?_)
    exact congrArg BitVec.toNat empty
  rw [← Float.toBits_inj, ← UInt64.toBitVec_inj, toBits_nan]
  exact packed

/-! ## Texts of doubles -/

theorem shortest_zero (m : ℕ) (q : ℤ) (stored : 0 < m → Stored m q)
    (zero : (shortest double m q).coefficient = 0) : (shortest double m q).exponent ≤ 0 := by
  rcases Nat.eq_zero_or_pos m with rfl | positive
  · exact le_rfl
  · have value := (between_shortest (stored positive)).pos positive
    rw [Scientific.value, zero, Nat.cast_zero, zero_mul] at value
    exact absurd value (lt_irrefl _)

theorem isWord_literal {w : String} {v : Json Float} (cs : List Char) (chars : w.toList = cs)
    (filled : cs ≠ []) (inside : ∀ c ∈ cs, InWord c) (read : word? w = some v) :
    IsWord w.toList v := by
  refine ⟨chars ▸ filled, chars ▸ inside, ?_⟩
  rw [String.ofList_toList, read]

theorem isWord_nan : IsWord "NaN".toList (.num (0.0 / 0.0)) :=
  isWord_literal ['N', 'a', 'N'] rfl (by decide) (by simp [InWord]) (by rw [word?])

theorem isWord_infinity : IsWord "Infinity".toList (.num (1.0 / 0.0)) :=
  isWord_literal ['I', 'n', 'f', 'i', 'n', 'i', 't', 'y'] rfl (by decide) (by simp [InWord])
    (by rw [word?])

theorem isWord_negInfinity : IsWord "-Infinity".toList (.num (-1.0 / 0.0)) :=
  isWord_literal ['-', 'I', 'n', 'f', 'i', 'n', 'i', 't', 'y'] rfl (by decide) (by simp [InWord])
    (by rw [word?])

theorem isWord_null : IsWord "null".toList .null :=
  isWord_literal ['n', 'u', 'l', 'l'] rfl (by decide) (by simp [InWord]) (by rw [word?])

theorem isWord_true : IsWord "true".toList (.bool true) :=
  isWord_literal ['t', 'r', 'u', 'e'] rfl (by decide) (by simp [InWord]) (by rw [word?])

theorem isWord_false : IsWord "false".toList (.bool false) :=
  isWord_literal ['f', 'a', 'l', 's', 'e'] rfl (by decide) (by simp [InWord]) (by rw [word?])

theorem exact_eq {x : Float} {b : Binary} (decoded : double.decode x.toBits.toNat = b) :
    Numeral.exact x = Style.exact.text (shortest double) b := by
  rw [← decoded]
  rfl

theorem isWord_finite {x : Float} {negative : Bool} {m : ℕ} {q : ℤ}
    (decoded : double.decode x.toBits.toNat = .finite negative m q) :
    IsWord (numberText x).toList (.num x) := by
  have stored := (stored_of_decode x.toBits.toNat_lt decoded).2
  have zero := shortest_zero m q stored
  obtain ⟨whole, rest, same, shaped⟩ := exists_shaped_layout _ zero (shortest double m q).leading
  obtain ⟨d, read, value⟩ :=
    reads_layout Style.exact (shortest double m q) (shortest double m q).leading
  obtain ⟨c, cs, rfl⟩ := List.exists_cons_of_ne_nil shaped.filled
  have digit := shaped.digits c List.mem_cons_self
  have text : Numeral.exact x = String.ofList (signed negative (c :: cs ++ rest)) := by
    rw [exact_eq decoded, Style.text, ← same]
    rfl
  rw [same] at read
  have number : numberText x = Numeral.exact x := by
    rw [text, List.cons_append]
    exact numberText_signed text digit
  rw [number, text, String.toList_ofList]
  refine ⟨?_, inWord_signed (inWord_of_decimal? read) negative, ?_⟩
  · exact List.append_ne_nil_of_right_ne_nil _ (List.cons_ne_nil _ _)
  · have start := writtenNumber?_eq negative digit (cs ++ rest)
    rw [← List.cons_append] at start
    rw [List.cons_append, word?_signed negative digit, ← List.cons_append, start,
      unsigned?_of_shaped shaped, read, Option.map_some, toDouble_of_value_eq decoded value]

/-- The text of a double is read as that double. -/
theorem isWord_num (x : Float) : IsWord (numberText x).toList (.num x) := by
  cases decoded : double.decode x.toBits.toNat with
  | nan =>
      have text : numberText x = "NaN" := by
        simp [numberText, exact_eq decoded, Style.text]
      rw [text, eq_of_decode_nan decoded]
      exact isWord_nan
  | infinite negative =>
      have same := eq_of_decode_infinite decoded
      cases negative with
      | false =>
          have text : numberText x = "Infinity" := by
            simp [numberText, exact_eq decoded, Style.text]
          rw [text, same]
          exact isWord_infinity
      | true =>
          have text : numberText x = "-Infinity" := by
            simp [numberText, exact_eq decoded, Style.text]
          rw [text, same]
          exact isWord_negInfinity
  | finite negative m q => exact isWord_finite decoded

end LocalMetric.Json
