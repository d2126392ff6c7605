import LocalMetric.Decimal.Style
import LocalMetric.Proofs.SignificantDigits
import LocalMetric.Text.Number
/-!
# Written numbers read back

Whatever the style, the text of a decimal reads back as a decimal of the same value. So texts of
different values differ.
-/
namespace LocalMetric.Text

open Decimal

def Digits (ds : List Char) : Prop := ∀ c ∈ ds, c.isDigit = true

def Reads (cs : List Char) (x : ℚ) : Prop := ∃ d, decimal? cs = some d ∧ d.value = x

variable {ds es rest tail : List Char} {e : ℤ}

theorem digits_toDigits (n : ℕ) : Digits (Nat.toDigits 10 n) :=
  fun _ member => Nat.isDigit_of_mem_toDigits (by decide) (by decide) member

theorem digits_zeros (k : ℕ) : Digits (List.replicate k '0') := by
  intro c member
  rw [List.eq_of_mem_replicate member]
  decide

theorem Digits.append (first : Digits ds) (second : Digits es) : Digits (ds ++ es) :=
  fun c member => (List.mem_append.mp member).elim (first c) (second c)

/-! ## Values of rows of digits -/

theorem digitsValue_concat (ds : List Char) (c : Char) :
    digitsValue (ds ++ [c]) = 10 * digitsValue ds + (c.toNat - '0'.toNat) := by
  rw [digitsValue, List.foldl_append]
  rfl

theorem digitsValue_append (ds es : List Char) :
    digitsValue (ds ++ es) = digitsValue ds * 10 ^ es.length + digitsValue es := by
  induction es using List.reverseRecOn with
  | nil => simp [digitsValue]
  | append_singleton es c ih =>
      rw [← List.append_assoc, digitsValue_concat, digitsValue_concat, ih, List.length_append,
        List.length_singleton, pow_succ]
      ring

theorem digitsValue_zeros (k : ℕ) : digitsValue (List.replicate k '0') = 0 := by
  induction k with
  | zero => rfl
  | succ k ih =>
      rw [List.replicate_succ', digitsValue_append, ih]
      rfl

theorem digitsValue_toDigits (n : ℕ) : digitsValue (Nat.toDigits 10 n) = n :=
  Nat.ofDigitChars_ten_toDigits

/-! ## Parts of a number -/

theorem splitDigits_append (digits : Digits ds) (ends : ∀ c ∈ rest.head?, c.isDigit = false) :
    splitDigits (ds ++ rest) = (ds, rest) := by
  induction ds with
  | nil =>
      cases rest with
      | nil => rfl
      | cons c rest => simp [splitDigits, ends c rfl]
  | cons c ds ih =>
      have now := digits c List.mem_cons_self
      have later := ih fun c member => digits c (List.mem_cons_of_mem _ member)
      simp only [splitDigits, Prod.mk.injEq] at later ⊢
      simp [now, later]

/-- What follows the digits of a number starts with a letter, if there is anything. -/
theorem head_of_exponent? (exponent : exponent? tail = some e) :
    ∀ c ∈ tail.head?, c.isDigit = false ∧ c ≠ '.' := by
  rintro c head
  cases tail with
  | nil => cases head
  | cons c' cs =>
      obtain rfl : c' = c := Option.some.inj head
      simp only [exponent?] at exponent
      split at exponent
      · rename_i written
        rcases written.1 with rfl | rfl <;> decide
      · cases exponent

theorem reads_whole (digits : Digits ds) (filled : ds ≠ []) (exponent : exponent? tail = some e) :
    Reads (ds ++ tail) (digitsValue ds * 10 ^ e) := by
  have start := head_of_exponent? exponent
  refine ⟨⟨digitsValue ds, e⟩, ?_, rfl⟩
  rw [decimal?, splitDigits_append digits fun c head => (start c head).1]
  cases tail with
  | nil => simp [exponent, filled]
  | cons c cs =>
      have other := (start c rfl).2
      simp [exponent, filled, other]

theorem reads_point (digits : Digits ds) (filled : ds ≠ []) (fraction : Digits es)
    (exponent : exponent? tail = some e) :
    Reads (ds ++ '.' :: es ++ tail) (digitsValue (ds ++ es) * 10 ^ (e - es.length)) := by
  have start := head_of_exponent? exponent
  refine ⟨⟨digitsValue (ds ++ es), e - es.length⟩, ?_, rfl⟩
  have point : ∀ c ∈ ('.' :: (es ++ tail)).head?, c.isDigit = false := by
    rintro c ⟨⟩
    decide
  rw [List.append_assoc, List.cons_append, decimal?, splitDigits_append digits point]
  simp [splitDigits_append fraction fun c head => (start c head).1, exponent, filled]

theorem exponent?_exponentText (e : ℤ) : exponent? (exponentText e) = some e := by
  have row := (digits_zeros (2 - (Nat.toDigits 10 e.natAbs).length)).append
    (digits_toDigits e.natAbs)
  have filled : List.replicate (2 - (Nat.toDigits 10 e.natAbs).length) '0' ++
      Nat.toDigits 10 e.natAbs ≠ [] := by
    intro empty
    exact Nat.toDigits_ne_nil (List.append_eq_nil_iff.mp empty).2
  have value : digitsValue (List.replicate (2 - (Nat.toDigits 10 e.natAbs).length) '0' ++
      Nat.toDigits 10 e.natAbs) = e.natAbs := by
    rw [digitsValue_append, digitsValue_zeros, Nat.zero_mul, Nat.zero_add, digitsValue_toDigits]
  rw [exponentText, List.append_assoc]
  generalize List.replicate _ '0' ++ Nat.toDigits 10 e.natAbs = ds at row filled value
  have all : ds.all Char.isDigit = true := List.all_eq_true.mpr row
  by_cases negative : e < 0
  · simp [exponent?, splitSign, negative, filled, all, value, abs_of_neg negative]
  · simp [exponent?, splitSign, negative, filled, all, value, abs_of_nonneg (not_lt.mp negative)]

/-! ## Layouts -/

/-- The value of digits whose leading one stands for a power of ten. -/
def placed (ds : List Char) (leading : ℤ) : ℚ := digitsValue ds * 10 ^ (leading + 1 - ds.length)

theorem reads_pointAfterFirst (digits : Digits ds) (filled : ds ≠ []) (leading : ℤ) :
    Reads (pointAfterFirst ds ++ exponentText leading) (placed ds leading) := by
  have exponent := exponent?_exponentText leading
  match ds, filled with
  | [d], _ =>
      have place : leading + 1 - ([d].length : ℕ) = leading := by simp
      rw [placed, place]
      exact reads_whole digits (List.cons_ne_nil _ _) exponent
  | d :: e :: rest, _ =>
      obtain ⟨first, later⟩ := List.forall_mem_cons.mp digits
      have place : leading + 1 - ((d :: e :: rest).length : ℕ) = leading - (e :: rest).length := by
        simp only [List.length_cons]
        omega
      rw [placed, place]
      exact reads_point (List.forall_mem_singleton.mpr first) (List.cons_ne_nil _ _) later exponent

/-- Digits that end before the point are followed by zeros. -/
theorem digitsValue_padded (ds : List Char) {whole : ℕ} (fits : ds.length ≤ whole) :
    (digitsValue (ds ++ List.replicate (whole - ds.length) '0') : ℚ) =
      digitsValue ds * 10 ^ (whole - ds.length : ℤ) := by
  rw [digitsValue_append, digitsValue_zeros, List.length_replicate, ← Nat.cast_sub fits,
    zpow_natCast]
  push_cast
  ring

/-! Digits that all stand behind the point, that all stand before it, and that stand on both
sides. -/

theorem positional_of_neg (s : Style) {leading : ℤ} (small : leading < 0) :
    s.positional ds leading =
      ['0'] ++ '.' :: (List.replicate (-leading - 1).toNat '0' ++ ds) ++ [] := by
  rw [Style.positional, if_pos small, List.append_nil]
  rfl

theorem positional_of_le (s : Style) {k : ℕ} (fits : ds.length ≤ k + 1) :
    s.positional ds k = ds ++ List.replicate (k + 1 - ds.length) '0' ++
      if s.keepsPoint then ['.', '0'] else [] := by
  rw [Style.positional, if_neg (not_lt.mpr (Int.natCast_nonneg k))]
  simp [List.drop_of_length_le fits, List.take_of_length_le fits]

theorem positional_of_lt (s : Style) {k : ℕ} (more : k + 1 < ds.length) :
    s.positional ds k = ds.take (k + 1) ++ '.' :: ds.drop (k + 1) ++ [] := by
  have fraction : (ds.drop (k + 1)).isEmpty = false := by
    rw [List.isEmpty_eq_false_iff, ne_eq, List.drop_eq_nil_iff]
    omega
  rw [Style.positional, if_neg (not_lt.mpr (Int.natCast_nonneg k))]
  simp [fraction, Nat.sub_eq_zero_of_le more.le]

theorem reads_positional (s : Style) (digits : Digits ds) (filled : ds ≠ []) (leading : ℤ) :
    Reads (s.positional ds leading) (placed ds leading) := by
  have noExponent : exponent? [] = some 0 := rfl
  have zero : Digits ['0'] := digits_zeros 1
  by_cases small : leading < 0
  · have fraction := (digits_zeros (-leading - 1).toNat).append digits
    have value : digitsValue (['0'] ++ (List.replicate (-leading - 1).toNat '0' ++ ds)) =
        digitsValue ds := by
      rw [digitsValue_append, digitsValue_append, digitsValue_zeros]
      simp [digitsValue]
    have place : (0 - (List.replicate (-leading - 1).toNat '0' ++ ds).length : ℤ) =
        leading + 1 - ds.length := by
      rw [List.length_append, List.length_replicate]
      omega
    rw [positional_of_neg s small, placed, ← value, ← place]
    exact reads_point zero (List.cons_ne_nil _ _) fraction noExponent
  obtain ⟨k, rfl⟩ := Int.eq_ofNat_of_zero_le (not_lt.mp small)
  by_cases fits : ds.length ≤ k + 1
  · have padded := digits.append (digits_zeros (k + 1 - ds.length))
    have padFilled := List.append_ne_nil_of_left_ne_nil filled (List.replicate (k + 1 - ds.length) '0')
    have value := digitsValue_padded ds fits
    rw [positional_of_le s fits, placed]
    cases s.keepsPoint with
    | false =>
        have whole := reads_whole padded padFilled noExponent
        rw [value, zpow_zero, mul_one] at whole
        exact_mod_cast whole
    | true =>
        have point := reads_point padded padFilled zero noExponent
        have tenth (n : ℕ) : ((n * 10 ^ 1 + 0 : ℕ) : ℚ) * 10 ^ (0 - (1 : ℕ) : ℤ) = n := by
          rw [zero_sub, Nat.cast_one, zpow_neg_one]
          push_cast
          ring
        have last : digitsValue ['0'] = 0 := rfl
        rw [digitsValue_append _ ['0'], last, List.length_singleton, tenth, value] at point
        rw [List.append_nil] at point
        exact_mod_cast point
  · have first : Digits (ds.take (k + 1)) := fun c member => digits c (List.mem_of_mem_take member)
    have later : Digits (ds.drop (k + 1)) := fun c member => digits c (List.mem_of_mem_drop member)
    have point := reads_point first (by simp [filled]) later noExponent
    have place : (0 - (ds.drop (k + 1)).length : ℤ) = k + 1 - ds.length := by
      rw [List.length_drop]
      omega
    rw [List.take_append_drop, place] at point
    rw [positional_of_lt s (not_le.mp fits), placed]
    exact point

/-- The text of a decimal reads back as its value, in any style. -/
theorem reads_layout (s : Style) (d : Scientific) (deciding : ℤ) :
    Reads (s.layout d.digits d.leading deciding) d.value := by
  have digits : Digits d.digits := digits_toDigits d.coefficient
  have filled : d.digits ≠ [] := Nat.toDigits_ne_nil
  have value : placed d.digits d.leading = d.value := by
    rw [placed, Scientific.value, Scientific.digits, digitsValue_toDigits, Scientific.leading,
      digitCount]
    congr 2
    omega
  rw [Style.layout, ← value]
  split
  · exact reads_pointAfterFirst digits filled d.leading
  · exact reads_positional s digits filled d.leading

theorem value_eq_of_layout_eq {s : Style} {d d' : Scientific} {deciding deciding' : ℤ}
    (same : s.layout d.digits d.leading deciding = s.layout d'.digits d'.leading deciding') :
    d.value = d'.value := by
  obtain ⟨read, first, value⟩ := reads_layout s d deciding
  obtain ⟨read', second, value'⟩ := reads_layout s d' deciding'
  rw [same, second] at first
  rw [← value, ← value', Option.some.inj first]

end LocalMetric.Text
