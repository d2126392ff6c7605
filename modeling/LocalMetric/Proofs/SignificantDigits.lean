import Mathlib.Algebra.Order.Field.Power
import Mathlib.Algebra.Order.Floor.Ring
import Mathlib.Data.Int.Log
import Mathlib.Data.Rat.Floor
import Mathlib.Tactic.Linarith
import Mathlib.Tactic.NormNum
import Mathlib.Tactic.Positivity
import Mathlib.Tactic.Ring
import LocalMetric.Decimal.Digits
/-!
# Rounding to significant digits

A ratio that is rounded to a count of significant digits has the value that rational arithmetic
gives: the power of ten is that of its logarithm, and a half goes to the even neighbour. Without
zeros at its end, a decimal is determined by its value.
-/
namespace LocalMetric.Decimal

/-- The integer nearest to a number; of two that are equally near, the even one. -/
def nearestEven (x : ℚ) : ℤ :=
  if 2 * Int.fract x < 1 then ⌊x⌋
  else if 1 < 2 * Int.fract x then ⌊x⌋ + 1
  else ⌊x⌋ + ⌊x⌋ % 2

def lastPlace (count : ℕ) (x : ℚ) : ℤ := Int.log 10 x - count + 1

/-- A number rounded to `count` significant digits. -/
def significant (count : ℕ) (x : ℚ) : ℚ :=
  nearestEven (x / 10 ^ lastPlace count x) * 10 ^ lastPlace count x

theorem abs_sub_nearestEven_le (x : ℚ) : |x - nearestEven x| ≤ 1 / 2 := by
  have parts : (⌊x⌋ : ℚ) + Int.fract x = x := Int.floor_add_fract x
  have nonneg := Int.fract_nonneg x
  have lt_one := Int.fract_lt_one x
  rw [nearestEven]
  split
  · rw [abs_le]
    constructor <;> linarith
  · split
    · push_cast
      rw [abs_le]
      constructor <;> linarith
    · rcases Int.emod_two_eq_zero_or_one ⌊x⌋ with even | odd
      · rw [even, add_zero, abs_le]
        constructor <;> linarith
      · rw [odd]
        push_cast
        rw [abs_le]
        constructor <;> linarith

theorem nearestEven_div (n : ℕ) {d : ℕ} (positive : 0 < d) :
    nearestEven (n / d : ℚ) = roundToEven n d := by
  have hd : (0 : ℚ) < d := by exact_mod_cast positive
  have whole : ⌊(n / d : ℚ)⌋ = (n / d : ℕ) := by
    rw [Rat.floor_natCast_div_natCast, Int.natCast_ediv]
  have twice : 2 * Int.fract (n / d : ℚ) = (2 * (n % d) : ℕ) / d := by
    rw [Int.fract_div_natCast_eq_div_natCast_mod]
    push_cast
    ring
  have below : 2 * Int.fract (n / d : ℚ) < 1 ↔ 2 * (n % d) < d := by
    rw [twice, div_lt_one hd]
    exact_mod_cast Iff.rfl
  have above : 1 < 2 * Int.fract (n / d : ℚ) ↔ d < 2 * (n % d) := by
    rw [twice, one_lt_div hd]
    exact_mod_cast Iff.rfl
  simp only [nearestEven, roundToEven, whole, below, above]
  split_ifs <;> push_cast <;> rfl

/-! ## Powers in numerators and denominators -/

/-- A power in the numerator or in the denominator, whichever it belongs to, scales the ratio. -/
theorem div_pow_toNat {b : ℕ} (base : 0 < b) (n d : ℚ) (p : ℤ) :
    n * b ^ (-p).toNat / (d * b ^ p.toNat) = n / d / (b : ℚ) ^ p := by
  have hb : (b : ℚ) ≠ 0 := by exact_mod_cast base.ne'
  rcases Int.le_total 0 p with up | down
  · obtain ⟨k, rfl⟩ := Int.eq_ofNat_of_zero_le up
    rw [Int.toNat_of_nonpos (by omega), Int.toNat_natCast, zpow_natCast, pow_zero, mul_one, div_div]
  · obtain ⟨k, same⟩ := Int.eq_ofNat_of_zero_le (Int.neg_nonneg_of_nonpos down)
    obtain rfl : p = -k := by omega
    rw [neg_neg, Int.toNat_natCast, Int.toNat_of_nonpos (by omega), zpow_neg, zpow_natCast,
      pow_zero, mul_one, div_inv_eq_mul, mul_div_right_comm]

theorem tenTo_eq (k : ℕ) : tenTo k = 10 ^ k := rfl

theorem shifted_ratio (m : ℕ) (q : ℤ) :
    ((m <<< q.toNat : ℕ) : ℚ) / (1 <<< (-q).toNat : ℕ) = m * 2 ^ q := by
  have scaled := div_pow_toNat (b := 2) (by decide) m 1 (-q)
  rw [neg_neg, div_one, zpow_neg, div_inv_eq_mul] at scaled
  rw [Nat.shiftLeft_eq, Nat.shiftLeft_eq, ← Nat.cast_ofNat (R := ℚ), ← scaled]
  push_cast
  rfl

/-! ## Leading digits -/

theorem digitCount_le_iff {n k : ℕ} (positive : 0 < k) : digitCount n ≤ k ↔ n < 10 ^ k :=
  Nat.length_toDigits_le_iff (by decide) positive

theorem digitCount_pos (n : ℕ) : 0 < digitCount n := Nat.length_toDigits_pos

theorem lt_ten_pow_digitCount (n : ℕ) : n < 10 ^ digitCount n :=
  (digitCount_le_iff (digitCount_pos n)).mp le_rfl

theorem ten_pow_le {n : ℕ} (positive : 0 < n) : 10 ^ (digitCount n - 1) ≤ n := by
  rcases Nat.eq_zero_or_pos (digitCount n - 1) with single | more
  · rw [single]
    exact positive
  · rw [← not_lt, ← digitCount_le_iff more]
    omega

theorem log_eq {b : ℕ} (base : 1 < b) {x : ℚ} {k : ℤ} (le : (b : ℚ) ^ k ≤ x)
    (lt : x < (b : ℚ) ^ (k + 1)) : Int.log b x = k := by
  have positive : 0 < x := lt_of_lt_of_le (by positivity) le
  have lower := (Int.zpow_le_iff_le_log base positive).mp le
  have upper := (Int.lt_zpow_iff_log_lt base positive).mp lt
  omega

theorem pow_toNat_le_iff {b : ℕ} (base : 0 < b) {n d : ℕ} (hd : 0 < d) (p : ℤ) :
    d * b ^ p.toNat ≤ n * b ^ (-p).toNat ↔ (b : ℚ) ^ p ≤ n / d := by
  have scaled := div_pow_toNat base n d p
  have denominator : (0 : ℚ) < d * b ^ p.toNat := by positivity
  rw [← one_le_div₀ (b := (b : ℚ) ^ p) (by positivity), ← scaled, one_le_div₀ denominator]
  exact_mod_cast Iff.rfl

/-- Where both parts of a ratio begin gives its logarithm up to one, and a comparison tells the rest. -/
theorem log_ratio_eq {b : ℕ} (base : 1 < b) {n d : ℕ} (hd : 0 < d) {i j : ℤ} (low : (b : ℚ) ^ i ≤ n)
    (high : (n : ℚ) < b ^ (i + 1)) (low' : (b : ℚ) ^ j ≤ d) (high' : (d : ℚ) < b ^ (j + 1)) :
    (if d * b ^ (i - j).toNat ≤ n * b ^ (-(i - j)).toNat then i - j else i - j - 1) =
      Int.log b (n / d : ℚ) := by
  have unit : (0 : ℚ) < b := by exact_mod_cast Nat.zero_lt_of_lt base
  have hd' : (0 : ℚ) < d := by exact_mod_cast hd
  have least : (b : ℚ) ^ (i - j - 1) ≤ n / d := by
    rw [le_div_iff₀ hd']
    calc (b : ℚ) ^ (i - j - 1) * d ≤ b ^ (i - j - 1) * b ^ (j + 1) := by gcongr
      _ = b ^ i := by
        rw [← zpow_add₀ unit.ne']
        congr 1
        ring
      _ ≤ n := low
  have most : (n / d : ℚ) < b ^ (i - j + 1) := by
    rw [div_lt_iff₀ hd']
    calc (n : ℚ) < b ^ (i + 1) := high
      _ = b ^ (i - j + 1) * b ^ j := by
        rw [← zpow_add₀ unit.ne']
        congr 1
        ring
      _ ≤ b ^ (i - j + 1) * d := by gcongr
  simp only [pow_toNat_le_iff (Nat.zero_lt_of_lt base) hd]
  split
  · exact (log_eq base ‹_› most).symm
  · refine (log_eq base least ?_).symm
    rw [sub_add_cancel]
    exact not_le.mp ‹_›

theorem digitCount_bounds {n : ℕ} (positive : 0 < n) :
    (10 : ℚ) ^ (digitCount n - 1 : ℤ) ≤ n ∧ (n : ℚ) < 10 ^ (digitCount n - 1 + 1 : ℤ) := by
  have counted : (digitCount n - 1 : ℤ) = (digitCount n - 1 : ℕ) := by
    have := digitCount_pos n
    omega
  rw [sub_add_cancel, counted, zpow_natCast, zpow_natCast]
  exact ⟨by exact_mod_cast ten_pow_le positive, by exact_mod_cast lt_ten_pow_digitCount n⟩

theorem log2_bounds {n : ℕ} (positive : 0 < n) :
    (2 : ℚ) ^ (n.log2 : ℤ) ≤ n ∧ (n : ℚ) < 2 ^ (n.log2 + 1 : ℤ) :=
  ⟨by exact_mod_cast Nat.log2_self_le positive.ne', by exact_mod_cast Nat.lt_log2_self⟩

theorem leadingExponent_eq {n d : ℕ} (hn : 0 < n) (hd : 0 < d) :
    leadingExponent n d = Int.log 10 (n / d : ℚ) := by
  obtain ⟨low, high⟩ := digitCount_bounds hn
  obtain ⟨low', high'⟩ := digitCount_bounds hd
  have log := log_ratio_eq (b := 10) (by decide) hd low high low' high'
  rwa [sub_sub_sub_cancel_right] at log

/-! ## Rounded ratios -/

namespace Scientific

/-- The number that a decimal stands for. -/
def value (d : Scientific) : ℚ := d.coefficient * 10 ^ d.exponent

/-- Dropping a zero at the end keeps the value. -/
theorem value_tenth {c : ℕ} (ends : c % 10 = 0) (e : ℤ) : value ⟨c / 10, e + 1⟩ = value ⟨c, e⟩ := by
  obtain ⟨k, rfl⟩ := Nat.dvd_of_mod_eq_zero ends
  rw [value, value, Nat.mul_div_cancel_left _ (by decide), zpow_add_one₀ (by norm_num)]
  push_cast
  ring

theorem value_trimmed (fuel : ℕ) (d : Scientific) : (trimmed fuel d).value = d.value := by
  induction fuel generalizing d with
  | zero => rfl
  | succ fuel ih =>
      rw [trimmed]
      split
      · rename_i ends
        exact (ih _).trans (value_tenth ends.2 _)
      · rfl

/-- Without zeros at the end. -/
def Canonical (d : Scientific) : Prop := d.coefficient % 10 ≠ 0

theorem canonical_trimmed {fuel : ℕ} {d : Scientific} (nonzero : d.coefficient ≠ 0)
    (short : d.coefficient < 10 ^ fuel) : (trimmed fuel d).Canonical := by
  induction fuel generalizing d with
  | zero => exact absurd (Nat.lt_one_iff.mp short) nonzero
  | succ fuel ih =>
      rw [trimmed]
      split
      · rename_i ends
        have tens := Nat.div_mul_cancel (Nat.dvd_of_mod_eq_zero ends.2)
        rw [pow_succ] at short
        exact ih (d := ⟨d.coefficient / 10, _⟩) (by simp only; omega) (by simp only; omega)
      · rename_i other
        exact fun ends => other ⟨nonzero, ends⟩

theorem Canonical.eq_of_value_eq {d d' : Scientific} (first : d.Canonical) (second : d'.Canonical)
    (same : d.value = d'.value) : d = d' := by
  wlog ordered : d.exponent ≤ d'.exponent
  · exact (this second first same.symm (by omega)).symm
  obtain ⟨gap, higher⟩ := Int.le.dest ordered
  have coefficients : d.coefficient = d'.coefficient * 10 ^ gap := by
    rw [value, value, ← higher, zpow_add₀ (by norm_num), zpow_natCast,
      mul_comm (10 ^ _ : ℚ) (10 ^ gap), ← mul_assoc] at same
    exact_mod_cast mul_right_cancel₀ (zpow_ne_zero _ (by norm_num)) same
  cases gap with
  | zero =>
      have exponents : d.exponent = d'.exponent := by omega
      rw [pow_zero, mul_one] at coefficients
      cases d
      cases d'
      simp_all
  | succ gap =>
      rw [pow_succ, ← mul_assoc] at coefficients
      exact absurd (coefficients ▸ Nat.mul_mod_left _ _) first

end Scientific

section Rounding

variable {count n d : ℕ}

/-- A number has as many digits before its last place as are counted. -/
theorem scaled_bounds {x : ℚ} (digits : 0 < count) (positive : 0 < x) :
    (10 : ℚ) ^ (count - 1) ≤ x / 10 ^ lastPlace count x ∧
      x / 10 ^ lastPlace count x < 10 ^ count := by
  have low : (10 : ℚ) ^ Int.log 10 x ≤ x := by
    simpa using Int.zpow_log_le_self (b := 10) (by decide) positive
  have high : x < (10 : ℚ) ^ (Int.log 10 x + 1) := by
    simpa using Int.lt_zpow_succ_log_self (b := 10) (by decide) x
  have shifted (k : ℕ) :
      (10 : ℚ) ^ k * 10 ^ lastPlace count x = 10 ^ (Int.log 10 x - count + 1 + k) := by
    rw [lastPlace, ← zpow_natCast, ← zpow_add₀ (by norm_num), add_comm (k : ℤ)]
  constructor
  · have place : Int.log 10 x - count + 1 + (count - 1 : ℕ) = Int.log 10 x := by omega
    rw [le_div_iff₀ (by positivity), shifted, place]
    exact low
  · have place : Int.log 10 x - count + 1 + count = Int.log 10 x + 1 := by omega
    rw [div_lt_iff₀ (by positivity), shifted, place]
    exact high

theorem roundToEven_scaled (hd : 0 < d) (place : ℤ) :
    (roundToEven (n * tenTo (-place).toNat) (d * tenTo place.toNat) : ℤ) =
      nearestEven (n / d / 10 ^ place) := by
  have scaled := div_pow_toNat (b := 10) (by decide) n d place
  have positive : 0 < d * tenTo place.toNat := Nat.mul_pos hd (Nat.pow_pos (by decide))
  rw [← nearestEven_div _ positive, tenTo_eq, tenTo_eq]
  push_cast at scaled ⊢
  rw [scaled]

/-- Rounding carries at most up to the first number with one more digit. -/
theorem nearestEven_scaled {x : ℚ} (digits : 0 < count) (positive : 0 < x) :
    0 < nearestEven (x / 10 ^ lastPlace count x) ∧
      nearestEven (x / 10 ^ lastPlace count x) ≤ 10 ^ count := by
  obtain ⟨low, high⟩ := scaled_bounds digits positive
  have near := abs_le.mp (abs_sub_nearestEven_le (x / 10 ^ lastPlace count x))
  have one_le : (1 : ℚ) ≤ 10 ^ (count - 1) := one_le_pow₀ (by norm_num)
  constructor
  · have above : (0 : ℚ) < nearestEven (x / 10 ^ lastPlace count x) := by linarith
    exact_mod_cast above
  · have below : (nearestEven (x / 10 ^ lastPlace count x) : ℚ) < 10 ^ count + 1 := by linarith
    exact Int.lt_add_one_iff.mp (by exact_mod_cast below)

/-- A rounded ratio has the value of the number rounded to as many significant digits. -/
theorem roundedRatio_spec (shown : 0 < count) (hn : 0 < n) (hd : 0 < d) :
    (roundedRatio count n d).value = significant count (n / d) ∧
      (roundedRatio count n d).coefficient ≠ 0 ∧
      (roundedRatio count n d).coefficient < 10 ^ count := by
  have positive : (0 : ℚ) < n / d := by positivity
  obtain ⟨above, below⟩ := nearestEven_scaled shown positive
  have nearest := roundToEven_scaled (n := n) hd (lastPlace count (n / d))
  simp only [roundedRatio, if_neg hn.ne', leadingExponent_eq hn hd]
  rw [lastPlace] at nearest above below
  generalize roundToEven (n * _) (d * _) = coefficient at nearest ⊢
  rw [← nearest] at above below
  have filled : coefficient ≠ 0 := by omega
  have bounded : coefficient ≤ 10 ^ count := by exact_mod_cast below
  rw [significant, lastPlace, ← nearest]
  by_cases short : digitCount coefficient ≤ count
  · rw [if_pos short]
    exact ⟨rfl, filled, (digitCount_le_iff shown).mp short⟩
  · rw [if_neg short]
    -- Only a carry has one digit more: it is a power of ten, and its last zero is dropped.
    have full : coefficient = 10 ^ count := by
      rw [digitCount_le_iff shown] at short
      omega
    have tens : 10 ∣ coefficient := full ▸ dvd_pow_self 10 shown.ne'
    have ten_le := Nat.le_of_dvd (Nat.pos_of_ne_zero filled) tens
    refine ⟨Scientific.value_tenth (Nat.mod_eq_zero_of_dvd tens) _, ?_, ?_⟩
    · simp only
      omega
    · simp only
      omega

/-- Binary numbers are rounded like any others. Without zeros at its end the result is a decimal
with the rounded value. -/
theorem value_rounded_trimmed {m : ℕ} (digits : 0 < count) (hm : 0 < m) (q : ℤ) :
    ((rounded count m q).trimmed count).value = significant count (m * 2 ^ q) ∧
      ((rounded count m q).trimmed count).Canonical := by
  have hn : 0 < m <<< q.toNat := by
    rw [Nat.shiftLeft_eq]
    positivity
  have hd : 0 < 1 <<< (-q).toNat := by
    rw [Nat.shiftLeft_eq]
    positivity
  obtain ⟨value, filled, short⟩ := roundedRatio_spec digits hn hd
  rw [shifted_ratio] at value
  exact ⟨(Scientific.value_trimmed _ _).trans value, Scientific.canonical_trimmed filled short⟩

/-- Rounding moves a number by a small part of itself. -/
theorem abs_sub_significant_le {x : ℚ} (digits : 0 < count) (positive : 0 < x) :
    |x - significant count x| ≤ x / (2 * 10 ^ (count - 1)) := by
  obtain ⟨low, _⟩ := scaled_bounds digits positive
  have unit : (0 : ℚ) < 10 ^ lastPlace count x := by positivity
  have near := abs_sub_nearestEven_le (x / 10 ^ lastPlace count x)
  have parts : x - significant count x =
      (x / 10 ^ lastPlace count x - nearestEven (x / 10 ^ lastPlace count x)) *
        10 ^ lastPlace count x := by
    rw [significant, sub_mul, div_mul_cancel₀ _ unit.ne']
  rw [le_div_iff₀ unit] at low
  calc |x - significant count x|
      = |x / 10 ^ lastPlace count x - nearestEven (x / 10 ^ lastPlace count x)| *
          10 ^ lastPlace count x := by rw [parts, abs_mul, abs_of_pos unit]
    _ ≤ 1 / 2 * 10 ^ lastPlace count x := by gcongr
    _ ≤ x / (2 * 10 ^ (count - 1)) := by
      rw [le_div_iff₀ (by positivity)]
      linarith

/-- Numbers that differ by enough are rounded to different ones. -/
theorem significant_ne {x y : ℚ} (digits : 0 < count) (positive : 0 < x)
    (apart : y / 10 ^ (count - 1) ≤ y - x) (less : x < y) :
    significant count x ≠ significant count y := by
  intro same
  have first := (abs_le.mp (abs_sub_significant_le digits positive)).1
  have second := (abs_le.mp (abs_sub_significant_le digits (positive.trans less))).2
  have halves (z : ℚ) : z / (2 * 10 ^ (count - 1)) = z / 10 ^ (count - 1) / 2 := by
    rw [mul_comm, div_mul_eq_div_div]
  have smaller : x / 10 ^ (count - 1) < y / 10 ^ (count - 1) := by gcongr
  rw [halves] at first second
  rw [same] at first
  linarith

end Rounding

end LocalMetric.Decimal
