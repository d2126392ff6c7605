import LocalMetric.Linear.Mat
import LocalMetric.Proofs.Doubles
import LocalMetric.Proofs.SignificantDigits
/-!
# Sums and quotients of doubles

Doubles are added, multiplied and divided by rounding the exact result to the nearest number with
fifty-three bits. Whole numbers below `2 ^ 53` are exact, and so are their sums; a quotient of such numbers
is off by at most half a unit of the last place.
-/
namespace LocalMetric.Rounding

open Decimal (nearestEven log_eq log2_bounds abs_sub_nearestEven_le)
open Float.Model (UnpackedFloat Format totalExponent)
open Float.Model.UnpackedFloat

/-! ## Cutting off bits -/

/-- What is remembered of a fraction that is cut off. -/
def Remembers : Accuracy → ℚ → Prop
  | .exact, f => f = 0
  | .inexact .lt, f => 0 < f ∧ f < 1 / 2
  | .inexact .eq, f => f = 1 / 2
  | .inexact .gt, f => 1 / 2 < f ∧ f < 1

/-- A mantissa is the whole part of a number, and goes with what is remembered of the fraction. -/
def Cuts (em : ExtendedMantissa) (y : ℚ) : Prop := Remembers em.accuracy (y - em.mantissa)

section Cuts

variable {em : ExtendedMantissa} {y : ℚ}

theorem Remembers.bounds {accuracy : Accuracy} {f : ℚ} (remembers : Remembers accuracy f) :
    0 ≤ f ∧ f < 1 := by
  match accuracy with
  | .exact =>
      obtain rfl := remembers
      norm_num
  | .inexact .lt => exact ⟨remembers.1.le, remembers.2.trans (by norm_num)⟩
  | .inexact .eq =>
      obtain rfl := remembers
      norm_num
  | .inexact .gt => exact ⟨le_trans (by norm_num) remembers.1.le, remembers.2⟩

theorem Cuts.floor (cuts : Cuts em y) : ⌊y⌋ = em.mantissa := by
  obtain ⟨nonneg, lt_one⟩ := cuts.bounds
  rw [Int.floor_eq_iff, Int.cast_natCast]
  constructor <;> linarith

/-- One of both bits is set exactly if something was cut off. -/
theorem Cuts.exact_or (cuts : Cuts em y) :
    (em.roundBit || em.stickyBit) = false ∧ y - em.mantissa = 0 ∨
      (em.roundBit || em.stickyBit) = true ∧ 0 < y - em.mantissa ∧ y - em.mantissa < 1 := by
  obtain ⟨m, half, rest⟩ := em
  have bounds := cuts.bounds
  cases half with
  | false =>
      cases rest with
      | false => exact .inl ⟨rfl, cuts⟩
      | true => exact .inr ⟨rfl, cuts.1, bounds.2⟩
  | true =>
      refine .inr ⟨rfl, ?_, bounds.2⟩
      cases rest with
      | false => exact lt_of_lt_of_eq one_half_pos (Eq.symm cuts)
      | true => exact one_half_pos.trans cuts.1

theorem Cuts.shiftRightOne (cuts : Cuts em y) : Cuts em.shiftRightOne (y / 2) := by
  have digits : (2 * (em.mantissa / 2 : ℕ) + (em.mantissa % 2 : ℕ) : ℚ) = em.mantissa := by
    exact_mod_cast Nat.div_add_mod em.mantissa 2
  have moved : y / 2 - (em.mantissa / 2 : ℕ) = ((em.mantissa % 2 : ℕ) + (y - em.mantissa)) / 2 := by
    rw [← digits]
    ring
  change Remembers (ExtendedMantissa.mk _ (em.mantissa % 2 != 0) (em.roundBit || em.stickyBit)).accuracy
    (y / 2 - (em.mantissa / 2 : ℕ))
  rw [moved]
  rcases cuts.exact_or with ⟨clear, same⟩ | ⟨set, low, high⟩
  · rw [clear, same, add_zero]
    rcases Nat.mod_two_eq_zero_or_one em.mantissa with even | odd
    · rw [even, Nat.cast_zero, zero_div]
      rfl
    · rw [odd, Nat.cast_one]
      rfl
  · rw [set]
    rcases Nat.mod_two_eq_zero_or_one em.mantissa with even | odd
    · rw [even, Nat.cast_zero]
      exact ⟨by linarith, by linarith⟩
    · rw [odd, Nat.cast_one]
      exact ⟨by linarith, by linarith⟩
theorem Cuts.shiftRight (cuts : Cuts em y) (k : ℕ) : Cuts (em >>> k) (y / 2 ^ k) := by
  induction k with
  | zero =>
      rw [pow_zero, div_one]
      exact cuts
  | succ k ih =>
      rw [pow_succ, ← div_div]
      exact ih.shiftRightOne

theorem Cuts.roundedMantissa (cuts : Cuts em y) : (em.roundedMantissa : ℤ) = nearestEven y := by
  have fract : Int.fract y = y - em.mantissa := by
    rw [Int.fract, cuts.floor]
    rfl
  rw [nearestEven, fract, cuts.floor]
  rw [Cuts] at cuts
  rw [ExtendedMantissa.roundedMantissa]
  cases known : em.accuracy with
  | exact =>
      rw [known] at cuts
      rw [if_pos (by linarith [show y - em.mantissa = 0 from cuts])]
      rfl
  | inexact side =>
      rw [known] at cuts
      cases side with
      | lt =>
          rw [if_pos (by linarith [cuts.2])]
          rfl
      | eq =>
          have tie : y - em.mantissa = 1 / 2 := cuts
          rw [if_neg (by linarith), if_neg (by linarith)]
          rfl
      | gt =>
          rw [if_neg (by linarith [cuts.1]), if_pos (by linarith [cuts.1])]
          rfl

end Cuts

theorem accuracy_ofMantissaAndAccuracy (m : ℕ) (accuracy : Accuracy) :
    (ExtendedMantissa.ofMantissaAndAccuracy m accuracy).accuracy = accuracy ∧
      (ExtendedMantissa.ofMantissaAndAccuracy m accuracy).mantissa = m := by
  match accuracy with
  | .exact => exact ⟨rfl, rfl⟩
  | .inexact .lt => exact ⟨rfl, rfl⟩
  | .inexact .eq => exact ⟨rfl, rfl⟩
  | .inexact .gt => exact ⟨rfl, rfl⟩

theorem cuts_of_remembers {m : ℕ} {accuracy : Accuracy} {y : ℚ} (remembers : Remembers accuracy (y - m)) :
    Cuts (.ofMantissaAndAccuracy m accuracy) y := by
  obtain ⟨same, whole⟩ := accuracy_ofMantissaAndAccuracy m accuracy
  rwa [Cuts, same, whole]

theorem remembers_quotient (a : ℕ) {b : ℕ} (positive : 0 < b) :
    Remembers (accuracyOfFraction (a % b) b) (a / b - (a / b : ℕ) : ℚ) := by
  have hb : (0 : ℚ) < b := by exact_mod_cast positive
  have digits : (b * (a / b : ℕ) + (a % b : ℕ) : ℚ) = a := by exact_mod_cast Nat.div_add_mod a b
  have fraction : (a / b - (a / b : ℕ) : ℚ) = (a % b : ℕ) / b := by
    rw [← digits]
    field_simp
    ring
  have short : ((a % b : ℕ) : ℚ) < b := by exact_mod_cast Nat.mod_lt a positive
  rw [fraction, accuracyOfFraction]
  generalize a % b = r at short
  split_ifs with empty
  · rw [empty, Nat.cast_zero, zero_div]
    rfl
  have left : (0 : ℚ) < r := by exact_mod_cast Nat.pos_of_ne_zero empty
  rcases lt_trichotomy (2 * r) b with less | same | more
  · rw [Nat.compare_eq_lt.mpr less]
    have less' : (2 * r : ℚ) < b := by exact_mod_cast less
    refine ⟨by positivity, ?_⟩
    rw [div_lt_iff₀ hb]
    linarith
  · rw [Nat.compare_eq_eq.mpr same]
    have same' : (2 * r : ℚ) = b := by exact_mod_cast same
    change (r / b : ℚ) = 1 / 2
    rw [div_eq_iff hb.ne']
    linarith
  · rw [Nat.compare_eq_gt.mpr more]
    have more' : (b : ℚ) < 2 * r := by exact_mod_cast more
    refine ⟨?_, ?_⟩
    · rw [lt_div_iff₀ hb]
      linarith
    · rwa [div_lt_one hb]

/-! ## Rounding -/

def lastPlace (x : ℚ) : ℤ := Int.log 2 x - 52

theorem scaled_bounds {x : ℚ} (positive : 0 < x) :
    2 ^ 52 ≤ x / 2 ^ lastPlace x ∧ x / 2 ^ lastPlace x < 2 ^ 53 := by
  have low := Int.zpow_log_le_self (b := 2) (by decide) positive
  have high := Int.lt_zpow_succ_log_self (b := 2) (by decide) x
  have unit : (0 : ℚ) < 2 ^ lastPlace x := by positivity
  rw [Nat.cast_ofNat] at low high
  rw [le_div_iff₀ unit, div_lt_iff₀ unit, ← zpow_natCast, ← zpow_natCast, ← zpow_add₀ (by norm_num),
    ← zpow_add₀ (by norm_num), lastPlace]
  constructor
  · refine le_trans (zpow_le_zpow_right₀ (by norm_num) (le_of_eq ?_)) low
    push_cast
    ring
  · refine lt_of_lt_of_eq high ?_
    congr 1
    push_cast
    ring

theorem nearestEven_le {y : ℚ} {k : ℤ} (le : y ≤ k) : nearestEven y ≤ k := by
  have near := abs_le.mp (abs_sub_nearestEven_le y)
  rcases le.lt_or_eq with lt | same
  · have floor : ⌊y⌋ + 1 ≤ k := Int.floor_lt.mpr lt
    rw [nearestEven]
    split_ifs
    · omega
    · exact floor
    · rcases Int.emod_two_eq_zero_or_one ⌊y⌋ with even | odd <;> omega
  · rw [same] at near
    have : (nearestEven (k : ℚ) : ℚ) < k + 1 := by
      rw [← same] at near ⊢
      linarith [near.1]
    have := Int.lt_add_one_iff.mp (by exact_mod_cast this : nearestEven (k : ℚ) < k + 1)
    rwa [same]

theorem le_nearestEven {y : ℚ} {k : ℤ} (le : (k : ℚ) ≤ y) : k ≤ nearestEven y := by
  have floor : k ≤ ⌊y⌋ := Int.le_floor.mpr le
  rw [nearestEven]
  split_ifs
  · exact floor
  · omega
  · rcases Int.emod_two_eq_zero_or_one ⌊y⌋ with even | odd <;> omega

theorem log2_eq_of_floor {m : ℕ} {x : ℚ} {e : ℤ} (positive : 0 < x) (whole : ⌊x / 2 ^ e⌋ = m)
    (fine : e ≤ Int.log 2 x) : (m.log2 : ℤ) + e = Int.log 2 x := by
  have unit : (0 : ℚ) < 2 ^ e := by positivity
  have low := Int.zpow_log_le_self (b := 2) (by decide) positive
  have high := Int.lt_zpow_succ_log_self (b := 2) (by decide) x
  rw [Nat.cast_ofNat] at low high
  obtain ⟨k, same⟩ := Int.le.dest fine
  rw [← same] at low high ⊢
  have least : 2 ^ k ≤ m := by
    have : (2 ^ k : ℤ) ≤ ⌊x / 2 ^ e⌋ := by
      rw [Int.le_floor, le_div_iff₀ unit]
      push_cast
      rwa [← zpow_natCast, ← zpow_add₀ (by norm_num), add_comm]
    rw [whole] at this
    exact_mod_cast this
  have most : m < 2 ^ (k + 1) := by
    have : ⌊x / 2 ^ e⌋ < (2 ^ (k + 1) : ℤ) := by
      rw [Int.floor_lt, div_lt_iff₀ unit]
      push_cast
      rw [← zpow_natCast, ← zpow_add₀ (by norm_num)]
      refine high.trans_eq ?_
      congr 1
      push_cast
      ring
    rw [whole] at this
    exact_mod_cast this
  have log := (Nat.log2_eq_iff (by have := Nat.two_pow_pos k; omega)).mpr ⟨least, most⟩
  rw [log]
  omega

def Value (u : UnpackedFloat) (x : ℚ) : Prop :=
  ∃ m e, ∃ h : 0 < m, u = .finite .positive m e h ∧ m.log2 = 52 ∧ -1074 ≤ e ∧ e ≤ 971 ∧ m * 2 ^ e = x

/-- A number rounded to fifty-three bits. -/
def rounded (x : ℚ) : ℚ := nearestEven (x / 2 ^ lastPlace x) * 2 ^ lastPlace x

theorem target_eq {m : ℕ} {e : ℤ} : Format.binary64.targetExponent (totalExponent m e) =
    max (m.log2 + e - 52) (-1074) := by
  have bits : Format.binary64.mantissaBits = 53 := rfl
  have least : Format.binary64.minExponent = -1074 := rfl
  rw [Format.targetExponent, totalExponent, bits, least]
  omega

theorem shiftToTargetExponent_eq {m k : ℕ} {e : ℤ} (target : max (m.log2 + e - 52) (-1074) = e + k)
    (accuracy : Accuracy) : shiftToTargetExponent .binary64 m e accuracy =
      (ExtendedMantissa.ofMantissaAndAccuracy m accuracy >>> k, e + k) := by
  have shift : (Format.binary64.targetExponent (totalExponent m e) - e).toNat = k := by
    rw [target_eq, target, add_sub_cancel_left, Int.toNat_natCast]
  unfold shiftToTargetExponent shiftToExponent
  dsimp only
  rw [shift]

/-- A mantissa that has been rounded up to one bit more is cut once again. -/
theorem exists_normalized {r : ℕ} {t : ℤ} (low : 2 ^ 52 ≤ r) (high : r ≤ 2 ^ 53) (least : -1074 ≤ t)
    (most : t ≤ 970) : ∃ (m : ℕ) (e : ℤ), m.log2 = 52 ∧ -1074 ≤ e ∧ e ≤ 971 ∧ (m * 2 ^ e : ℚ) = r * 2 ^ t ∧
      ∃ em : ExtendedMantissa, em.mantissa = m ∧
        shiftToTargetExponent .binary64 r t .exact = (em, e) := by
  rcases high.lt_or_eq with fits | rfl
  · have log : r.log2 = 52 := (Nat.log2_eq_iff (by omega)).mpr ⟨low, fits⟩
    have kept := shiftToTargetExponent_eq (m := r) (e := t) (k := 0) (by rw [log]; omega) .exact
    rw [Nat.cast_zero, add_zero] at kept
    exact ⟨r, t, log, least, by omega, rfl, _, rfl, kept⟩
  · have log : (2 ^ 53 : ℕ).log2 = 53 := Nat.log2_two_pow
    have cut := shiftToTargetExponent_eq (m := 2 ^ 53) (e := t) (k := 1) (by rw [log]; omega) .exact
    refine ⟨2 ^ 52, t + 1, Nat.log2_two_pow, by omega, by omega, ?_, _, rfl, cut⟩
    rw [zpow_add_one₀ (by norm_num)]
    push_cast
    ring

theorem value_roundWithAccuracy {m : ℕ} {e : ℤ} {accuracy : Accuracy} {x : ℚ} (positive : 0 < x)
    (remembers : Remembers accuracy (x / 2 ^ e - m)) (fine : e ≤ lastPlace x)
    (least : -1074 ≤ lastPlace x) (most : lastPlace x ≤ 970) :
    Value (roundWithAccuracy .binary64 .positive m e accuracy) (rounded x) := by
  have cuts := cuts_of_remembers remembers
  have whole : ⌊x / 2 ^ e⌋ = m := by
    have floor := cuts.floor
    rwa [(accuracy_ofMantissaAndAccuracy m accuracy).2] at floor
  have log := log2_eq_of_floor positive whole (by rw [lastPlace] at fine; omega)
  obtain ⟨k, shift⟩ := Int.le.dest fine
  have first := shiftToTargetExponent_eq (m := m) (e := e) (k := k)
    (by rw [shift, log, max_eq_left (by exact least)]; rfl) accuracy
  have scaled : x / 2 ^ e / 2 ^ k = x / 2 ^ lastPlace x := by
    rw [← shift, zpow_add₀ (by norm_num), zpow_natCast, div_div]
  have moved := (cuts.shiftRight k).roundedMantissa
  rw [scaled] at moved
  obtain ⟨low, high⟩ := scaled_bounds positive
  have low' := le_nearestEven (k := 2 ^ 52) (by exact_mod_cast low)
  have high' := nearestEven_le (k := 2 ^ 53) (by exact_mod_cast high.le)
  rw [← moved] at low' high'
  obtain ⟨m', e', log', least', most', value, em, mantissa, second⟩ :=
    exists_normalized (by exact_mod_cast low') (by exact_mod_cast high') least most
  have filled : m' ≠ 0 := by
    rintro rfl
    cases log'
  refine ⟨m', e', Nat.pos_of_ne_zero filled, ?_, log', least', most', ?_⟩
  · rw [shift] at first
    unfold roundWithAccuracy
    rw [first]
    dsimp only
    rw [second]
    dsimp only
    simp only [mantissa, filled]
    rfl
  · rw [value, rounded, ← moved]
    rfl

/-! ## Doubles -/

theorem pack_finite {m : ℕ} {e : ℤ} (h : 0 < m) (log : m.log2 = 52) (most : e ≤ 971) :
    UnpackedFloat.pack .binary64 (.finite .positive m e h) =
      packComponents .binary64 .positive (BitVec.ofNat 11 (e + 1075).toNat) (BitVec.ofNat 52 m) := by
  have biased : e + (Format.binary64.exponentBias : ℤ) +
      (Format.binary64.mantissaBitsWithoutImplicit : ℤ) = e + 1075 := by
    change e + 1023 + 52 = _
    omega
  have bits : 52 + 1 = Format.binary64.mantissaBits := rfl
  unfold UnpackedFloat.pack
  dsimp only
  rw [biased, log, if_neg, if_pos bits]
  change ¬2048 ≤ _
  omega

theorem Value.unpack_pack {u : UnpackedFloat} {x : ℚ} (value : Value u x) :
    (Float.Model.pack u).unpack = u := by
  obtain ⟨m, e, h, rfl, log, least, most, _⟩ := value
  obtain ⟨low, high⟩ := (Nat.log2_eq_iff h.ne').mp log
  have field : (BitVec.ofNat 11 (e + 1075).toNat).toNat = (e + 1075).toNat :=
    Nat.mod_eq_of_lt (by omega)
  have full : BitVec.ofNat 11 (e + 1075).toNat ≠ -1#11 :=
    BitVec.toNat_inj.not.mp (by rw [field]; change _ ≠ 2047; omega)
  have empty : BitVec.ofNat 11 (e + 1075).toNat ≠ 0#11 :=
    BitVec.toNat_inj.not.mp (by rw [field]; change _ ≠ 0; omega)
  change UnpackedFloat.unpack .binary64 (UnpackedFloat.pack .binary64 (.finite .positive m e h)) = _
  rw [pack_finite h log most]
  unfold UnpackedFloat.unpack
  simp only [unpackExponent_packComponents, unpackMantissa_packComponents, unpackSign_packComponents]
  rw [if_neg full, if_neg empty]
  congr 1
  · rw [toNat_one_append, BitVec.toNat_ofNat]
    omega
  · rw [field]
    change _ - (1023 + 52 : ℤ) = e
    omega

def Moderate (x : ℚ) : Prop := 0 < x ∧ -1022 ≤ Int.log 2 x ∧ Int.log 2 x ≤ 1022

theorem log_mul_pow {m : ℕ} (positive : 0 < m) (e : ℤ) : Int.log 2 (m * 2 ^ e : ℚ) = m.log2 + e := by
  obtain ⟨low, high⟩ := log2_bounds positive
  refine log_eq (b := 2) (by decide) ?_ ?_
  · rw [Nat.cast_ofNat, zpow_add₀ (by norm_num)]
    gcongr
  · rw [Nat.cast_ofNat, add_right_comm, zpow_add₀ (by norm_num)]
    gcongr

theorem value_round {m : ℕ} {e : ℤ} {x : ℚ} (same : (m * 2 ^ e : ℚ) = x) (moderate : Moderate x) :
    Value (round .binary64 .positive m e) (rounded x) := by
  obtain ⟨positive, least, most⟩ := moderate
  have filled : 0 < m := by
    refine Nat.pos_of_ne_zero ?_
    rintro rfl
    rw [Nat.cast_zero, zero_mul] at same
    exact positive.ne same
  have log : Int.log 2 x = m.log2 + e := by rw [← same, log_mul_pow filled]
  have target : Format.binary64.targetExponent (totalExponent m e) = lastPlace x := by
    rw [target_eq, lastPlace, log, max_eq_left (by omega)]
  unfold UnpackedFloat.round decreaseExponent
  dsimp only
  rw [target]
  refine value_roundWithAccuracy positive ?_ (by omega) (by rw [lastPlace]; omega) (by rw [lastPlace]; omega)
  change _ - _ = (0 : ℚ)
  rw [← same, Nat.shiftLeft_eq, zpow_sub₀ (by norm_num), zpow_natCast]
  push_cast
  field_simp
  ring

theorem value_normalize {m : ℤ} {e : ℤ} {x : ℚ} (same : (m * 2 ^ e : ℚ) = x) (moderate : Moderate x)
    (sign : Sign) : Value (UnpackedFloat.normalize .binary64 m e sign) (rounded x) := by
  have positive : 0 < m := by
    have := moderate.1
    rw [← same] at this
    exact_mod_cast (pos_iff_pos_of_mul_pos this).mpr (by positivity)
  unfold UnpackedFloat.normalize
  rw [Int.compare_eq_gt.mpr positive]
  refine value_round ?_ moderate
  rw [← same, ← Int.cast_natCast, Int.toNat_of_nonneg positive.le]

theorem shiftLeft_mul_pow (m : ℕ) {e t : ℤ} (le : t ≤ e) :
    ((m <<< (e - t).toNat : ℕ) : ℚ) * 2 ^ t = m * 2 ^ e := by
  obtain ⟨k, rfl⟩ := Int.le.dest le
  rw [add_sub_cancel_left, Int.toNat_natCast, Nat.shiftLeft_eq, zpow_add₀ (by norm_num), zpow_natCast]
  push_cast
  ring

def IsValue (f : Float) (x : ℚ) : Prop := Value f.toModel.unpack x

section Operations

variable {f g : Float} {x y : ℚ}

theorem IsValue.pos (value : IsValue f x) : 0 < x := by
  obtain ⟨m, e, h, _, _, _, _, rfl⟩ := value
  positivity

theorem isValue_pack {u : UnpackedFloat} (value : Value u x) : IsValue ⟨Float.Model.pack u⟩ x := by
  rw [IsValue, value.unpack_pack]
  exact value

theorem IsValue.add (first : IsValue f x) (second : IsValue g y) (moderate : Moderate (x + y)) :
    IsValue (f + g) (rounded (x + y)) := by
  obtain ⟨m, e, h, unpacked, _, _, _, rfl⟩ := first
  obtain ⟨n, d, h', unpacked', _, _, _, rfl⟩ := second
  refine isValue_pack (u := UnpackedFloat.add .binary64 f.toModel.unpack g.toModel.unpack) ?_
  rw [unpacked, unpacked']
  refine value_normalize ?_ moderate .positive
  dsimp only [Sign.apply, decreaseExponent]
  rw [Int.cast_add, add_mul, Int.cast_natCast, Int.cast_natCast, shiftLeft_mul_pow m (min_le_left e d),
    shiftLeft_mul_pow n (min_le_right e d)]

theorem IsValue.mul (first : IsValue f x) (second : IsValue g y) (moderate : Moderate (x * y)) :
    IsValue (f * g) (rounded (x * y)) := by
  obtain ⟨m, e, h, unpacked, log, _, _, rfl⟩ := first
  obtain ⟨n, d, h', unpacked', log', _, _, rfl⟩ := second
  obtain ⟨positive, least, most⟩ := moderate
  have product : (m * 2 ^ e * (n * 2 ^ d) : ℚ) = (m * n : ℕ) * 2 ^ (e + d) := by
    rw [zpow_add₀ (by norm_num)]
    push_cast
    ring
  have reaches : e + d + 104 ≤ Int.log 2 (m * 2 ^ e * (n * 2 ^ d) : ℚ) := by
    have long : 104 ≤ (m * n).log2 := by
      rw [Nat.le_log2 (Nat.mul_pos h h').ne']
      calc 2 ^ 104 = 2 ^ 52 * 2 ^ 52 := by norm_num
        _ ≤ m * n :=
          Nat.mul_le_mul ((Nat.log2_eq_iff h.ne').mp log).1 ((Nat.log2_eq_iff h'.ne').mp log').1
    rw [product, log_mul_pow (Nat.mul_pos h h')]
    omega
  refine isValue_pack (u := UnpackedFloat.mul .binary64 f.toModel.unpack g.toModel.unpack) ?_
  rw [unpacked, unpacked']
  refine value_roundWithAccuracy positive ?_ (by rw [lastPlace]; omega) (by rw [lastPlace]; omega)
    (by rw [lastPlace]; omega)
  change _ - _ = (0 : ℚ)
  rw [product]
  field_simp
  ring

/-- The quotient of mantissas is taken after the first one is shifted far enough to the left. -/
theorem divCore_eq {m n : ℕ} {e d t : ℤ} (log : m.log2 = 52) (log' : n.log2 = 52)
    (target : t = min (e - d) (max (e - d - 53) (-1074))) :
    divCore .binary64 m e n d = (m <<< (e - d - t).toNat / n, t,
      accuracyOfFraction (m <<< (e - d - t).toNat % n) n) := by
  have bits : Format.binary64.mantissaBits = 53 := rfl
  have smallest : Format.binary64.minExponent = -1074 := rfl
  have found : min (e - d) (Format.binary64.targetExponent (totalExponent m e - totalExponent n d)) =
      t := by
    rw [target, Format.targetExponent, totalExponent, totalExponent, bits, smallest, log, log']
    omega
  unfold divCore
  dsimp only
  rw [found]

theorem IsValue.div (first : IsValue f x) (second : IsValue g y) (moderate : Moderate (x / y)) :
    IsValue (f / g) (rounded (x / y)) := by
  obtain ⟨m, e, h, unpacked, log, _, _, rfl⟩ := first
  obtain ⟨n, d, h', unpacked', log', _, _, rfl⟩ := second
  obtain ⟨positive, least, most⟩ := moderate
  have quotient : (m * 2 ^ e / (n * 2 ^ d) : ℚ) = m / n * 2 ^ (e - d) := by
    rw [zpow_sub₀ (by norm_num)]
    field_simp
  have reaches : e - d - 1 ≤ Int.log 2 (m * 2 ^ e / (n * 2 ^ d) : ℚ) := by
    have denominator : (0 : ℚ) < n := by exact_mod_cast h'
    have short : (n : ℚ) ≤ 2 * m := by
      have := ((Nat.log2_eq_iff h.ne').mp log).1
      have := ((Nat.log2_eq_iff h'.ne').mp log').2
      exact_mod_cast (by omega : n ≤ 2 * m)
    rw [← Int.zpow_le_iff_le_log (by decide) positive, quotient, zpow_sub_one₀ (by norm_num), mul_comm,
      Nat.cast_ofNat]
    gcongr
    rw [le_div_iff₀ denominator]
    linarith
  obtain ⟨t, target⟩ : ∃ t, t = min (e - d) (max (e - d - 53) (-1074)) := ⟨_, rfl⟩
  have scaled : (m * 2 ^ e / (n * 2 ^ d) / 2 ^ t : ℚ) = (m <<< (e - d - t).toNat : ℕ) / n := by
    have shifted := shiftLeft_mul_pow m (by omega : t ≤ e - d)
    rw [quotient, div_mul_eq_mul_div, ← shifted]
    field_simp
  refine isValue_pack (u := UnpackedFloat.div .binary64 f.toModel.unpack g.toModel.unpack) ?_
  rw [unpacked, unpacked']
  unfold UnpackedFloat.div
  dsimp only
  rw [divCore_eq log log' target]
  have fine : t ≤ lastPlace (m * 2 ^ e / (n * 2 ^ d)) := by
    rw [lastPlace]
    omega
  refine value_roundWithAccuracy positive ?_ fine (by rw [lastPlace]; omega) (by rw [lastPlace]; omega)
  rw [scaled]
  exact remembers_quotient _ h'

end Operations

/-! ## Whole numbers -/

section Whole

variable {n : ℕ}

theorem log_natCast (n : ℕ) : Int.log 2 (n : ℚ) = n.log2 := by
  rw [Int.log_natCast, Nat.log2_eq_log_two]

theorem moderate_natCast (positive : 0 < n) (small : n < 2 ^ 53) : Moderate n := by
  have log := (Nat.log2_lt positive.ne').mpr small
  exact ⟨by exact_mod_cast positive, by rw [log_natCast]; omega, by rw [log_natCast]; omega⟩

theorem rounded_mul_pow (positive : 0 < n) (small : n < 2 ^ 53) (e : ℤ) :
    rounded (n * 2 ^ e) = n * 2 ^ e := by
  have log := (Nat.log2_lt positive.ne').mpr small
  obtain ⟨k, least⟩ := Int.eq_ofNat_of_zero_le (by omega : 0 ≤ 52 - (n.log2 : ℤ))
  have place : lastPlace (n * 2 ^ e) = e - k := by
    rw [lastPlace, log_mul_pow positive]
    omega
  have scaled : (n * 2 ^ e / 2 ^ lastPlace (n * 2 ^ e) : ℚ) = (n * 2 ^ k : ℕ) := by
    rw [place, zpow_sub₀ (by norm_num), zpow_natCast]
    push_cast
    field_simp
  have whole : nearestEven ((n * 2 ^ k : ℕ) : ℚ) = (n * 2 ^ k : ℕ) := by
    rw [nearestEven, Int.fract_natCast, Int.floor_natCast, if_pos (by norm_num)]
  rw [rounded, scaled, whole, Int.cast_natCast, ← scaled]
  exact div_mul_cancel₀ _ (zpow_ne_zero _ (by norm_num))

theorem rounded_natCast (positive : 0 < n) (small : n < 2 ^ 53) : rounded n = n := by
  have exact := rounded_mul_pow positive small 0
  rwa [zpow_zero, mul_one] at exact

theorem isValue_one : IsValue Float.exactlyRepresentablePowersOfTen[0] 1 := by
  have unpacked : (Float.exactlyRepresentablePowersOfTen[0]).toModel.unpack =
      .finite .positive 4503599627370496 (-52) (by norm_num) := rfl
  refine ⟨_, _, _, unpacked, by decide +kernel, by norm_num, by norm_num, ?_⟩
  norm_num

theorem isValue_ofNat (positive : 0 < n) (small : n < 2 ^ 53) : IsValue (Float.ofNat n) n := by
  have moderate := moderate_natCast positive small
  have exact := rounded_natCast positive small
  have converted : IsValue n.toUInt64.toFloat n := by
    have word : n.toUInt64.toNat = n := Nat.mod_eq_of_lt (small.trans (by norm_num))
    have value : IsValue n.toUInt64.toFloat (rounded n) :=
      isValue_pack (value_normalize (by rw [word]; simp) moderate .positive)
    rwa [exact] at value
  have literal : Float.ofNat n = n.toUInt64.toFloat * Float.exactlyRepresentablePowersOfTen[0] :=
    dif_pos (⟨small, by decide⟩ : n < 2 ^ 53 ∧ 0 ≤ 22)
  have product := converted.mul isValue_one (by rwa [mul_one])
  rwa [mul_one, exact, ← literal] at product

theorem isValue_nearestDouble (positive : 0 < n) (small : n < 2 ^ 53) :
    IsValue (nearestDouble n) n := by
  have log := (Nat.log2_lt positive.ne').mpr small
  rw [nearestDouble, if_pos (by omega)]
  exact isValue_ofNat positive small

/-- Nothing is added to zero. -/
theorem IsValue.zero_add {f : Float} {x : ℚ} (value : IsValue f x) : IsValue (0 + f) x := by
  obtain ⟨m, e, h, unpacked, rest⟩ := value
  have zero : (0 : Float).toModel.unpack = .zero .positive := rfl
  refine isValue_pack (u := UnpackedFloat.add .binary64 (0 : Float).toModel.unpack f.toModel.unpack) ?_
  rw [zero, unpacked]
  exact ⟨m, e, h, rfl, rest⟩

theorem isValue_foldl {dims : List ℕ} {f : Float} {k : ℕ} (value : IsValue f k)
    (positive : ∀ d ∈ dims, 0 < d) (small : k + dims.sum < 2 ^ 53) :
    IsValue ((dims.map nearestDouble).foldl (· + ·) f) (k + dims.sum : ℕ) := by
  induction dims generalizing f k with
  | nil => exact value
  | cons d dims ih =>
      obtain ⟨first, rest⟩ := List.forall_mem_cons.mp positive
      rw [List.sum_cons] at small ⊢
      have fits : k + d < 2 ^ 53 := by omega
      have sum := value.add (isValue_nearestDouble first (by omega)) (by
        rw [← Nat.cast_add]
        exact moderate_natCast (by omega) fits)
      rw [← Nat.cast_add, rounded_natCast (by omega) fits] at sum
      rw [← Nat.add_assoc]
      exact ih sum rest (by omega)

/-- Whole numbers are added without rounding. -/
theorem isValue_listSum {dims : List ℕ} (filled : dims ≠ []) (positive : ∀ d ∈ dims, 0 < d)
    (small : dims.sum < 2 ^ 53) :
    IsValue (listSum (dims.map nearestDouble)) dims.sum := by
  obtain ⟨d, dims, rfl⟩ := List.exists_cons_of_ne_nil filled
  obtain ⟨first, rest⟩ := List.forall_mem_cons.mp positive
  rw [List.sum_cons] at small ⊢
  exact isValue_foldl (isValue_nearestDouble first (by omega)).zero_add rest small

end Whole

/-! ## Quotients -/

/-- Rounding moves a number by half a unit of the last place at most. -/
theorem abs_rounded_sub_le {x : ℚ} (positive : 0 < x) : |rounded x - x| ≤ x / 2 ^ 53 := by
  have unit : (0 : ℚ) < 2 ^ lastPlace x := by positivity
  have near := abs_sub_nearestEven_le (x / 2 ^ lastPlace x)
  have size := (scaled_bounds positive).1
  have moved : rounded x - x =
      -(x / 2 ^ lastPlace x - nearestEven (x / 2 ^ lastPlace x)) * 2 ^ lastPlace x := by
    rw [rounded]
    field_simp
    ring
  rw [moved, abs_mul, abs_neg, abs_of_pos unit]
  calc _ ≤ 1 / 2 * (2 : ℚ) ^ lastPlace x := by gcongr
    _ ≤ x / 2 ^ 53 := by
      rw [le_div_iff₀ unit] at size
      linarith

theorem moderate_div {a b : ℕ} (ha : 0 < a) (hb : 0 < b) (small : a < 2 ^ 53) (small' : b < 2 ^ 53) :
    Moderate (a / b) := by
  have ha' : (1 : ℚ) ≤ a := by exact_mod_cast ha
  have hb' : (1 : ℚ) ≤ b := by exact_mod_cast hb
  have top : (a : ℚ) < 2 ^ 53 := by exact_mod_cast small
  have top' : (b : ℚ) < 2 ^ 53 := by exact_mod_cast small'
  have positive : (0 : ℚ) < a / b := by positivity
  refine ⟨positive, ?_, ?_⟩
  · rw [← Int.zpow_le_iff_le_log (by decide) positive, le_div_iff₀ (by linarith), Nat.cast_ofNat]
    calc (2 : ℚ) ^ (-1022 : ℤ) * b ≤ 2 ^ (-53 : ℤ) * 2 ^ 53 := by
          gcongr
          · norm_num
          · norm_num
      _ = 1 := by norm_num
      _ ≤ a := ha'
  · have below : Int.log 2 (a / b : ℚ) < 53 := by
      rw [← Int.lt_zpow_iff_log_lt (by decide) positive, Nat.cast_ofNat]
      refine lt_of_le_of_lt (div_le_self (by linarith) hb') ?_
      exact_mod_cast top
    omega

theorem IsValue.magnitude_eq {f : Float} {x : ℚ} (value : IsValue f x) : magnitude f = x := by
  obtain ⟨m, e, h, unpacked, _, _, _, same⟩ := value
  rw [magnitude, unpacked]
  exact same

theorem IsValue.double_pos {f : Float} {x : ℚ} (value : IsValue f x) : 0 < f := by
  obtain ⟨m, e, h, unpacked, _⟩ := value
  rw [double_pos_iff, unpacked]
  rfl

/-- The quotient of a sum of whole numbers is rounded once. -/
theorem isValue_mean {dims : List ℕ} (filled : dims ≠ []) (positive : ∀ d ∈ dims, 0 < d)
    (small : dims.sum < 2 ^ 53) :
    IsValue (listSum (dims.map nearestDouble) / nearestDouble dims.length)
      (rounded (dims.sum / dims.length)) := by
  have count : 0 < dims.length := List.length_pos_iff.mpr filled
  have most : dims.length ≤ dims.sum := List.length_le_sum_of_one_le dims positive
  exact (isValue_listSum filled positive small).div
    (isValue_nearestDouble count (most.trans_lt small))
    (moderate_div (count.trans_le most) count small (most.trans_lt small))

theorem abs_rounded_div_mul_sub_le {a b : ℕ} (ha : 0 < a) (hb : 0 < b) :
    |rounded (a / b) * b - a| ≤ a / 2 ^ 53 := by
  have whole : (0 : ℚ) < a := by exact_mod_cast ha
  have many : (0 : ℚ) < b := by exact_mod_cast hb
  have near := abs_rounded_sub_le (div_pos whole many)
  have scaled : rounded (a / b) * b - a = (rounded (a / b) - a / b) * b := by
    field_simp
  rw [scaled, abs_mul, abs_of_pos many]
  calc _ ≤ (a / b : ℚ) / 2 ^ 53 * b := by gcongr
    _ = a / 2 ^ 53 := by field_simp

end LocalMetric.Rounding
