import LocalMetric.Proofs.Doubles
import LocalMetric.Proofs.NumberTexts
/-!
# Doubles read back from their texts

A double is written with the fewest digits that lie nearer to it than to any other double. Reading takes
the double nearest to a decimal, so it finds the one that was written.
-/
namespace LocalMetric.Decimal

open BinaryFormat (double)

/-- The mantissas and exponents of doubles that are not zero. Only the smallest exponent goes with
mantissas that are not full. -/
structure Stored (m : ℕ) (q : ℤ) : Prop where
  positive : 0 < m
  bounded : m < 2 ^ 53
  least : -1074 ≤ q
  most : q ≤ 971
  leads : 2 ^ 52 ≤ m ∨ q = -1074

/-- How far it is to the midpoint below a double, in units of its last place. -/
def gapBelow (m : ℕ) (q : ℤ) : ℚ := if m = 2 ^ 52 ∧ -1074 < q then 1 / 4 else 1 / 2

theorem gapBelow_le (m : ℕ) (q : ℤ) : gapBelow m q ≤ 1 / 2 := by
  rw [gapBelow]
  split <;> norm_num

/-- Numbers between the midpoints to the two neighbours of a double. The midpoints count if the mantissa
is even. -/
structure Between (m : ℕ) (q : ℤ) (x : ℚ) : Prop where
  low : (m - gapBelow m q) * 2 ^ q ≤ x
  high : x ≤ (m + 1 / 2) * 2 ^ q
  inner : m % 2 = 1 → (m - gapBelow m q) * 2 ^ q < x ∧ x < (m + 1 / 2) * 2 ^ q

theorem pow_toNat_eq {b : ℕ} (base : 0 < b) (p : ℤ) :
    (b : ℚ) ^ p.toNat = b ^ p * b ^ (-p).toNat := by
  have scaled := div_pow_toNat base 1 1 (-p)
  rw [neg_neg, one_mul, one_mul, div_one, one_div, ← zpow_neg, neg_neg] at scaled
  rw [← scaled, div_mul_cancel₀]
  exact pow_ne_zero _ (Nat.cast_ne_zero.mpr base.ne')

/-! The two sides of a comparison with a decimal, whose exponent and that of the binary number are each
put on the side where they are not negative. -/

theorem cast_binary (a : ℕ) (e k : ℤ) :
    (((a * tenTo (-e).toNat) <<< k.toNat : ℕ) : ℚ) =
      a * 2 ^ k * (10 ^ (-e).toNat * 2 ^ (-k).toNat) := by
  have two := pow_toNat_eq (b := 2) (by decide) k
  rw [Nat.shiftLeft_eq, tenTo_eq]
  push_cast at two ⊢
  rw [two]
  ring

theorem cast_decimal (c : ℕ) (e k : ℤ) :
    (((c * tenTo e.toNat) <<< (-k).toNat : ℕ) : ℚ) =
      c * 10 ^ e * (10 ^ (-e).toNat * 2 ^ (-k).toNat) := by
  have ten := pow_toNat_eq (b := 10) (by decide) e
  rw [Nat.shiftLeft_eq, tenTo_eq]
  push_cast at ten ⊢
  rw [ten]
  ring

theorem two_zpow_add (q : ℤ) (k : ℕ) : (2 : ℚ) ^ (q + k) = 2 ^ k * 2 ^ q := by
  rw [add_comm, zpow_add₀ (by norm_num), zpow_natCast]

theorem quarters (x : ℚ) (q : ℤ) : 4 * x * 2 ^ (q - 2) = x * 2 ^ q := by
  rw [zpow_sub₀ (by norm_num)]
  ring

theorem between_of_identifies {m : ℕ} {q : ℤ} {d : Scientific} (positive : 0 < m)
    (identified : identifies double m q d = true) : Between m q d.value := by
  have width : (1 : ℕ) <<< double.fractionBits = 2 ^ 52 := rfl
  have least : double.leastExponent = -1074 := rfl
  have below : ((4 * m - (if m = 2 ^ 52 ∧ -1074 < q then 1 else 2) : ℕ) : ℚ) * 2 ^ (q - 2) =
      (m - gapBelow m q) * 2 ^ q := by
    rw [← quarters (m - gapBelow m q), gapBelow]
    split
    · rw [Nat.cast_sub (by omega)]
      push_cast
      ring
    · rw [Nat.cast_sub (by omega)]
      push_cast
      ring
  have above : ((4 * m + 2 : ℕ) : ℚ) * 2 ^ (q - 2) = (m + 1 / 2) * 2 ^ q := by
    rw [← quarters (m + 1 / 2)]
    push_cast
    ring
  simp only [identifies, width, least] at identified
  have unit : (0 : ℚ) < 10 ^ (-d.exponent).toNat * 2 ^ (-(q - 2)).toNat := by positivity
  rcases Nat.mod_two_eq_zero_or_one m with even | odd
  · rw [if_pos even, Bool.and_eq_true, decide_eq_true_iff, decide_eq_true_iff,
      ← Nat.cast_le (α := ℚ), ← Nat.cast_le (α := ℚ), cast_binary, cast_binary, cast_decimal,
      mul_le_mul_iff_of_pos_right unit, mul_le_mul_iff_of_pos_right unit, below, above] at identified
    exact ⟨identified.1, identified.2, fun odd => by omega⟩
  · rw [if_neg (by omega), Bool.and_eq_true, decide_eq_true_iff, decide_eq_true_iff,
      ← Nat.cast_lt (α := ℚ), ← Nat.cast_lt (α := ℚ), cast_binary, cast_binary, cast_decimal,
      mul_lt_mul_iff_of_pos_right unit, mul_lt_mul_iff_of_pos_right unit, below, above] at identified
    exact ⟨identified.1.le, identified.2.le, fun _ => identified⟩

/-! ## The nearest double -/

theorem exponentOf_eq {n d : ℕ} (hn : 0 < n) (hd : 0 < d) :
    double.exponentOf n d = max (-1074) (Int.log 2 (n / d : ℚ) - 52) := by
  obtain ⟨low, high⟩ := log2_bounds hn
  obtain ⟨low', high'⟩ := log2_bounds hd
  have width : (double.fractionBits : ℤ) = 52 := rfl
  have least : double.leastExponent = -1074 := rfl
  rw [← log_ratio_eq (b := 2) (by decide) hd low high low' high']
  simp only [BinaryFormat.exponentOf, Nat.shiftLeft_eq, width, least]

theorem nearestEven_eq {x : ℚ} {k : ℤ} (low : k - 1 / 2 ≤ x) (high : x ≤ k + 1 / 2)
    (inner : k % 2 = 1 → k - 1 / 2 < x ∧ x < k + 1 / 2) : nearestEven x = k := by
  have parts : (⌊x⌋ : ℚ) + Int.fract x = x := Int.floor_add_fract x
  rw [nearestEven]
  rcases le_or_gt (k : ℚ) x with above | below
  · have whole : ⌊x⌋ = k := Int.floor_eq_iff.mpr ⟨above, by linarith⟩
    rw [whole] at parts ⊢
    split_ifs with less more
    · rfl
    · linarith
    · rcases Int.emod_two_eq_zero_or_one k with even | odd
      · rw [even, add_zero]
      · linarith [(inner odd).2]
  · have whole : ⌊x⌋ = k - 1 := Int.floor_eq_iff.mpr ⟨by push_cast; linarith, by push_cast; linarith⟩
    rw [whole] at parts ⊢
    push_cast at parts
    split_ifs with less more
    · linarith
    · omega
    · rcases Int.emod_two_eq_zero_or_one k with even | odd
      · omega
      · linarith [(inner odd).1]

namespace Between

variable {m : ℕ} {q : ℤ} {x : ℚ}

theorem half_le (between : Between m q x) (positive : 0 < m) : 2 ^ (q - 1) ≤ x := by
  have one_le : (1 : ℚ) ≤ m := by exact_mod_cast positive
  refine le_trans ?_ between.low
  rw [zpow_sub_one₀ (by norm_num), mul_comm]
  gcongr
  linarith [gapBelow_le m q]

theorem pos (between : Between m q x) (positive : 0 < m) : 0 < x :=
  lt_of_lt_of_le (by positivity) (between.half_le positive)

theorem coefficient_pos {d : Scientific} (between : Between m q d.value) (positive : 0 < m) :
    0 < d.coefficient := by
  by_contra empty
  have value := between.pos positive
  rw [Scientific.value, Nat.eq_zero_of_not_pos empty, Nat.cast_zero, zero_mul] at value
  exact lt_irrefl _ value

/-- In units of the last place the mantissa is the nearest integer. -/
theorem nearestEven_eq (between : Between m q x) : nearestEven (x / 2 ^ q) = m := by
  have unit : (0 : ℚ) < 2 ^ q := by positivity
  have gap := gapBelow_le m q
  refine Decimal.nearestEven_eq ?_ ?_ fun odd => ?_
  · rw [Int.cast_natCast, le_div_iff₀ unit]
    exact (mul_le_mul_of_nonneg_right (by linarith) unit.le).trans between.low
  · rw [Int.cast_natCast, div_le_iff₀ unit]
    exact between.high
  · obtain ⟨low, high⟩ := between.inner (by omega)
    rw [Int.cast_natCast, lt_div_iff₀ unit, div_lt_iff₀ unit]
    exact ⟨(mul_le_mul_of_nonneg_right (by linarith) unit.le).trans_lt low, high⟩

theorem lt_top (between : Between m q x) (stored : Stored m q) : x < 2 ^ (q + 53) := by
  have bound : (m : ℚ) + 1 ≤ 2 ^ 53 := by exact_mod_cast stored.bounded
  calc x ≤ (m + 1 / 2) * 2 ^ q := between.high
    _ < 2 ^ 53 * 2 ^ q := by gcongr; linarith
    _ = 2 ^ (q + 53) := (two_zpow_add q 53).symm

/-- Below the power of two that an exponent starts with, only its first mantissa is near. -/
theorem first_of_lt (between : Between m q x) (stored : Stored m q) (normal : -1074 < q)
    (below : x < 2 ^ (q + 52)) : m = 2 ^ 52 := by
  by_contra other
  have leads : 2 ^ 52 ≤ m := stored.leads.resolve_right normal.ne'
  have more : (2 : ℚ) ^ 52 + 1 ≤ m := by exact_mod_cast Nat.lt_of_le_of_ne leads (Ne.symm other)
  have gap : gapBelow m q = 1 / 2 := if_neg fun both => other both.1
  have low := between.low
  rw [gap] at low
  have reaches : (2 : ℚ) ^ 52 * 2 ^ q ≤ (m - 1 / 2) * 2 ^ q := by
    gcongr
    linarith
  rw [← two_zpow_add q 52] at reaches
  exact absurd below (not_lt.mpr (reaches.trans low))

theorem low_of_first (between : Between (2 ^ 52) q x) (normal : -1074 < q) :
    (2 ^ 52 - 1 / 4) * 2 ^ q ≤ x := by
  have gap : gapBelow (2 ^ 52) q = 1 / 4 := if_pos ⟨rfl, normal⟩
  have low := between.low
  rwa [gap, Nat.cast_pow, Nat.cast_ofNat] at low

theorem log_of_first (between : Between (2 ^ 52) q x) (normal : -1074 < q)
    (below : x < 2 ^ (q + 52)) : Int.log 2 x = q + 51 := by
  refine log_eq (b := 2) (by decide) ?_ (by rwa [add_assoc])
  refine (two_zpow_add q 51).trans_le (le_trans ?_ (between.low_of_first normal))
  gcongr
  norm_num

theorem nearestEven_of_first (between : Between (2 ^ 52) q x) (normal : -1074 < q)
    (below : x < 2 ^ (q + 52)) : nearestEven (x / 2 ^ (q - 1)) = 2 ^ 53 := by
  have unit : (0 : ℚ) < 2 ^ (q - 1) := by positivity
  have half : (2 : ℚ) ^ q = 2 ^ (q - 1) * 2 := by
    rw [← zpow_add_one₀ (by norm_num), sub_add_cancel]
  have low := between.low_of_first normal
  have high := below.trans_eq (two_zpow_add q 52)
  rw [half] at low high
  refine Decimal.nearestEven_eq ?_ ?_ fun odd => ?_
  · rw [le_div_iff₀ unit]
    push_cast
    linarith
  · rw [div_le_iff₀ unit]
    push_cast
    linarith
  · omega

/-- A number close to a double has its exponent, but for one below the power of two that a mantissa
starts with. -/
theorem exponent_cases (between : Between m q x) (stored : Stored m q) :
    max (-1074) (Int.log 2 x - 52) = q ∨
      m = 2 ^ 52 ∧ max (-1074) (Int.log 2 x - 52) = q - 1 ∧
        nearestEven (x / 2 ^ (q - 1)) = 2 ^ 53 := by
  have least := stored.least
  rcases le_or_gt ((2 : ℚ) ^ (q + 52)) x with above | below
  · have log : Int.log 2 x = q + 52 := log_eq (b := 2) (by decide) above (by
      rw [add_assoc]
      exact between.lt_top stored)
    omega
  rcases least.eq_or_lt with subnormal | normal
  · have log := (Int.lt_zpow_iff_log_lt (b := 2) (by decide) (between.pos stored.positive)).mp below
    omega
  obtain rfl := between.first_of_lt stored normal below
  have log := between.log_of_first normal below
  exact .inr ⟨rfl, by omega, between.nearestEven_of_first normal below⟩

end Between

def bitsOf (negative : Bool) (m : ℕ) (q : ℤ) : ℕ :=
  (if negative then 2 ^ 63 else 0) + ((q + 1074).toNat * 2 ^ 52 + m)

theorem roundToEven_shifted {n d : ℕ} (hd : 0 < d) (p : ℤ) :
    (roundToEven (n <<< (-p).toNat) (d <<< p.toNat) : ℤ) = nearestEven (n / d / 2 ^ p) := by
  have scaled := div_pow_toNat (b := 2) (by decide) n d p
  have positive : 0 < d * 2 ^ p.toNat := by positivity
  rw [Nat.shiftLeft_eq, Nat.shiftLeft_eq, ← nearestEven_div _ positive]
  push_cast at scaled ⊢
  rw [scaled]

/-- A ratio between the midpoints around a double has that double for the nearest one. -/
theorem nearest_eq {m : ℕ} {q : ℤ} (stored : Stored m q) (negative : Bool) {n d : ℕ} (hn : 0 < n)
    (hd : 0 < d) (between : Between m q (n / d)) :
    double.nearest negative n d = bitsOf negative m q := by
  have least := stored.least
  have most := stored.most
  have bounded := stored.bounded
  have width : double.fractionBits = 52 := rfl
  have exponents : double.exponentBits = 11 := rfl
  have start : double.leastExponent = -1074 := rfl
  have bits : ((double.exponentOf n d - -1074).toNat <<< 52) +
      roundToEven (n <<< (-double.exponentOf n d).toNat) (d <<< (double.exponentOf n d).toNat) =
      (q + 1074).toNat * 2 ^ 52 + m := by
    have mantissa := roundToEven_shifted (n := n) hd (double.exponentOf n d)
    rw [exponentOf_eq hn hd] at mantissa ⊢
    rw [Nat.shiftLeft_eq]
    rcases between.exponent_cases stored with same | ⟨first, less, carried⟩
    · rw [same] at mantissa ⊢
      rw [between.nearestEven_eq] at mantissa
      omega
    · rw [less] at mantissa ⊢
      rw [carried] at mantissa
      omega
  simp only [BinaryFormat.nearest, width, exponents, start, bits, if_neg hn.ne', bitsOf]
  rw [Nat.min_eq_left]
  · rfl
  · have : (1 <<< 11 - 1) <<< 52 = 2047 * 2 ^ 52 := rfl
    omega

/-! ## The shortest decimal -/

/-- Seventeen digits are always enough. -/
theorem between_significant {m : ℕ} {q : ℤ} (stored : Stored m q) :
    Between m q (significant 17 (m * 2 ^ q)) := by
  have positive : (0 : ℚ) < m := by exact_mod_cast stored.positive
  have bounded : (m : ℚ) < 2 ^ 53 := by exact_mod_cast stored.bounded
  have unit : (0 : ℚ) < 2 ^ q := by positivity
  have near := abs_le.mp (abs_sub_significant_le (by decide : 0 < 17)
    (by positivity : (0 : ℚ) < m * 2 ^ q))
  have gap : (m : ℚ) / (2 * 10 ^ 16) < gapBelow m q := by
    rw [gapBelow]
    split
    · rename_i first
      rw [first.1]
      norm_num
    · rw [div_lt_iff₀ (by norm_num)]
      linarith
  have half := gapBelow_le m q
  have moved : (m : ℚ) * 2 ^ q / (2 * 10 ^ (17 - 1)) = m / (2 * 10 ^ 16) * 2 ^ q := by ring
  have less : (m : ℚ) / (2 * 10 ^ 16) * 2 ^ q < gapBelow m q * 2 ^ q := by gcongr
  have most : gapBelow m q * (2 : ℚ) ^ q ≤ 1 / 2 * 2 ^ q := by gcongr
  rw [moved] at near
  have low : (m - gapBelow m q) * (2 : ℚ) ^ q < significant 17 (m * 2 ^ q) := by
    rw [sub_mul]
    linarith
  have high : significant 17 (m * 2 ^ q) < (m + 1 / 2) * (2 : ℚ) ^ q := by
    rw [add_mul]
    linarith
  exact ⟨low.le, high.le, fun _ => ⟨low, high⟩⟩

theorem between_shortest {m : ℕ} {q : ℤ} (stored : Stored m q) :
    Between m q (shortest double m q).value := by
  have positive := stored.positive
  rw [shortest, if_neg positive.ne', Scientific.value_trimmed]
  cases found : (List.range 17).findSome? fun n => identifying? double m q (n + 1) with
  | some d =>
      obtain ⟨n, _, identified⟩ := List.exists_of_findSome?_eq_some found
      exact between_of_identifies positive (List.find?_some identified)
  | none =>
      have hn : 0 < m <<< q.toNat := by
        rw [Nat.shiftLeft_eq]
        positivity
      have hd : 0 < 1 <<< (-q).toNat := by
        rw [Nat.shiftLeft_eq]
        positivity
      obtain ⟨value, _, _⟩ := roundedRatio_spec (by decide : 0 < 17) hn hd
      rw [shifted_ratio] at value
      rw [Option.getD_none, rounded, value]
      exact between_significant stored

/-! ## Reading -/

/-- The bits of a double are its sign, its exponent field and its mantissa field. -/
theorem parts_of_bits {bits : ℕ} (small : bits < 2 ^ 64) :
    bits = (if bits.testBit 63 then 2 ^ 63 else 0) + bits >>> 52 % 1 <<< 11 * 2 ^ 52 +
      bits % 1 <<< 52 := by
  rw [Nat.testBit_eq_decide_div_mod_eq, Nat.shiftRight_eq_div_pow, Nat.one_shiftLeft,
    Nat.one_shiftLeft]
  split
  · rename_i high
    have := decide_eq_true_iff.mp high
    omega
  · rename_i low
    rw [decide_eq_true_iff] at low
    omega

theorem stored_of_decode {bits m : ℕ} {q : ℤ} {negative : Bool} (small : bits < 2 ^ 64)
    (decoded : double.decode bits = .finite negative m q) :
    bits = bitsOf negative m q ∧ (0 < m → Stored m q) := by
  have parts := parts_of_bits small
  have fraction : bits % 1 <<< 52 < 2 ^ 52 := Nat.mod_lt _ (by decide)
  have field : bits >>> 52 % 1 <<< 11 < 2 ^ 11 := Nat.mod_lt _ (by decide)
  rw [decode_double] at decoded
  generalize bits % 1 <<< 52 = f at *
  generalize bits >>> 52 % 1 <<< 11 = e at *
  split_ifs at decoded with full infinite subnormal
  · obtain ⟨rfl, rfl, rfl⟩ := Binary.finite.inj decoded
    have exponent : (-1074 + 1074 : ℤ).toNat = e := subnormal.symm
    refine ⟨?_, fun positive => ⟨positive, by omega, by omega, by omega, .inr rfl⟩⟩
    rw [bitsOf, exponent, ← Nat.add_assoc]
    exact parts
  · obtain ⟨rfl, rfl, rfl⟩ := Binary.finite.inj decoded
    refine ⟨?_, fun positive => ⟨positive, by omega, by omega, by omega, .inl (by omega)⟩⟩
    rw [bitsOf]
    generalize (if bits.testBit 63 then 2 ^ 63 else 0) = sign at *
    omega

theorem ofBits_bitsOf {x : Float} {m : ℕ} {q : ℤ} {negative : Bool}
    (decoded : double.decode x.toBits.toNat = .finite negative m q) :
    Float.ofBits (UInt64.ofNat (bitsOf negative m q)) = x := by
  rw [← (stored_of_decode x.toBits.toNat_lt decoded).1, UInt64.ofNat_toNat, Float.ofBits_toBits]

theorem two_pow_le : (2 : ℚ) ^ (1200 : ℤ) ≤ 10 ^ (400 : ℤ) := by
  have eight : (2 : ℚ) ^ (1200 : ℤ) = 8 ^ (400 : ℤ) := by
    rw [show (1200 : ℤ) = 3 * 400 by rfl, zpow_mul]
    norm_num
  rw [eight]
  exact zpow_le_zpow_left₀ (by norm_num) (by norm_num) (by norm_num)

theorem value_bounds {d : Scientific} (positive : 0 < d.coefficient) :
    (10 : ℚ) ^ (d.exponent + digitCount d.coefficient - 1) ≤ d.value ∧
      d.value < 10 ^ (d.exponent + digitCount d.coefficient) := by
  obtain ⟨low, high⟩ := digitCount_bounds positive
  rw [sub_add_cancel] at high
  rw [add_sub_assoc, add_comm, add_comm d.exponent, zpow_add₀ (by norm_num), zpow_add₀ (by norm_num),
    Scientific.value]
  constructor <;> gcongr

/-- The size of a decimal close to a double is that of the double. -/
theorem size_bounds {m : ℕ} {q : ℤ} {d : Scientific} (stored : Stored m q)
    (between : Between m q d.value) :
    -400 ≤ d.exponent + digitCount d.coefficient ∧ d.exponent + digitCount d.coefficient ≤ 400 := by
  obtain ⟨low, high⟩ := value_bounds (between.coefficient_pos stored.positive)
  have top : d.value < (10 : ℚ) ^ (400 : ℤ) :=
    calc d.value < 2 ^ (q + 53) := between.lt_top stored
      _ ≤ 2 ^ (1200 : ℤ) := zpow_le_zpow_right₀ (by norm_num) (by have := stored.most; omega)
      _ ≤ 10 ^ (400 : ℤ) := two_pow_le
  have bottom : (10 : ℚ) ^ (-400 : ℤ) ≤ d.value :=
    calc (10 : ℚ) ^ (-400 : ℤ) ≤ 2 ^ (-1200 : ℤ) := by
          rw [zpow_neg, zpow_neg]
          exact inv_anti₀ (by positivity) two_pow_le
      _ ≤ 2 ^ (q - 1) := zpow_le_zpow_right₀ (by norm_num) (by have := stored.least; omega)
      _ ≤ d.value := between.half_le stored.positive
  have first := (zpow_lt_zpow_iff_right₀ (by norm_num : (1 : ℚ) < 10)).mp (low.trans_lt top)
  have second := (zpow_lt_zpow_iff_right₀ (by norm_num : (1 : ℚ) < 10)).mp (bottom.trans_lt high)
  omega

theorem toDouble_eq {x : Float} {m : ℕ} {q : ℤ} {negative : Bool} {d : Scientific}
    (decoded : double.decode x.toBits.toNat = .finite negative m q) (positive : 0 < m)
    (between : Between m q d.value) : toDouble negative d = x := by
  have stored := (stored_of_decode x.toBits.toNat_lt decoded).2 positive
  obtain ⟨low, high⟩ := size_bounds stored between
  have leading := between.coefficient_pos positive
  have hn : 0 < d.coefficient * tenTo d.exponent.toNat := Nat.mul_pos leading (Nat.pow_pos (by decide))
  have hd : 0 < tenTo (-d.exponent).toNat := Nat.pow_pos (by decide)
  have ratio : ((d.coefficient * tenTo d.exponent.toNat : ℕ) : ℚ) / (tenTo (-d.exponent).toNat : ℕ) =
      d.value := by
    have ten := pow_toNat_eq (b := 10) (by decide) d.exponent
    rw [div_eq_iff (by exact_mod_cast hd.ne'), Scientific.value, tenTo_eq, tenTo_eq]
    push_cast at ten ⊢
    rw [ten, mul_assoc]
  have bits := nearest_eq stored negative hn hd (ratio.symm ▸ between)
  simp only [toDouble]
  rw [if_neg (by omega), if_neg (by omega), bits]
  exact ofBits_bitsOf decoded

theorem toDouble_zero {x : Float} {q : ℤ} {negative : Bool} {d : Scientific}
    (decoded : double.decode x.toBits.toNat = .finite negative 0 q) (zero : d.coefficient = 0) :
    toDouble negative d = x := by
  have least : q = -1074 := by
    rw [decode_double] at decoded
    split_ifs at decoded
    · exact (Binary.finite.inj decoded).2.2.symm
    · have := (Binary.finite.inj decoded).2.1
      omega
  have bits : double.nearest negative 0 1 = bitsOf negative 0 q := by
    rw [least]
    cases negative <;> rfl
  simp only [toDouble]
  rw [if_pos (.inl zero), bits]
  exact ofBits_bitsOf decoded

/-- A double is the one that its shortest decimal reads back as. -/
theorem toDouble_of_value_eq {x : Float} {m : ℕ} {q : ℤ} {negative : Bool} {d : Scientific}
    (decoded : double.decode x.toBits.toNat = .finite negative m q)
    (same : d.value = (shortest double m q).value) : toDouble negative d = x := by
  rcases Nat.eq_zero_or_pos m with rfl | positive
  · refine toDouble_zero decoded ?_
    have zero : d.value = 0 := by
      rw [same]
      simp [shortest, Scientific.value]
    rw [Scientific.value, mul_eq_zero, Nat.cast_eq_zero] at zero
    exact zero.resolve_right (zpow_ne_zero _ (by norm_num))
  · have stored := (stored_of_decode x.toBits.toNat_lt decoded).2 positive
    exact toDouble_eq decoded positive (same ▸ between_shortest stored)

end LocalMetric.Decimal
