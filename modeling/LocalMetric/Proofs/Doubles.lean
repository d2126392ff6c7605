import Mathlib
import LocalMetric.Text.Number
/-!
# Values of doubles

The bits of a double are read as the logical model of doubles reads them, and a number that is
greater than zero and of finite size has a mantissa and an exponent. The library's own lemmas about
this model come with the whole library only, which is why it is imported whole.
-/
namespace LocalMetric

open Decimal (BinaryFormat Binary)
open Float.Model (UnpackedFloat Format)
open Float.Model.UnpackedFloat (Sign)

section Fields

variable (b : BitVec Format.binary64.numBits)

theorem toNat_one_append {w : Nat} (v : BitVec w) : (1#1 ++ v).toNat = 2 ^ w + v.toNat := by
  rw [BitVec.toNat_append, ← Nat.shiftLeft_add_eq_or_of_lt v.isLt, Nat.shiftLeft_eq]
  exact congrArg (· + v.toNat) (Nat.one_mul _)

theorem toNat_unpackMantissa :
    (UnpackedFloat.unpackMantissa b).toNat = b.toNat % 1 <<< 52 := by
  simp [UnpackedFloat.unpackMantissa]

theorem toNat_unpackExponent :
    (UnpackedFloat.unpackExponent b).toNat = b.toNat >>> 52 % 1 <<< 11 := by
  simp [UnpackedFloat.unpackExponent]

theorem negative_unpackSign :
    (Sign.ofBitVec (UnpackedFloat.unpackSign b) == .negative) = b.toNat.testBit 63 := by
  have bit : (UnpackedFloat.unpackSign b).toNat = b.toNat / 2 ^ 63 % 2 := by
    simp [UnpackedFloat.unpackSign, Nat.shiftRight_eq_div_pow]
  rw [Nat.testBit_eq_decide_div_mod_eq, ← bit]
  generalize UnpackedFloat.unpackSign b = sign
  revert sign
  decide

theorem decode_double (bits : Nat) :
    BinaryFormat.double.decode bits =
      if bits >>> 52 % 1 <<< 11 = 2047 then
        if bits % 1 <<< 52 = 0 then .infinite (bits.testBit 63) else .nan
      else if bits >>> 52 % 1 <<< 11 = 0 then .finite (bits.testBit 63) (bits % 1 <<< 52) (-1074)
      else .finite (bits.testBit 63) (2 ^ 52 + bits % 1 <<< 52)
        (-1074 + (bits >>> 52 % 1 <<< 11 : Nat) - 1) := rfl

/-- The bits of a double are read as its logical model reads them. -/
theorem decode_of_unpack {s : Sign} {m : Nat} {e : Int} {h : 0 < m}
    (unpacked : UnpackedFloat.unpack .binary64 b = .finite s m e h) :
    BinaryFormat.double.decode b.toNat = .finite (s == .negative) m e := by
  rw [decode_double, ← toNat_unpackExponent, ← toNat_unpackMantissa, ← negative_unpackSign]
  rw [UnpackedFloat.unpack] at unpacked
  by_cases full : UnpackedFloat.unpackExponent b = -1#11
  · rw [if_pos full] at unpacked
    split at unpacked <;> cases unpacked
  rw [if_neg full] at unpacked
  have notFull : (UnpackedFloat.unpackExponent b).toNat ≠ 2047 :=
    fun same => full (BitVec.eq_of_toNat_eq same)
  rw [if_neg notFull]
  by_cases empty : UnpackedFloat.unpackExponent b = 0#11
  · rw [if_pos empty] at unpacked
    have lowest : (UnpackedFloat.unpackExponent b).toNat = 0 :=
      congrArg BitVec.toNat empty
    rw [if_pos lowest]
    split at unpacked
    · cases unpacked
    · obtain ⟨rfl, rfl, rfl⟩ := UnpackedFloat.finite.inj unpacked
      rw [empty]
      rfl
  · rw [if_neg empty] at unpacked
    have normal : (UnpackedFloat.unpackExponent b).toNat ≠ 0 :=
      fun same => empty (BitVec.eq_of_toNat_eq same)
    rw [if_neg normal]
    obtain ⟨rfl, rfl, rfl⟩ := UnpackedFloat.finite.inj unpacked
    rw [toNat_one_append]
    congr 1
    change -1074 + _ - 1 = _ - (1023 + 52)
    omega

end Fields

/-- The exact value of a double without its sign, zero if it has no finite size. -/
def magnitude (x : Float) : ℚ :=
  match x.toModel.unpack with
  | .finite _ m e _ => m * 2 ^ e
  | _ => 0

section Comparisons

variable {x y : Float}

theorem double_nonpos_iff : x ≤ 0 ↔ x.toModel.unpack.le (.zero .positive) = true :=
  decide_eq_true_iff

theorem double_pos_iff : 0 < x ↔ (UnpackedFloat.zero .positive).lt x.toModel.unpack = true :=
  decide_eq_true_iff

theorem double_not_nonpos (positive : 0 < x) : ¬x ≤ 0 := by
  rw [double_nonpos_iff]
  rw [double_pos_iff] at positive
  revert positive
  generalize x.toModel.unpack = value
  cases value with
  | notANumber => decide
  | infinity s => cases s <;> decide
  | zero s => cases s <;> decide
  | finite s m e h => cases s <;> simp [UnpackedFloat.le, UnpackedFloat.lt, UnpackedFloat.compare]

/-- Doubles that compare as equal are the same, but for zeros of different signs. -/
theorem double_eq_of_beq (positive : 0 < y) (same : (x == y) = true) : x = y := by
  obtain ⟨⟨bits, valid⟩⟩ := x
  obtain ⟨⟨bits', valid'⟩⟩ := y
  have zero (s : Sign) : bits'.toBitVec ≠ UnpackedFloat.packedZero .binary64 s := by
    intro here
    have above := double_pos_iff.mp positive
    rw [Float.Model.unpack, here] at above
    cases s <;> cases above
  obtain ⟨_, _, equal | zeros | zeros⟩ := (UnpackedFloat.unpack_beq_unpack_iff valid valid').mp same
  · obtain rfl := UInt64.toBitVec_inj.mp equal
    rfl
  · exact absurd zeros.2 (zero _)
  · exact absurd zeros.2 (zero _)

end Comparisons

theorem exists_unpack {x : Float} (positive : 0 < x) (finite : Scalar.isFinite x = true) :
    ∃ m e, ∃ h : 0 < m, x.toModel.unpack = .finite .positive m e h := by
  have less := double_pos_iff.mp positive
  have whole : x.toModel.unpack.isFinite = true := finite
  cases unpacked : x.toModel.unpack with
  | infinity s =>
      rw [unpacked] at whole
      cases whole
  | notANumber =>
      rw [unpacked] at whole
      cases whole
  | zero s =>
      rw [unpacked] at less
      cases s <;> cases less
  | finite s m e h =>
      cases s with
      | positive => exact ⟨m, e, h, rfl⟩
      | negative =>
          rw [unpacked] at less
          cases less

/-- Numbers greater than zero are read as what they are. -/
theorem exists_decode {x : Float} (positive : 0 < x) (finite : Scalar.isFinite x = true) :
    ∃ (m : ℕ) (e : ℤ), 0 < m ∧ magnitude x = m * 2 ^ e ∧
      BinaryFormat.double.decode x.toBits.toNat = .finite false m e := by
  obtain ⟨m, e, hm, unpacked⟩ := exists_unpack positive finite
  refine ⟨m, e, hm, ?_, decode_of_unpack _ unpacked⟩
  rw [magnitude, unpacked]

theorem magnitude_pos {x : Float} (positive : 0 < x) (finite : Scalar.isFinite x = true) :
    0 < magnitude x := by
  obtain ⟨m, e, _, value, _⟩ := exists_decode positive finite
  rw [value]
  positivity

end LocalMetric
