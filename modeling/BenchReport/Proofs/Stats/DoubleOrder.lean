import BenchReport.Scalar
import Mathlib
set_option autoImplicit false

namespace BenchReport.Double

open Float.Model

theorem toBits_injective {x y : Float} (same : x.toBits = y.toBits) : x = y := by
  obtain ⟨⟨bits, _⟩⟩ := x
  obtain ⟨⟨bits', _⟩⟩ := y
  have bits_eq : bits = bits' := same
  subst bits_eq
  rfl

theorem orderKey_plus {x : Float} (plus : x.toBits.toNat < 2 ^ 63) :
    orderKey x = x.toBits.toNat := if_pos plus

theorem orderKey_minus {x : Float} (minus : ¬ x.toBits.toNat < 2 ^ 63) :
    orderKey x = -((x.toBits.toNat - 2 ^ 63 : Nat) : Int) - 1 := if_neg minus

theorem orderKey_injective {x y : Float} (same : orderKey x = orderKey y) : x = y := by
  apply toBits_injective
  apply UInt64.toNat.inj
  by_cases plus : x.toBits.toNat < 2 ^ 63 <;> by_cases plus' : y.toBits.toNat < 2 ^ 63
  · rw [orderKey_plus plus, orderKey_plus plus'] at same
    omega
  · rw [orderKey_plus plus, orderKey_minus plus'] at same
    omega
  · rw [orderKey_minus plus, orderKey_plus plus'] at same
    omega
  · rw [orderKey_minus plus, orderKey_minus plus'] at same
    omega

theorem toNat_unpackExponent (bits : BitVec Format.binary64.numBits) :
    (UnpackedFloat.unpackExponent bits).toNat = bits.toNat / 2 ^ 52 % 2 ^ 11 := by
  simp [UnpackedFloat.unpackExponent, BitVec.extractLsb, Nat.shiftRight_eq_div_pow]

theorem toNat_unpackMantissa (bits : BitVec Format.binary64.numBits) :
    (UnpackedFloat.unpackMantissa bits).toNat = bits.toNat % 2 ^ 52 := by
  simp [UnpackedFloat.unpackMantissa, BitVec.extractLsb, Nat.shiftRight_eq_div_pow]

theorem toNat_unpackSign (bits : BitVec Format.binary64.numBits) :
    (UnpackedFloat.unpackSign bits).toNat = bits.toNat / 2 ^ 63 := by
  have bounded : bits.toNat < 2 ^ 64 := bits.isLt
  simp only [UnpackedFloat.unpackSign, BitVec.extractLsb, BitVec.toNat_cast,
    BitVec.extractLsb'_toNat, Nat.shiftRight_eq_div_pow]
  omega

theorem ofBitVec_positive_iff (s : BitVec 1) :
    UnpackedFloat.Sign.ofBitVec s = .positive ↔ s.toNat = 0 := by
  rw [UnpackedFloat.Sign.ofBitVec]
  constructor
  · intro positive
    split at positive
    · rename_i zero
      rw [zero]
      rfl
    · cases positive
  · intro zero
    exact if_pos (BitVec.eq_of_toNat_eq zero)

/-- The bits of a finite double that is not zero, from its sign, mantissa and exponent. The mantissa
has its full width unless the exponent is the least. -/
theorem unpack_finite {bits : BitVec Format.binary64.numBits} {s : UnpackedFloat.Sign} {m : Nat}
    {e : Int} {h : 0 < m}
    (unpacked : UnpackedFloat.unpack Format.binary64 bits = .finite s m e h) :
    (bits.toNat % 2 ^ 63 : Int) = (e + 1074) * 2 ^ 52 + m ∧
      (s = .positive ↔ bits.toNat < 2 ^ 63) ∧
      m < 2 ^ 53 ∧ -1074 ≤ e ∧ (-1074 < e → 2 ^ 52 ≤ m) := by
  have bounded : bits.toNat < 2 ^ 64 := bits.isLt
  have exponent := toNat_unpackExponent bits
  have mantissa := toNat_unpackMantissa bits
  have sign := toNat_unpackSign bits
  have plus := ofBitVec_positive_iff (UnpackedFloat.unpackSign bits)
  have bias : (Format.binary64.exponentBias : Int) = 1023 := by decide
  simp only [UnpackedFloat.unpack] at unpacked
  split at unpacked
  · split at unpacked <;> cases unpacked
  · split at unpacked
    · rename_i least
      split at unpacked
      · cases unpacked
      · simp only [UnpackedFloat.finite.injEq, bias] at unpacked
        obtain ⟨rfl, held, raised⟩ := unpacked
        have zero : (UnpackedFloat.unpackExponent bits).toNat = 0 := congrArg BitVec.toNat least
        rw [plus]
        omega
    · rename_i normal
      simp only [UnpackedFloat.finite.injEq, bias] at unpacked
      obtain ⟨rfl, held, raised⟩ := unpacked
      have some : (UnpackedFloat.unpackExponent bits).toNat ≠ 0 :=
        fun zero => normal (BitVec.eq_of_toNat_eq zero)
      have full : (1#1 ++ UnpackedFloat.unpackMantissa bits).toNat =
          2 ^ 52 + (UnpackedFloat.unpackMantissa bits).toNat := by
        rw [BitVec.toNat_append, ← Nat.shiftLeft_add_eq_or_of_lt (BitVec.isLt _)]
        rfl
      rw [plus]
      omega

theorem unpack_zero {bits : BitVec Format.binary64.numBits} {s : UnpackedFloat.Sign}
    (unpacked : UnpackedFloat.unpack Format.binary64 bits = .zero s) : bits.toNat % 2 ^ 63 = 0 := by
  have bounded : bits.toNat < 2 ^ 64 := bits.isLt
  have exponent := toNat_unpackExponent bits
  have mantissa := toNat_unpackMantissa bits
  simp only [UnpackedFloat.unpack] at unpacked
  split at unpacked
  · split at unpacked <;> cases unpacked
  · split at unpacked
    · rename_i least
      split at unpacked
      · rename_i none
        have no_exponent := congrArg BitVec.toNat least
        have no_mantissa := congrArg BitVec.toNat none
        change _ = 0 at no_exponent no_mantissa
        omega
      · cases unpacked
    · cases unpacked

/-- The bits of a positive double. -/
theorem unpack_positive {bits : BitVec Format.binary64.numBits} {m : Nat} {e : Int} {h : 0 < m}
    (unpacked : UnpackedFloat.unpack Format.binary64 bits = .finite .positive m e h) :
    (bits.toNat : Int) = (e + 1074) * 2 ^ 52 + m ∧ bits.toNat < 2 ^ 63 ∧
      m < 2 ^ 53 ∧ -1074 ≤ e ∧ (-1074 < e → 2 ^ 52 ≤ m) := by
  obtain ⟨held, sign, width, least, full⟩ := unpack_finite unpacked
  have plus := sign.1 rfl
  exact ⟨by omega, plus, width, least, full⟩

def Positive (x : Float) : Prop := x.isFinite = true ∧ 0.0 < x

theorem lt_iff_compare (x y : Float) :
    x < y ↔ x.toModel.unpack.compare y.toModel.unpack = some .lt := by
  change decide ((x.toModel.unpack.compare y.toModel.unpack == some .lt) = true) = true ↔ _
  simp only [decide_eq_true_eq, beq_iff_eq]

theorem Positive.unpack {x : Float} (positive : Positive x) :
    ∃ m e h, x.toModel.unpack = .finite .positive m e h := by
  obtain ⟨isFinite, above⟩ := positive
  have zero : (0.0 : Float).toModel.unpack = .zero .positive := rfl
  rw [lt_iff_compare, zero] at above
  change x.toModel.unpack.isFinite = true at isFinite
  cases unpacked : x.toModel.unpack with
  | infinity s =>
      rw [unpacked] at isFinite
      cases isFinite
  | notANumber =>
      rw [unpacked] at isFinite
      cases isFinite
  | zero s =>
      rw [unpacked] at above
      cases above
  | finite s m e h =>
      cases s with
      | positive => exact ⟨m, e, h, rfl⟩
      | negative =>
          rw [unpacked] at above
          cases above

/-- What is finite and not at or below zero is positive. -/
theorem positive_iff (x : Float) : Positive x ↔ (!x.isFinite || decide (x ≤ 0.0)) = false := by
  have zero : (0.0 : Float).toModel.unpack = .zero .positive := rfl
  rw [Bool.or_eq_false_iff, Bool.not_eq_false', decide_eq_false_iff_not]
  refine and_congr_right fun isFinite => ?_
  change x.toModel.unpack.isFinite = true at isFinite
  rw [lt_iff_compare, zero]
  change _ ↔ ¬ decide ((x.toModel.unpack.compare (0.0 : Float).toModel.unpack).any (·.isLE) = true)
    = true
  rw [zero]
  cases unpacked : x.toModel.unpack with
  | infinity s =>
      rw [unpacked] at isFinite
      cases isFinite
  | notANumber =>
      rw [unpacked] at isFinite
      cases isFinite
  | zero s => simp [UnpackedFloat.compare]
  | finite s m e h => cases s <;> simp [UnpackedFloat.compare]

/-- On positive finite doubles the numbers are ordered as their keys. -/
theorem lt_iff_orderKey {x y : Float} (left : Positive x) (right : Positive y) :
    x < y ↔ orderKey x < orderKey y := by
  obtain ⟨m, e, h, x_unpacked⟩ := left.unpack
  obtain ⟨m', e', h', y_unpacked⟩ := right.unpack
  obtain ⟨x_bits, x_plus, x_width, x_least, x_full⟩ := unpack_positive x_unpacked
  obtain ⟨y_bits, y_plus, y_width, y_least, y_full⟩ := unpack_positive y_unpacked
  rw [orderKey_plus x_plus, orderKey_plus y_plus, lt_iff_compare, x_unpacked, y_unpacked]
  change some ((compare e e').then (compare m m')) = some .lt ↔ _
  rw [Option.some_inj, Ordering.then_eq_lt, Int.compare_eq_lt, Int.compare_eq_eq,
    Nat.compare_eq_lt]
  change _ ↔ (x.toModel.toBits.toBitVec.toNat : Int) < y.toModel.toBits.toBitVec.toNat
  rw [x_bits, y_bits]
  omega

end BenchReport.Double
