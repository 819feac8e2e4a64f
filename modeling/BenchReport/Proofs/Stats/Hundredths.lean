import BenchReport.Proofs.Stats.DoubleOperations
set_option autoImplicit false

namespace BenchReport.Double

open Float.Model UnpackedFloat

variable {x : Float}

theorem unpack_abs (x : Float) : x.abs.toModel.unpack = x.toModel.unpack.abs := by
  change (pack x.toModel.unpack.abs).unpack = _
  cases eq : x.toModel.unpack with
  | notANumber => rfl
  | infinity s => cases s <;> rfl
  | zero s => cases s <;> rfl
  | finite s m e h => exact unpack_pack .positive h (canonical_unpack eq) (exponent_le eq)

theorem isFinite_neg (finite : x.isFinite = true) : (-x).isFinite = true := by
  change (pack x.toModel.unpack.neg).unpack.isFinite = true
  rcases unpack_isFinite finite with ⟨s, eq⟩ | ⟨s, m, e, h, eq⟩
  · rw [eq]
    cases s <;> rfl
  · rw [eq, UnpackedFloat.neg, unpack_pack (-s) h (canonical_unpack eq) (exponent_le eq)]
    rfl

/-- A double below `2 ^ 52` is finite, and its whole part is not wider than a mantissa. -/
theorem floor_abs_lt (small : x.abs < 4503599627370496.0) :
    x.isFinite = true ∧ floor x.abs < 2 ^ 53 := by
  have bound : (4503599627370496.0 : Float).toModel.unpack =
      .finite .positive (2 ^ 52) 0 (by decide) := rfl
  rw [lt_iff_compare, bound, unpack_abs] at small
  change x.toModel.unpack.isFinite = true ∧ _
  cases eq : x.toModel.unpack with
  | notANumber =>
      rw [eq] at small
      cases small
  | infinity s =>
      rw [eq] at small
      cases small
  | zero s =>
      have size : x.abs.toModel.unpack = .zero .positive := by rw [unpack_abs, eq]; rfl
      exact ⟨rfl, (floor_zero size).trans_lt (by decide)⟩
  | finite s m e h =>
      rw [eq] at small
      change some ((compare e 0).then (compare m (2 ^ 52))) = some .lt at small
      rw [Option.some_inj, Ordering.then_eq_lt, Int.compare_eq_lt, Int.compare_eq_eq] at small
      have size : x.abs.toModel.unpack = .finite .positive m e h := by rw [unpack_abs, eq]; rfl
      rw [floor_positive size (by omega)]
      exact ⟨rfl, (Nat.div_le_self _ _).trans_lt (canonical_unpack eq).width⟩

theorem unpack_one : (1.0 : Float).toModel.unpack =
    .finite .positive (2 ^ 52) (-52) (by decide) := rfl

/-- Counters below `2 ^ 53` and their successors are doubles. -/
theorem isFinite_counter {n : UInt64} (small : n.toNat < 2 ^ 53) :
    n.toFloat.isFinite = true ∧ (n.toFloat + 1.0).isFinite = true := by
  rcases Nat.eq_zero_or_pos n.toNat with zero | some
  · obtain rfl : n = 0 := UInt64.toNat.inj zero
    exact ⟨by decide +kernel, by decide +kernel⟩
  · have counter := unpack_ofNat some small
    change (UInt64.ofNat n.toNat).toFloat.toModel.unpack = _ at counter
    rw [UInt64.ofNat_toNat] at counter
    refine ⟨?_, ?_⟩
    · change n.toFloat.toModel.unpack.isFinite = true
      rw [counter]
      rfl
    · have bound : ((n.toNat * 2 ^ missing n.toNat : Nat) * 2 ^ (-missing n.toNat : Int) +
          (2 ^ 52 : Nat) * 2 ^ (-52 : Int) : ℝ) ≤ (1 : Nat) * 2 ^ (53 : Int) := by
        have counted : ((n.toNat * 2 ^ missing n.toNat : Nat) * 2 ^ (-missing n.toNat : Int) : ℝ) =
            n.toNat := by
          rw [← mul_finer, neg_add_cancel, zpow_zero, mul_one]
        have unit : ((2 ^ 52 : Nat) * 2 ^ (-52 : Int) : ℝ) = 1 := by norm_num
        rw [counted, unit]
        exact_mod_cast small
      exact (isNearest_add counter unpack_one).isFinite (by decide) (by decide) (by decide) bound

theorem isFinite_round (x : Float) : (round x).isFinite = x.isFinite := by
  rw [round]
  split
  · rename_i small
    obtain ⟨finite, width⟩ := floor_abs_lt small
    obtain ⟨counter, next⟩ := isFinite_counter width
    rw [finite]
    dsimp only
    split_ifs
    · exact counter
    · exact next
    · exact isFinite_neg counter
    · exact isFinite_neg next
  · rfl

/-- The greatest double whose hundredfold is not beyond all doubles. -/
noncomputable def hundredthsLimit : ℝ := (5764607523034234 : Nat) * ((2 : Nat) : ℝ) ^ (965 : Int)

theorem hundredthsLimit_eq : hundredthsLimit = (5764607523034234 : Nat) * 2 ^ (965 : Int) := by
  rw [hundredthsLimit, Nat.cast_two]

/-- A finite double that can be taken a hundredfold. -/
def Limited (x : Float) : Prop := ∃ v, exactly x = .real v ∧ |v| ≤ hundredthsLimit

/-- Above a double the next one comes. -/
theorem Canonical.next {m a : Nat} {e k : Int} (held : Canonical m e) (least : Canonical a k)
    (next : Canonical (a + 1) k) (above : (a * 2 ^ k : ℝ) < m * 2 ^ e) :
    ((a + 1 : Nat) * 2 ^ k : ℝ) ≤ m * 2 ^ e := by
  refine next.mono held ?_
  by_contra not_above
  have le := held.mono least (by push_cast at not_above; omega)
  linarith

theorem unpack_hundred : (Scalar.ofNat 100 : Float).toModel.unpack =
    .finite .positive (100 * 2 ^ 46) (-46) (by decide) := rfl

theorem value_hundred : ((100 * 2 ^ 46 : Nat) * 2 ^ (-46 : Int) : ℝ) = 100 := by norm_num

/-- A double of the size `m * 2 ^ e` has a hundredfold up to the limit. -/
theorem isFinite_hundredfold {s : Sign} {m : Nat} {e : Int} {h : 0 < m}
    (eq : x.toModel.unpack = .finite s m e h) :
    (x * Scalar.ofNat 100).isFinite = true ↔ (m * 2 ^ e : ℝ) ≤ hundredthsLimit := by
  have nearest := isNearest_mul eq unpack_hundred
  rw [value_hundred] at nearest
  rw [hundredthsLimit_eq]
  constructor
  · intro finite
    by_contra above
    -- the next double after the limit, taken a hundredfold, is beyond all doubles
    have next := (canonical_unpack eq).next ⟨by decide, by decide, fun _ => by decide⟩
      ⟨by decide, by decide, fun _ => by decide⟩ (not_le.1 above)
    have beyond : (2 ^ (1024 : Int) : ℝ) ≤ m * 2 ^ e * 100 := by
      have unit : (0 : ℝ) < 2 ^ (965 : Int) := by positivity
      calc (2 ^ (1024 : Int) : ℝ) = 2 ^ 59 * 2 ^ (965 : Int) := (two_pow_mul_zpow 59 965).symm
        _ ≤ (5764607523034234 + 1 : Nat) * 2 ^ (965 : Int) * 100 := by
            rw [mul_right_comm]
            gcongr
            norm_num only
        _ ≤ m * 2 ^ e * 100 := by gcongr
    rw [nearest.not_finite beyond] at finite
    cases finite
  · intro limited
    have bound : (m * 2 ^ e * 100 : ℝ) ≤ (2 ^ 53 - 1 : Nat) * 2 ^ (971 : Int) := by
      calc (m * 2 ^ e * 100 : ℝ) ≤ (5764607523034234 : Nat) * 2 ^ (965 : Int) * 100 :=
            mul_le_mul_of_nonneg_right limited (by norm_num)
        _ ≤ ((2 ^ 53 - 1) * 2 ^ 6 : Nat) * 2 ^ (965 : Int) := by
            rw [mul_right_comm]
            gcongr
            norm_num only
        _ = (2 ^ 53 - 1 : Nat) * 2 ^ (971 : Int) := (mul_finer (2 ^ 53 - 1) 6 965).symm
    exact nearest.isFinite (by decide) (by decide) (by decide) bound

theorem limited_iff {s : Sign} {m : Nat} {e : Int} {h : 0 < m}
    (eq : x.toModel.unpack = .finite s m e h) :
    Limited x ↔ (m * 2 ^ e : ℝ) ≤ hundredthsLimit := by
  have size := abs_apply s (v := m * 2 ^ e) (by positivity)
  rw [Limited, exactly_finite eq]
  constructor
  · rintro ⟨v, same, le⟩
    rwa [← Extended.real.inj same, size] at le
  · exact fun le => ⟨_, rfl, size.trans_le le⟩

theorem limited_zero {s : Sign} (eq : x.toModel.unpack = .zero s) : Limited x := by
  refine ⟨0, exactly_zero eq, ?_⟩
  rw [abs_zero, hundredthsLimit_eq]
  positivity

theorem isFinite_hundredth (x : Float) : (x / Scalar.ofNat 100).isFinite = x.isFinite := by
  have made : (x / Scalar.ofNat 100).isFinite = (pack (UnpackedFloat.div Format.binary64
      x.toModel.unpack (.finite .positive (100 * 2 ^ 46) (-46) (by decide)))).unpack.isFinite :=
    congrArg (fun y => (pack (UnpackedFloat.div _ _ y)).unpack.isFinite) unpack_hundred
  change _ = x.toModel.unpack.isFinite
  cases eq : x.toModel.unpack with
  | notANumber =>
      rw [made, eq]
      rfl
  | infinity s =>
      rw [made, eq]
      cases s <;> rfl
  | zero s =>
      rw [made, eq]
      cases s <;> rfl
  | finite s m e h =>
      have nearest := isNearest_div eq unpack_hundred
      rw [value_hundred] at nearest
      have smaller : (m * 2 ^ e / 100 : ℝ) ≤ m * 2 ^ e := div_le_self (by positivity) (by norm_num)
      have held := canonical_unpack eq
      exact nearest.isFinite held.width held.least (exponent_le eq) smaller

theorem Limited.isFinite (limited : Limited x) : x.isFinite = true :=
  have ⟨v, eq, _⟩ := limited
  isFinite_iff.2 ⟨v, eq⟩

/-- Rounding to hundredths keeps the doubles finite that can be taken a hundredfold, and no
others. -/
theorem isFinite_round2 (x : Float) : (Scalar.round2 x).isFinite = true ↔ Limited x := by
  change (round (x * Scalar.ofNat 100) / Scalar.ofNat 100).isFinite = true ↔ _
  rw [isFinite_hundredth, isFinite_round]
  have made : (x * Scalar.ofNat 100).isFinite = (pack (UnpackedFloat.mul Format.binary64
      x.toModel.unpack (.finite .positive (100 * 2 ^ 46) (-46) (by decide)))).unpack.isFinite :=
    congrArg (fun y => (pack (UnpackedFloat.mul _ _ y)).unpack.isFinite) unpack_hundred
  cases eq : x.toModel.unpack with
  | notANumber =>
      have undefined : x.isFinite = false := congrArg UnpackedFloat.isFinite eq
      rw [made, eq]
      exact iff_of_false Bool.false_ne_true fun limited =>
        Bool.false_ne_true (undefined.symm.trans limited.isFinite)
  | infinity s =>
      have infinite : x.isFinite = false := congrArg UnpackedFloat.isFinite eq
      have beyond : (x * Scalar.ofNat 100).isFinite = false := by
        rw [made, eq]
        cases s <;> rfl
      rw [beyond]
      exact iff_of_false Bool.false_ne_true fun limited =>
        Bool.false_ne_true (infinite.symm.trans limited.isFinite)
  | zero s =>
      have zero : (x * Scalar.ofNat 100).isFinite = true := by
        rw [made, eq]
        cases s <;> rfl
      exact iff_of_true zero (limited_zero eq)
  | finite s m e h => rw [isFinite_hundredfold eq, limited_iff eq]

end BenchReport.Double
