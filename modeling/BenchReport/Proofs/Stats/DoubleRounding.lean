import BenchReport.Proofs.Stats.DoubleOrder
import BenchReport.Stats.Quantile
set_option autoImplicit false

namespace BenchReport.Double

open Float.Model UnpackedFloat

/-- A mantissa and an exponent as doubles hold them: of full width, unless the exponent is the
least. -/
structure Canonical (m : Nat) (e : Int) : Prop where
  width : m < 2 ^ 53
  least : -1074 ≤ e
  full : -1074 < e → 2 ^ 52 ≤ m

/-- The number `m * 2 ^ e`, for an exponent that is not positive, is not above `b`. -/
structure Within (b m : Nat) (e : Int) : Prop where
  exponent : e ≤ 0
  le : m ≤ b * 2 ^ (-e).toNat

/-- The exponent at which a number has full width, or the least exponent. -/
def target (m : Nat) (e : Int) : Int := max (m.log2 + e - 52) (-1074)

theorem targetExponent_eq (m : Nat) (e : Int) :
    Format.binary64.targetExponent (totalExponent m e) = target m e := by
  have width : Format.binary64.mantissaBits = 53 := by decide
  have least : Format.binary64.minExponent = -1074 := by decide
  rw [Format.targetExponent, totalExponent, width, least, target]
  congr 1
  omega

theorem mantissa_shiftRight (em : ExtendedMantissa) (k : Nat) :
    (em >>> k).mantissa = em.mantissa / 2 ^ k := by
  induction k with
  | zero => exact (Nat.div_one _).symm
  | succ k ih =>
      change (em >>> k).mantissa / 2 = _
      rw [ih, Nat.div_div_eq_div_mul, Nat.pow_succ]

/-- Nothing is lost by dropping digits that are zero. -/
theorem shiftRight_mul (m k : Nat) :
    (⟨m * 2 ^ k, false, false⟩ : ExtendedMantissa) >>> k = ⟨m, false, false⟩ := by
  induction k generalizing m with
  | zero => exact congrArg (ExtendedMantissa.mk · false false) (Nat.mul_one m)
  | succ k ih =>
      have halved : m * 2 ^ (k + 1) = m * 2 * 2 ^ k := by rw [Nat.pow_succ']; ring
      change ((⟨m * 2 ^ (k + 1), false, false⟩ : ExtendedMantissa) >>> k).shiftRightOne = _
      rw [halved, ih, ExtendedMantissa.shiftRightOne]
      simp

theorem le_roundedMantissa (em : ExtendedMantissa) : em.mantissa ≤ em.roundedMantissa := by
  obtain ⟨m, r, s⟩ := em
  cases r <;> cases s <;>
    simp [ExtendedMantissa.roundedMantissa, ExtendedMantissa.accuracy, Accuracy.roundToNearestEven]

theorem roundedMantissa_le (em : ExtendedMantissa) : em.roundedMantissa ≤ em.mantissa + 1 := by
  obtain ⟨m, r, s⟩ := em
  cases r <;> cases s <;>
    simp [ExtendedMantissa.roundedMantissa, ExtendedMantissa.accuracy, Accuracy.roundToNearestEven]
  omega

def shifted (m k : Nat) : Nat :=
  ((⟨m, false, false⟩ : ExtendedMantissa) >>> k).roundedMantissa

theorem div_le_shifted (m k : Nat) : m / 2 ^ k ≤ shifted m k := by
  have lower := le_roundedMantissa ((⟨m, false, false⟩ : ExtendedMantissa) >>> k)
  rwa [mantissa_shiftRight] at lower

/-- Rounding does not pass a whole number. -/
theorem shifted_le {m k b : Nat} (le : m ≤ b * 2 ^ k) : shifted m k ≤ b := by
  have upper := roundedMantissa_le ((⟨m, false, false⟩ : ExtendedMantissa) >>> k)
  rw [mantissa_shiftRight] at upper
  rcases Nat.lt_or_ge (m / 2 ^ k) b with below | reached
  · exact upper.trans below
  · have same : m = b * 2 ^ k :=
      le.antisymm ((Nat.le_div_iff_mul_le (Nat.two_pow_pos k)).1 reached)
    rw [shifted, same, shiftRight_mul]
    exact le_refl b

/-- A number moved to its target exponent fits a double. -/
theorem canonical_shift {m : Nat} {e : Int} (low : e ≤ target m e) :
    Canonical (m / 2 ^ (target m e - e).toNat) (target m e) := by
  have least : -1074 ≤ target m e := le_max_right _ _
  have reach : (m.log2 : Int) + e - 52 ≤ target m e := le_max_left _ _
  refine ⟨?_, least, fun above => ?_⟩
  · rw [Nat.div_lt_iff_lt_mul (Nat.two_pow_pos _), ← Nat.pow_add]
    exact Nat.lt_log2_self.trans_le (Nat.pow_le_pow_right (by decide) (by omega))
  · have exact_reach : target m e = m.log2 + e - 52 := by
      rw [target] at above ⊢
      omega
    have some : m ≠ 0 := by
      rintro rfl
      rw [Nat.log2_zero] at exact_reach
      omega
    rw [Nat.le_div_iff_mul_le (Nat.two_pow_pos _), ← Nat.pow_add]
    exact (Nat.pow_le_pow_right (by decide) (by omega)).trans (Nat.log2_self_le some)

/-- Rounding a mantissa does not take from its width. -/
theorem target_le_target {m r : Nat} {e : Int} (low : e ≤ target m e)
    (lower : m / 2 ^ (target m e - e).toNat ≤ r) : target m e ≤ target r (target m e) := by
  have held := canonical_shift low
  generalize target m e = t at held lower
  rcases held.least.eq_or_lt with least | above
  · exact least ▸ le_max_right _ _
  · have full := (held.full above).trans lower
    have wide : 52 ≤ r.log2 :=
      (Nat.le_log2 (Nat.ne_of_gt ((Nat.two_pow_pos 52).trans_le full))).2 full
    exact (by omega : t ≤ r.log2 + t - 52).trans (le_max_left _ _)

namespace Within

variable {b m : Nat} {e : Int}

theorem target_nonpos (within : Within b m e) (small : b < 2 ^ 53) : target m e ≤ 0 := by
  have nonpos := within.exponent
  have bounded : m < 2 ^ (53 + (-e).toNat) := by
    rw [Nat.pow_add]
    exact within.le.trans_lt (Nat.mul_lt_mul_of_pos_right small (Nat.two_pow_pos _))
  have width : m.log2 < 53 + (-e).toNat := by
    rcases Nat.eq_zero_or_pos m with rfl | some
    · rw [Nat.log2_zero]
      omega
    · exact (Nat.log2_lt (Nat.ne_of_gt some)).2 bounded
  rw [target]
  omega

/-- The bound of a number, seen from a greater exponent. -/
theorem le_mul (within : Within b m e) {k : Nat} {e' : Int} (nonpos : e' ≤ 0)
    (raised : e + k = e') : m ≤ b * 2 ^ (-e').toNat * 2 ^ k := by
  have split : (-e).toNat = (-e').toNat + k := by omega
  rw [Nat.mul_assoc, ← Nat.pow_add, ← split]
  exact within.le

theorem shifted (within : Within b m e) {k : Nat} {e' : Int} (nonpos : e' ≤ 0)
    (raised : e + k = e') : Within b (Double.shifted m k) e' :=
  ⟨nonpos, shifted_le (within.le_mul nonpos raised)⟩

theorem dropped (within : Within b m e) {k : Nat} {e' : Int} (nonpos : e' ≤ 0)
    (raised : e + k = e') : Within b (m / 2 ^ k) e' :=
  ⟨nonpos, Nat.div_le_of_le_mul (Nat.mul_comm _ _ ▸ within.le_mul nonpos raised)⟩

end Within

abbrev digitsOf (m : Nat) (acc : Accuracy) : ExtendedMantissa :=
  ExtendedMantissa.ofMantissaAndAccuracy m acc

theorem mantissa_digitsOf (m : Nat) (acc : Accuracy) : (digitsOf m acc).mantissa = m := by
  rcases acc with _ | order
  · rfl
  · cases order <;> rfl

/-- Moving a number to its target exponent. -/
theorem shiftToTargetExponent_eq {m : Nat} {e : Int} (acc : Accuracy) (low : e ≤ target m e) :
    shiftToTargetExponent Format.binary64 m e acc =
      (digitsOf m acc >>> (target m e - e).toNat, target m e) := by
  have reached : e + (target m e - e).toNat = target m e := by omega
  unfold shiftToTargetExponent
  rw [targetExponent_eq]
  exact congrArg (Prod.mk _) reached

/-- Rounding moves a number to its target exponent, rounds it and moves it once more, since rounding
may have widened it by a digit. -/
theorem roundWithAccuracy_eq (s : Sign) {m : Nat} {e : Int} (acc : Accuracy)
    (low : e ≤ target m e) :
    roundWithAccuracy Format.binary64 s m e acc =
      let t := target m e
      let r := (digitsOf m acc >>> (t - e).toNat).roundedMantissa
      let t' := target r t
      let m' := r / 2 ^ (t' - t).toNat
      if h : m' = 0 then .zero s else .finite s m' t' (Nat.pos_of_ne_zero h) := by
  have lower := le_roundedMantissa (digitsOf m acc >>> (target m e - e).toNat)
  rw [mantissa_shiftRight, mantissa_digitsOf] at lower
  unfold roundWithAccuracy
  rw [shiftToTargetExponent_eq acc low]
  change (match shiftToTargetExponent Format.binary64
      (digitsOf m acc >>> (target m e - e).toNat).roundedMantissa (target m e) .exact with
    | (em, e') => if h : em.mantissa = 0 then UnpackedFloat.zero s
        else .finite s em.mantissa e' (Nat.pos_of_ne_zero h)) = _
  rw [shiftToTargetExponent_eq .exact (target_le_target low lower)]
  simp only [mantissa_shiftRight, mantissa_digitsOf]

theorem roundWithAccuracy_exact (s : Sign) {m : Nat} {e : Int} (low : e ≤ target m e) :
    roundWithAccuracy Format.binary64 s m e .exact =
      let t := target m e
      let r := shifted m (t - e).toNat
      let t' := target r t
      let m' := r / 2 ^ (t' - t).toNat
      if h : m' = 0 then .zero s else .finite s m' t' (Nat.pos_of_ne_zero h) :=
  roundWithAccuracy_eq s .exact low

/-- A number with too many digits is rounded to a double of the same sign, and below `2 ^ 53` no
whole number is passed. -/
theorem roundWithAccuracy_spec (s : Sign) {m : Nat} {e : Int} (low : e ≤ target m e) :
    roundWithAccuracy Format.binary64 s m e .exact = .zero s ∨
      ∃ m' e' h, roundWithAccuracy Format.binary64 s m e .exact = .finite s m' e' h ∧
        Canonical m' e' ∧ ∀ b, b < 2 ^ 53 → Within b m e → Within b m' e' := by
  have low' := target_le_target low (div_le_shifted m (target m e - e).toNat)
  have held := canonical_shift low'
  rw [roundWithAccuracy_exact s low]
  dsimp only
  -- what is not above half the least double is rounded to zero
  split
  · exact .inl rfl
  · rename_i some
    refine .inr ⟨_, _, Nat.pos_of_ne_zero some, rfl, held, fun b small within => ?_⟩
    have rounded : Within b (shifted m (target m e - e).toNat) (target m e) :=
      within.shifted (within.target_nonpos small) (by omega)
    exact rounded.dropped (rounded.target_nonpos small) (by omega)

theorem unpackSign_packComponents (s : Sign) (e : BitVec 11) (m : BitVec 52) :
    unpackSign (packComponents Format.binary64 s e m) = s.toBitVec := by
  ext i inside
  obtain rfl : i = 0 := by omega
  simp only [unpackSign, packComponents, BitVec.extractLsb, BitVec.getElem_cast,
    BitVec.getElem_extractLsb']
  have upper := BitVec.getLsbD_append (i := 63) (x := s.toBitVec ++ e) (y := m)
  have top := BitVec.getLsbD_append (i := 11) (x := s.toBitVec) (y := e)
  exact upper.trans top

theorem ofBitVec_toBitVec (s : Sign) : Sign.ofBitVec s.toBitVec = s := by cases s <;> rfl

theorem ofNat_ne {w n k : Nat} (left : n < 2 ^ w) (right : k < 2 ^ w) (ne : n ≠ k) :
    BitVec.ofNat w n ≠ BitVec.ofNat w k := fun same => ne <| by
  have values := congrArg BitVec.toNat same
  rwa [BitVec.toNat_ofNat, BitVec.toNat_ofNat, Nat.mod_eq_of_lt left, Nat.mod_eq_of_lt right]
    at values

theorem unpack_pack_zero (s : Sign) : (pack (.zero s)).unpack = .zero s := by cases s <;> rfl

/-- A double is read back as it was stored. -/
theorem unpack_pack (s : Sign) {m : Nat} {e : Int} (h : 0 < m) (held : Canonical m e)
    (small : e ≤ 971) : (pack (.finite s m e h)).unpack = .finite s m e h := by
  obtain ⟨width, least, full⟩ := held
  have bias : (Format.binary64.exponentBias : Int) = 1023 := by decide
  have mantissaBits : Format.binary64.mantissaBits = 53 := by decide
  have fits : ¬ 2 ^ 11 ≤ (e + 1023 + (52 : Nat)).toNat + 1 := by omega
  change UnpackedFloat.unpack Format.binary64 (UnpackedFloat.pack Format.binary64 _) = _
  simp only [UnpackedFloat.pack, bias, mantissaBits, fits, ↓reduceIte]
  split
  · rename_i normal
    -- the stored exponent is neither that of the infinities nor that of the subnormal doubles
    have wide : 2 ^ 52 ≤ m := (Nat.le_log2 (Nat.ne_of_gt h)).1 (by omega)
    have stored : (BitVec.ofNat 11 (e + 1023 + (52 : Nat)).toNat).toNat = (e + 1075).toNat := by
      rw [BitVec.toNat_ofNat, Nat.mod_eq_of_lt (by omega)]
      omega
    have not_greatest : BitVec.ofNat 11 (e + 1023 + (52 : Nat)).toNat ≠ -1#11 :=
      ofNat_ne (k := 2047) (by omega) (by decide) (by omega)
    have not_least : BitVec.ofNat 11 (e + 1023 + (52 : Nat)).toNat ≠ 0#11 :=
      ofNat_ne (by omega) (by decide) (by omega)
    have mantissa : (1#1 ++ BitVec.ofNat 52 m).toNat = m := by
      rw [BitVec.toNat_append, ← Nat.shiftLeft_add_eq_or_of_lt (BitVec.isLt _), BitVec.toNat_ofNat]
      change 2 ^ 52 + m % 2 ^ 52 = m
      omega
    simp only [UnpackedFloat.unpack, unpackExponent_packComponents, unpackMantissa_packComponents,
      unpackSign_packComponents, ofBitVec_toBitVec, not_greatest, not_least, ↓reduceIte, bias,
      stored, mantissa, finite.injEq, true_and]
    omega
  · rename_i narrow
    have bounded : m < 2 ^ 52 := by
      have := (Nat.log2_lt (Nat.ne_of_gt h)).2 width
      exact (Nat.log2_lt (Nat.ne_of_gt h)).1 (by omega)
    have exponent : e = -1074 := by omega
    have some : BitVec.ofNat 52 m ≠ 0#52 := ofNat_ne bounded (by decide) (by omega)
    have mantissa : (BitVec.ofNat 52 m).toNat = m := by
      rw [BitVec.toNat_ofNat, Nat.mod_eq_of_lt bounded]
    have not_greatest : (0#11) ≠ -1#11 := by decide
    simp only [UnpackedFloat.unpack, unpackExponent_packComponents, unpackMantissa_packComponents,
      unpackSign_packComponents, ofBitVec_toBitVec, not_greatest, some, ↓reduceIte, ↓reduceDIte,
      bias, mantissa, finite.injEq, true_and, exponent]
    rfl

theorem Canonical.target_eq {m : Nat} {e : Int} (held : Canonical m e) (h : 0 < m) :
    target m e = e := by
  obtain ⟨width, least, full⟩ := held
  have narrow : m.log2 < 53 := (Nat.log2_lt (Nat.ne_of_gt h)).2 width
  rw [target]
  rcases least.eq_or_lt with rfl | above
  · omega
  · have wide : 52 ≤ m.log2 := (Nat.le_log2 (Nat.ne_of_gt h)).2 (full above)
    omega

/-- A number that a double can hold is rounded to itself. -/
theorem roundWithAccuracy_canonical (s : Sign) {m : Nat} {e : Int} (h : 0 < m)
    (held : Canonical m e) :
    roundWithAccuracy Format.binary64 s m e .exact = .finite s m e h := by
  have whole : shifted m (e - e).toNat = m := by rw [Int.sub_self]; rfl
  have same : m / 2 ^ (e - e).toNat = m := by rw [Int.sub_self]; exact Nat.div_one m
  rw [roundWithAccuracy_exact s (held.target_eq h).ge]
  simp only [held.target_eq h, whole, same]
  exact dif_neg (Nat.ne_of_gt h)

theorem log2_mul_two_pow {n : Nat} (some : 0 < n) (k : Nat) : (n * 2 ^ k).log2 = n.log2 + k := by
  have ne : n ≠ 0 := Nat.ne_of_gt some
  refine (Nat.log2_eq_iff (Nat.mul_ne_zero ne (Nat.two_pow_pos k).ne')).2 ⟨?_, ?_⟩
  · rw [Nat.pow_add]
    exact Nat.mul_le_mul_right _ (Nat.log2_self_le ne)
  · rw [Nat.add_right_comm, Nat.pow_add]
    exact Nat.mul_lt_mul_of_pos_right Nat.lt_log2_self (Nat.two_pow_pos k)

/-- By how many digits a counter falls short of full width. -/
def missing (n : Nat) : Nat := 52 - n.log2

theorem canonical_counter {n : Nat} (some : 0 < n) (small : n < 2 ^ 53) :
    Canonical (n * 2 ^ missing n) (-missing n) := by
  have narrow : n.log2 < 53 := (Nat.log2_lt (Nat.ne_of_gt some)).2 small
  have full : (n * 2 ^ missing n).log2 = 52 := by
    rw [log2_mul_two_pow some, missing]
    omega
  have ne : n * 2 ^ missing n ≠ 0 := Nat.mul_ne_zero (Nat.ne_of_gt some) (Nat.two_pow_pos _).ne'
  obtain ⟨wide, width⟩ := (Nat.log2_eq_iff ne).1 full
  exact ⟨width, by rw [missing]; omega, fun _ => wide⟩

/-- Counters below `2 ^ 53` are doubles. -/
theorem unpack_ofNat {n : Nat} (some : 0 < n) (small : n < 2 ^ 53) :
    (Scalar.ofNat n : Float).toModel.unpack =
      .finite .positive (n * 2 ^ missing n) (-missing n)
        (Nat.mul_pos some (Nat.two_pow_pos _)) := by
  have narrow : n.log2 < 53 := (Nat.log2_lt (Nat.ne_of_gt some)).2 small
  have counter : (UInt64.ofNat n).toNat = n := UInt64.toNat_ofNat_of_lt' (by
    change n < 2 ^ 64
    omega)
  have positive : compare (n : Int) 0 = .gt := Int.compare_eq_gt.2 (Int.natCast_pos.2 some)
  have goal_exponent : target n 0 = -missing n := by rw [target, missing]; omega
  have shift : ((0 : Int) - -missing n).toNat = missing n := by omega
  change (pack (UnpackedFloat.ofNat Format.binary64 (UInt64.ofNat n).toNat)).unpack = _
  rw [counter, UnpackedFloat.ofNat, UnpackedFloat.ofInt, UnpackedFloat.normalize, positive]
  change (pack (UnpackedFloat.round Format.binary64 .positive (n : Int).toNat 0)).unpack = _
  rw [Int.toNat_natCast, UnpackedFloat.round, targetExponent_eq, goal_exponent]
  simp only [decreaseExponent, shift, Nat.shiftLeft_eq]
  rw [Int.zero_sub, roundWithAccuracy_canonical .positive (Nat.mul_pos some (Nat.two_pow_pos _))
    (canonical_counter some small)]
  exact unpack_pack .positive _ (canonical_counter some small) (by omega)

theorem Within.mul {a b m m' : Nat} {e e' : Int} (left : Within a m e) (right : Within b m' e') :
    Within (a * b) (m * m') (e + e') := by
  have nonpos := left.exponent
  have nonpos' := right.exponent
  have split : (-(e + e')).toNat = (-e).toNat + (-e').toNat := by omega
  refine ⟨by omega, ?_⟩
  calc m * m' ≤ a * 2 ^ (-e).toNat * (b * 2 ^ (-e').toNat) := Nat.mul_le_mul left.le right.le
    _ = a * b * 2 ^ (-(e + e')).toNat := by rw [split, Nat.pow_add]; ring

/-- An exact product has too many digits for a double rather than too few. -/
theorem target_mul {m m' : Nat} {e e' : Int} (held : Canonical m e) (held' : Canonical m' e')
    (h : 0 < m) (h' : 0 < m') : e + e' ≤ target (m * m') (e + e') := by
  have wide (full : 2 ^ 52 ≤ m * m') : 52 ≤ (m * m').log2 :=
    (Nat.le_log2 (Nat.mul_pos h h').ne').2 full
  rw [target]
  rcases held.least.eq_or_lt with least | above
  · rcases held'.least.eq_or_lt with least' | above'
    · omega
    · have width := wide ((held'.full above').trans (Nat.le_mul_of_pos_left m' h))
      omega
  · have width := wide ((held.full above).trans (Nat.le_mul_of_pos_right m h'))
    omega

/-- A double that is no number, a zero, or a positive number that is not above `b`. -/
inductive UpTo (b : Nat) (x : Float) : Prop
  | undefined (eq : x.toModel.unpack = .notANumber)
  | zero (s : Sign) (eq : x.toModel.unpack = .zero s)
  | positive (m : Nat) (e : Int) (h : 0 < m) (eq : x.toModel.unpack = .finite .positive m e h)
      (within : Within b m e)

theorem canonical_unpack {x : Float} {s : Sign} {m : Nat} {e : Int} {h : 0 < m}
    (eq : x.toModel.unpack = .finite s m e h) : Canonical m e :=
  have ⟨_, _, width, least, full⟩ := unpack_finite eq
  ⟨width, least, full⟩

theorem toNat_ofNatClamp {n : Nat} (small : n < UInt64.size) :
    (UInt64.ofNatClamp n).toNat = n := by
  rw [UInt64.ofNatClamp, dif_pos small, UInt64.toNat_ofNatLT]

/-- The whole part of a positive double whose exponent is not positive. -/
theorem floor_positive {x : Float} {m : Nat} {e : Int} {h : 0 < m}
    (eq : x.toModel.unpack = .finite .positive m e h) (nonpos : e ≤ 0) :
    floor x = m / 2 ^ (-e).toNat := by
  have width := (canonical_unpack eq).width
  have unmoved : (e - 0).toNat = 0 := by omega
  have dropped : m / 2 ^ (-e).toNat < UInt64.size :=
    ((Nat.div_le_self _ _).trans_lt width).trans (by decide)
  change (x.toModel.unpack.toUInt64).toNat = _
  rw [eq]
  change (UInt64.ofNatClamp (roundToInt .positive m e).toNat).toNat = _
  have value : roundToInt .positive m e = (m / 2 ^ (-e).toNat : Nat) := by
    change (((⟨m <<< (e - 0).toNat, false, false⟩ : ExtendedMantissa) >>>
      (0 - (e - (e - 0).toNat)).toNat).mantissa : Int) = _
    rw [mantissa_shiftRight, unmoved, Nat.shiftLeft_zero, Int.natCast_zero, Int.sub_zero,
      Int.zero_sub]
  rw [value, Int.toNat_natCast, toNat_ofNatClamp dropped]

theorem floor_undefined {x : Float} (eq : x.toModel.unpack = .notANumber) : floor x = 0 := by
  change (x.toModel.unpack.toUInt64).toNat = 0
  rw [eq]
  rfl

theorem floor_zero {x : Float} {s : Sign} (eq : x.toModel.unpack = .zero s) : floor x = 0 := by
  change (x.toModel.unpack.toUInt64).toNat = 0
  rw [eq]
  rfl

/-- The least whole number that is not below a double, from the whole part. -/
theorem ceil_eq (x : Float) :
    ceil x = if (Scalar.ofNat (floor x) : Float) < x then floor x + 1 else floor x := by
  have counter : UInt64.ofNat (floor x) = x.toUInt64 := UInt64.ofNat_toNat
  change _ = if (UInt64.ofNat (floor x)).toFloat < x then _ else _
  rw [counter]
  rfl

/-- A double with the value of a counter is that counter. -/
theorem not_ofNat_lt {x : Float} {b m : Nat} {e : Int} {h : 0 < m}
    (eq : x.toModel.unpack = .finite .positive m e h) (nonpos : e ≤ 0)
    (some : 0 < b) (small : b < 2 ^ 53) (same : m = b * 2 ^ (-e).toNat) :
    ¬ (Scalar.ofNat b : Float) < x := by
  have narrow : b.log2 < 53 := (Nat.log2_lt (Nat.ne_of_gt some)).2 small
  have exponent : e = -missing b := by
    have fitting := (canonical_unpack eq).target_eq h
    rw [target, same, log2_mul_two_pow some] at fitting
    rw [missing]
    omega
  have mantissa : m = b * 2 ^ missing b := by rw [same, exponent, Int.neg_neg, Int.toNat_natCast]
  subst exponent mantissa
  rw [lt_iff_compare, unpack_ofNat some small, eq]
  simp [UnpackedFloat.compare]

namespace UpTo

variable {b : Nat} {x : Float}

theorem floor_le (upTo : UpTo b x) : floor x ≤ b := by
  cases upTo with
  | undefined eq => exact (floor_undefined eq).trans_le (Nat.zero_le b)
  | zero s eq => exact (floor_zero eq).trans_le (Nat.zero_le b)
  | positive m e h eq within =>
      rw [floor_positive eq within.exponent]
      exact Nat.div_le_of_le_mul (Nat.mul_comm _ _ ▸ within.le)

theorem ceil_le (upTo : UpTo b x) (some : 0 < b) (small : b < 2 ^ 53) : ceil x ≤ b := by
  have whole := upTo.floor_le
  rw [ceil_eq]
  rcases whole.lt_or_eq with below | reached
  · split <;> omega
  · rw [reached, if_neg]
    cases upTo with
    | undefined eq =>
        rw [floor_undefined eq] at reached
        omega
    | zero s eq =>
        rw [floor_zero eq] at reached
        omega
    | positive m e h eq within =>
        rw [floor_positive eq within.exponent] at reached
        have same : m = b * 2 ^ (-e).toNat :=
          within.le.antisymm ((Nat.le_div_iff_mul_le (Nat.two_pow_pos _)).1 reached.ge)
        exact not_ofNat_lt eq within.exponent some small same

/-- A counter is not above itself. -/
theorem ofNat {n : Nat} (some : 0 < n) (small : n < 2 ^ 53) : UpTo n (Scalar.ofNat n : Float) :=
  .positive _ _ _ (unpack_ofNat some small) ⟨by omega, by rw [Int.neg_neg, Int.toNat_natCast]⟩

/-- Bounds are multiplied with the numbers, as long as the product of the bounds is a double. -/
theorem mul {c d : Float} {a : Nat} (left : UpTo a c) (right : UpTo b d) (small : a * b < 2 ^ 53) :
    UpTo (a * b) (c * d) := by
  have product : (c * d).toModel.unpack = (pack (UnpackedFloat.mul Format.binary64
      c.toModel.unpack d.toModel.unpack)).unpack := rfl
  have undefined : (pack .notANumber).unpack = .notANumber := rfl
  cases left with
  | undefined eq =>
      rw [eq] at product
      exact .undefined (product.trans undefined)
  | zero s eq =>
      rw [eq] at product
      cases right with
      | undefined eq' =>
          rw [eq'] at product
          exact .undefined (product.trans undefined)
      | zero s' eq' =>
          rw [eq'] at product
          exact .zero _ (product.trans (unpack_pack_zero _))
      | positive m' e' h' eq' within' =>
          rw [eq'] at product
          exact .zero _ (product.trans (unpack_pack_zero _))
  | positive m e h eq within =>
      rw [eq] at product
      cases right with
      | undefined eq' =>
          rw [eq'] at product
          exact .undefined (product.trans undefined)
      | zero s' eq' =>
          rw [eq'] at product
          exact .zero _ (product.trans (unpack_pack_zero _))
      | positive m' e' h' eq' within' =>
          rw [eq'] at product
          have low := target_mul (canonical_unpack eq) (canonical_unpack eq') h h'
          have held : Within (a * b) (m * m') (e + e') := within.mul within'
          change _ = (pack (roundWithAccuracy Format.binary64 (.positive * .positive) (m * m')
            (e + e') .exact)).unpack at product
          rcases roundWithAccuracy_spec (.positive * .positive) low with rounded | rounded
          · rw [rounded] at product
            exact .zero _ (product.trans (unpack_pack_zero _))
          · obtain ⟨m'', e'', h'', rounded, canonical, kept⟩ := rounded
            have reached := kept _ small held
            rw [rounded, unpack_pack _ _ canonical (reached.exponent.trans (by decide))] at product
            exact .positive _ _ _ product reached

end UpTo

/-- A double that is not above the double of one is not above one. -/
theorem within_one {m : Nat} {e : Int} (held : Canonical m e)
    (most : ¬ some ((compare (-(52 : Nat) : Int) e).then (compare (2 ^ 52) m)) = some .lt) :
    Within 1 m e := by
  have width := held.width
  rw [Option.some_inj, Ordering.then_eq_lt, Int.compare_eq_lt, Int.compare_eq_eq,
    Nat.compare_eq_lt] at most
  refine ⟨by omega, ?_⟩
  rw [Nat.one_mul]
  by_cases one : e = -52
  · subst one
    change m ≤ 2 ^ 52
    omega
  · calc m ≤ 2 ^ 53 := width.le
      _ ≤ 2 ^ (-e).toNat := Nat.pow_le_pow_right (by decide) (by omega)

/-- A fraction that is no number stays so; every other one is moved between zero and one. -/
theorem upTo_clampUnit (q : Float) : UpTo 1 (BenchReport.Stats.clampUnit q) := by
  have one := unpack_ofNat (n := 1) (by decide) (by decide)
  unfold BenchReport.Stats.clampUnit
  split
  · exact .zero .positive rfl
  · rename_i least
    split
    · exact .ofNat (by decide) (by decide)
    · rename_i most
      have zero : (Scalar.ofNat 0 : Float).toModel.unpack = .zero .positive := rfl
      replace least : ¬ q < Scalar.ofNat 0 := fun lt => least (decide_eq_true lt)
      replace most : ¬ (Scalar.ofNat 1 : Float) < q := fun lt => most (decide_eq_true lt)
      rw [lt_iff_compare, zero] at least
      rw [lt_iff_compare, one] at most
      cases eq : q.toModel.unpack with
      | notANumber => exact .undefined eq
      | zero s => exact .zero s eq
      | infinity s =>
          rw [eq] at least most
          cases s
          · exact absurd rfl least
          · exact absurd rfl most
      | finite s m e h =>
          rw [eq] at least most
          cases s with
          | negative => exact absurd rfl least
          | positive =>
              exact .positive m e h eq (within_one (canonical_unpack eq) most)

end BenchReport.Double
