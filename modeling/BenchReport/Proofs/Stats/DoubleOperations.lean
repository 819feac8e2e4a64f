import BenchReport.Proofs.Stats.DoubleNearest
set_option autoImplicit false

namespace BenchReport.Double

open Float.Model UnpackedFloat

/-- A number beyond all doubles is stored as an infinity. -/
theorem unpack_pack_beyond (s : Sign) {m : Nat} {e : Int} (h : 0 < m) (large : 971 < e) :
    (pack (.finite s m e h)).unpack = .infinity s := by
  have bias : (Format.binary64.exponentBias : Int) = 1023 := by decide
  have beyond : 2 ^ 11 ≤ (e + 1023 + (52 : Nat)).toNat + 1 := by omega
  have stored : UnpackedFloat.pack Format.binary64 (.finite s m e h) =
      packedInfinity Format.binary64 s := by
    simp only [UnpackedFloat.pack, bias, beyond, ↓reduceIte]
  change UnpackedFloat.unpack Format.binary64 (UnpackedFloat.pack Format.binary64 _) = _
  rw [stored]
  cases s <;> rfl

/-- The greatest exponent of a double. -/
theorem exponent_le {x : Float} {s : Sign} {m : Nat} {e : Int} {h : 0 < m}
    (eq : x.toModel.unpack = .finite s m e h) : e ≤ 971 := by
  obtain ⟨bits, unpacked⟩ : ∃ bits : BitVec Format.binary64.numBits,
      UnpackedFloat.unpack Format.binary64 bits = .finite s m e h := ⟨_, eq⟩
  have bias : (Format.binary64.exponentBias : Int) = 1023 := by decide
  have width : (unpackExponent bits).toNat < 2 ^ 11 := BitVec.isLt _
  simp only [UnpackedFloat.unpack] at unpacked
  split at unpacked
  · split at unpacked <;> cases unpacked
  · rename_i reserved
    have below : (unpackExponent bits).toNat ≠ 2047 := fun same =>
      reserved (BitVec.eq_of_toNat_eq same)
    split at unpacked
    · rename_i least
      split at unpacked
      · cases unpacked
      · simp only [finite.injEq, bias] at unpacked
        have zero : (unpackExponent bits).toNat = 0 := congrArg BitVec.toNat least
        omega
    · simp only [finite.injEq, bias] at unpacked
      omega

theorem unpack_isFinite {x : Float} (finite : x.isFinite = true) :
    (∃ s, x.toModel.unpack = .zero s) ∨ ∃ s m e h, x.toModel.unpack = .finite s m e h := by
  change x.toModel.unpack.isFinite = true at finite
  cases eq : x.toModel.unpack with
  | notANumber =>
      rw [eq] at finite
      cases finite
  | infinity s =>
      rw [eq] at finite
      cases finite
  | zero s => exact .inl ⟨s, rfl⟩
  | finite s m e h => exact .inr ⟨s, m, e, h, rfl⟩

theorem isFinite_iff {x : Float} : x.isFinite = true ↔ ∃ u, exactly x = .real u := by
  change Scalar.isFinite x = true ↔ _
  rw [← isFinite_exactly]
  cases exactly x <;> simp [Scalar.isFinite]

theorem exactly_zero {x : Float} {s : Sign} (eq : x.toModel.unpack = .zero s) :
    exactly x = .real 0 := by
  rw [exactly, eq]

/-- The sign and the size of a double that is not zero. -/
theorem exactly_finite {x : Float} {s : Sign} {m : Nat} {e : Int} {h : 0 < m}
    (eq : x.toModel.unpack = .finite s m e h) :
    exactly x = .real (s.apply 1 * (m * 2 ^ e)) := by
  rw [exactly, eq]
  cases s <;> simp [Sign.apply]

theorem abs_apply (s : Sign) {v : ℝ} (nonneg : 0 ≤ v) : |s.apply 1 * v| = v := by
  cases s <;> simp [Sign.apply, abs_of_nonneg nonneg]

/-- What a double is that stands for a real number. -/
theorem exactly_cases {x : Float} {u : ℝ} (eq : exactly x = .real u) :
    (∃ s, x.toModel.unpack = .zero s ∧ u = 0) ∨
      ∃ s m e h, x.toModel.unpack = .finite s m e h ∧ |u| = m * 2 ^ e := by
  rcases unpack_isFinite (isFinite_iff.2 ⟨u, eq⟩) with ⟨s, zero⟩ | ⟨s, m, e, h, finite⟩
  · rw [exactly_zero zero] at eq
    exact .inl ⟨s, zero, (Extended.real.inj eq).symm⟩
  · rw [exactly_finite finite] at eq
    exact .inr ⟨s, m, e, h, finite, by rw [← Extended.real.inj eq, abs_apply s (by positivity)]⟩

theorem two_pow_mul_zpow (n : Nat) (k : Int) : (2 ^ n * 2 ^ k : ℝ) = 2 ^ (n + k) := by
  rw [zpow_add₀ two_ne_zero, zpow_natCast]

/-- All doubles are below `2 ^ 1024`. -/
theorem lt_beyond {a : Nat} {k : Int} (width : a < 2 ^ 53) (greatest : k ≤ 971) :
    (a * 2 ^ k : ℝ) < 2 ^ (1024 : Int) := by
  have width : (a : ℝ) < 2 ^ 53 := by exact_mod_cast width
  calc (a * 2 ^ k : ℝ) < 2 ^ 53 * 2 ^ k := by gcongr
    _ ≤ 2 ^ 53 * 2 ^ (971 : Int) := by gcongr; exact one_le_two
    _ = 2 ^ (1024 : Int) := two_pow_mul_zpow 53 971

/-- A double of the sign `s`, or zero, nearest to the size `v`; infinite if the size is beyond all
doubles. -/
inductive IsNearest (s : Sign) (v : ℝ) (x : Float) : Prop
  | finite (r : Nat) (t : Int) (rounded : Rounded v r t)
      (small : (r * 2 ^ t : ℝ) < 2 ^ (1024 : Int)) (eq : exactly x = .real (s.apply 1 * (r * 2 ^ t)))
  | infinite (r : Nat) (t : Int) (rounded : Rounded v r t)
      (large : (2 ^ (1024 : Int) : ℝ) ≤ r * 2 ^ t) (eq : x.isFinite = false)

/-- What is rounded and stored is the nearest double. -/
theorem isNearest_of_model {x : Float} {s : Sign} {m : Nat} {e : Int} {acc : Accuracy} {v : ℝ}
    (made : x.toModel = pack (roundWithAccuracy Format.binary64 s m e acc))
    (low : e ≤ target m e) (digits : Digits (digitsOf m acc) (v / 2 ^ e)) : IsNearest s v x := by
  obtain ⟨r, t, rounded, outcome⟩ := roundWithAccuracy_rounded s low digits
  have stored := congrArg Float.Model.unpack made
  rcases outcome with ⟨rfl, eq⟩ | ⟨m', e', h, eq, held, same⟩ <;> rw [eq] at stored
  · refine .finite 0 t rounded (by simp) ?_
    rw [exactly_zero (stored.trans (unpack_pack_zero s)), Nat.cast_zero, zero_mul, mul_zero]
  · rcases le_or_gt e' 971 with low | beyond
    · rw [unpack_pack s h held low] at stored
      exact .finite r t rounded (same.symm.trans_lt (lt_beyond held.width low))
        (by rw [exactly_finite stored, same])
    · rw [unpack_pack_beyond s h beyond] at stored
      have full : (2 ^ 52 : ℝ) ≤ m' := by exact_mod_cast held.full (by omega)
      refine .infinite r t rounded ?_ ?_
      · calc (2 ^ (1024 : Int) : ℝ) = 2 ^ 52 * 2 ^ (972 : Int) :=
            (two_pow_mul_zpow 52 972).symm
          _ ≤ m' * 2 ^ e' := by gcongr; exacts [one_le_two, beyond]
          _ = r * 2 ^ t := same
      · change x.toModel.unpack.isFinite = false
        rw [stored]
        rfl

namespace IsNearest

variable {s : Sign} {v : ℝ} {x : Float} {a : Nat} {k : Int}

/-- What does not pass a double does not pass it after rounding either, and is finite. -/
theorem bounded (nearest : IsNearest s v x) (width : a < 2 ^ 53) (least : -1074 ≤ k)
    (greatest : k ≤ 971) (bound : v ≤ a * 2 ^ k) :
    ∃ u, exactly x = .real (s.apply 1 * u) ∧ 0 ≤ u ∧ u ≤ a * 2 ^ k := by
  cases nearest with
  | finite r t rounded small eq =>
      exact ⟨r * 2 ^ t, eq, by positivity, rounded.le width least bound⟩
  | infinite r t rounded large eq =>
      have kept := rounded.le width least bound
      linarith [lt_beyond width greatest]

theorem isFinite (nearest : IsNearest s v x) (width : a < 2 ^ 53) (least : -1074 ≤ k)
    (greatest : k ≤ 971) (bound : v ≤ a * 2 ^ k) : x.isFinite = true :=
  have ⟨_, eq, _⟩ := nearest.bounded width least greatest bound
  isFinite_iff.2 ⟨_, eq⟩

/-- A size beyond all doubles is not rounded to one of them. -/
theorem not_finite (nearest : IsNearest s v x) (beyond : (2 ^ (1024 : Int) : ℝ) ≤ v) :
    x.isFinite = false := by
  cases nearest with
  | finite r t rounded small eq =>
      have full : ((2 ^ 52 : Nat) * 2 ^ (972 : Int) : ℝ) = 2 ^ (1024 : Int) := by
        rw [Nat.cast_pow]
        exact two_pow_mul_zpow 52 972
      have kept := rounded.ge (by decide) (by decide) (full.trans_le beyond)
      linarith
  | infinite r t rounded large eq => exact eq

/-- A size is rounded to an even double or below up to half a unit above it. -/
theorem le_iff (nearest : IsNearest s v x) (even : a % 2 = 0) (full : 2 ^ 52 ≤ a)
    (width : a + 1 < 2 ^ 53) (least : -1074 ≤ k) (greatest : k ≤ 971) :
    (∃ u, exactly x = .real u ∧ |u| ≤ a * 2 ^ k) ↔ v ≤ (a + 1 / 2) * 2 ^ k := by
  cases nearest with
  | finite r t rounded small eq =>
      have size := abs_apply s (v := r * 2 ^ t) (by positivity)
      rw [← rounded.le_iff even full width least, eq]
      constructor
      · rintro ⟨u, same, le⟩
        rwa [← Extended.real.inj same, size] at le
      · exact fun le => ⟨_, rfl, size.trans_le le⟩
  | infinite r t rounded large eq =>
      rw [← rounded.le_iff even full width least]
      constructor
      · rintro ⟨u, finite, -⟩
        rw [isFinite_iff.2 ⟨u, finite⟩] at eq
        cases eq
      · intro le
        linarith [lt_beyond (a := a) (by omega) greatest]

end IsNearest

theorem digits_exact (n : Nat) : Digits (digitsOf n .exact) n :=
  ⟨by simp [half, ExtendedMantissa.ofMantissaAndAccuracy],
    by simp [half, ExtendedMantissa.ofMantissaAndAccuracy],
    by simp [half, ExtendedMantissa.ofMantissaAndAccuracy]⟩

/-- The whole part of a quotient, with what the remainder says about the digits behind it. -/
theorem digits_fraction (n : Nat) {r d : Nat} (small : r < d) :
    Digits (digitsOf n (accuracyOfFraction r d)) (n + r / d) := by
  have some : (0 : ℝ) < d := by exact_mod_cast (by omega : 0 < d)
  have below : (r / d : ℝ) < 1 := (div_lt_one some).2 (by exact_mod_cast small)
  rw [accuracyOfFraction]
  split
  · rename_i none
    rw [none, Nat.cast_zero, zero_div, add_zero]
    exact digits_exact n
  · rename_i rest
    have rest : (0 : ℝ) < r / d := div_pos (by exact_mod_cast Nat.pos_of_ne_zero rest) some
    cases order : compare (2 * r) d with
    | lt =>
        have lt : (r / d : ℝ) < 1 / 2 := by
          rw [div_lt_iff₀ some]
          have lt : (2 * r : ℝ) < d := by exact_mod_cast Nat.compare_eq_lt.1 order
          linarith
        refine ⟨?_, ?_, ?_⟩ <;>
          simp only [half, ExtendedMantissa.ofMantissaAndAccuracy, Bool.false_eq_true, ↓reduceIte,
            add_zero, reduceCtorEq, false_iff]
        · linarith
        · linarith
        · exact fun same => absurd same (by linarith)
    | eq =>
        have eq : (r / d : ℝ) = 1 / 2 := by
          rw [div_eq_iff some.ne']
          have eq : (2 * r : ℝ) = d := by exact_mod_cast Nat.compare_eq_eq.1 order
          linarith
        rw [eq]
        refine ⟨?_, ?_, ?_⟩ <;> simp [half, ExtendedMantissa.ofMantissaAndAccuracy]
    | gt =>
        have gt : (1 / 2 : ℝ) < r / d := by
          rw [lt_div_iff₀ some]
          have gt : (d : ℝ) < 2 * r := by exact_mod_cast Nat.compare_eq_gt.1 order
          linarith
        refine ⟨?_, ?_, ?_⟩ <;>
          simp only [half, ExtendedMantissa.ofMantissaAndAccuracy, ↓reduceIte, reduceCtorEq,
            false_iff]
        · linarith
        · linarith
        · exact fun same => absurd same (by linarith)

section Operations

variable {x y : Float} {s s' : Sign} {m m' : Nat} {e e' : Int} {h : 0 < m} {h' : 0 < m'}

theorem isNearest_mul (left : x.toModel.unpack = .finite s m e h)
    (right : y.toModel.unpack = .finite s' m' e' h') :
    IsNearest (s * s') (m * 2 ^ e * (m' * 2 ^ e')) (x * y) := by
  have made : (x * y).toModel =
      pack (roundWithAccuracy Format.binary64 (s * s') (m * m') (e + e') .exact) := by
    change pack (UnpackedFloat.mul _ x.toModel.unpack y.toModel.unpack) = _
    rw [left, right]
    rfl
  have size : (m * 2 ^ e * (m' * 2 ^ e') / 2 ^ (e + e') : ℝ) = (m * m' : Nat) := by
    rw [zpow_add₀ two_ne_zero]
    push_cast
    field_simp
  refine isNearest_of_model made (target_mul (canonical_unpack left) (canonical_unpack right) h h')
    ?_
  rw [size]
  exact digits_exact _

theorem isNearest_div (left : x.toModel.unpack = .finite s m e h)
    (right : y.toModel.unpack = .finite s' m' e' h') :
    IsNearest (s / s') (m * 2 ^ e / (m' * 2 ^ e')) (x / y) := by
  -- the dividend is widened by `k` digits, to the exponent `t`
  let reach : Int := m.log2 - m'.log2 + (e - e') - 53
  let t : Int := min (e - e') (max reach (-1074))
  let k : Nat := (e - e' - t).toNat
  have raised : t + k = e - e' := by omega
  have made : (x / y).toModel =
      pack (roundWithAccuracy Format.binary64 (s / s') (m * 2 ^ k / m') t
        (accuracyOfFraction (m * 2 ^ k % m') m')) := by
    have wanted : Format.binary64.targetExponent (totalExponent m e - totalExponent m' e') =
        max reach (-1074) := by
      have width : Format.binary64.mantissaBits = 53 := by decide
      have least : Format.binary64.minExponent = -1074 := by decide
      rw [Format.targetExponent, totalExponent, totalExponent, width, least]
      omega
    change pack (UnpackedFloat.div _ x.toModel.unpack y.toModel.unpack) = _
    rw [left, right]
    simp only [UnpackedFloat.div, divCore, wanted, Nat.shiftLeft_eq]
    rfl
  have low : t ≤ target (m * 2 ^ k / m') t := by
    rw [target]
    rcases le_or_gt t (-1074) with least | above
    · omega
    · have full : 2 ^ 52 ≤ m * 2 ^ k / m' := by
        rw [Nat.le_div_iff_mul_le h']
        calc 2 ^ 52 * m' ≤ 2 ^ 52 * 2 ^ (m'.log2 + 1) := by gcongr; exact Nat.lt_log2_self.le
          _ ≤ 2 ^ m.log2 * 2 ^ k := by
              rw [← pow_add, ← pow_add]
              exact Nat.pow_le_pow_right (by decide) (by omega)
          _ ≤ m * 2 ^ k := by gcongr; exact Nat.log2_self_le (Nat.ne_of_gt h)
      have wide := (Nat.le_log2 (Nat.ne_of_gt ((Nat.two_pow_pos 52).trans_le full))).2 full
      omega
  have size : (m * 2 ^ e / (m' * 2 ^ e') / 2 ^ t : ℝ) =
      (m * 2 ^ k / m' : Nat) + (m * 2 ^ k % m' : Nat) / m' := by
    have some : (m' : ℝ) ≠ 0 := by exact_mod_cast (Nat.ne_of_gt h')
    have parts : ((m' * (m * 2 ^ k / m') + m * 2 ^ k % m' : Nat) : ℝ) = (m * 2 ^ k : Nat) := by
      rw [Nat.div_add_mod]
    have exponent : (2 ^ e : ℝ) = 2 ^ k * 2 ^ t * 2 ^ e' := by
      rw [two_pow_mul_zpow, ← zpow_add₀ two_ne_zero]
      congr 1
      omega
    push_cast at parts
    rw [exponent]
    field_simp
    linarith
  refine isNearest_of_model made low ?_
  rw [size]
  exact digits_fraction _ (Nat.mod_lt _ h')

/-- A number is widened before it is rounded, if it has too few digits. -/
theorem isNearest_round (made : x.toModel = pack (UnpackedFloat.round Format.binary64 s m e))
    (h : 0 < m) : IsNearest s (m * 2 ^ e) x := by
  let k : Nat := (e - target m e).toNat
  have widened : target (m * 2 ^ k) (e - k) = target m e := by
    rw [target, target, log2_mul_two_pow h]
    omega
  have low : e - k ≤ target (m * 2 ^ k) (e - k) := by
    rw [widened]
    omega
  have size : (m * 2 ^ e / 2 ^ (e - k) : ℝ) = (m * 2 ^ k : Nat) := by
    rw [div_eq_iff (by positivity), ← mul_finer, sub_add_cancel]
  simp only [UnpackedFloat.round, targetExponent_eq, decreaseExponent, Nat.shiftLeft_eq] at made
  refine isNearest_of_model made low ?_
  rw [size]
  exact digits_exact _

theorem normalize_positive (e : Int) (h : 0 < m) :
    UnpackedFloat.normalize Format.binary64 m e .positive =
      UnpackedFloat.round Format.binary64 .positive m e := by
  have positive : compare (m : Int) 0 = .gt := Int.compare_eq_gt.2 (by exact_mod_cast h)
  rw [UnpackedFloat.normalize, positive]
  rfl

theorem isNearest_add (left : x.toModel.unpack = .finite .positive m e h)
    (right : y.toModel.unpack = .finite .positive m' e' h') :
    IsNearest .positive (m * 2 ^ e + m' * 2 ^ e') (x + y) := by
  let t : Int := min e e'
  let k : Nat := (e - t).toNat
  let k' : Nat := (e' - t).toNat
  have exponent : e = t + k := by omega
  have exponent' : e' = t + k' := by omega
  have some : 0 < m * 2 ^ k + m' * 2 ^ k' := by positivity
  have made : (x + y).toModel =
      pack (UnpackedFloat.round Format.binary64 .positive (m * 2 ^ k + m' * 2 ^ k') t) := by
    rw [← normalize_positive t some]
    change pack (UnpackedFloat.add _ x.toModel.unpack y.toModel.unpack) = _
    rw [left, right]
    simp only [UnpackedFloat.add, decreaseExponent, Nat.shiftLeft_eq, Sign.apply]
    rfl
  have size : (m * 2 ^ e + m' * 2 ^ e' : ℝ) = (m * 2 ^ k + m' * 2 ^ k' : Nat) * 2 ^ t := by
    rw [exponent, exponent', mul_finer, mul_finer]
    push_cast
    ring
  rw [size]
  exact isNearest_round made some

end Operations

theorem isNearest_ofCount {n : UInt64} (some : 0 < n.toNat) :
    IsNearest .positive n.toNat (ofCount n) := by
  have made : (ofCount n).toModel =
      pack (UnpackedFloat.round Format.binary64 .positive n.toNat 0) := by
    rw [← normalize_positive 0 some]
    rfl
  have nearest := isNearest_round made some
  rwa [zpow_zero, mul_one] at nearest

/-- The double of a counter is not negative, and not above `2 ^ 64`. -/
theorem exactly_ofCount (n : UInt64) :
    ∃ v, exactly (ofCount n) = .real v ∧ 0 ≤ v ∧ v ≤ 2 ^ 64 := by
  rcases Nat.eq_zero_or_pos n.toNat with zero | some
  · obtain rfl : n = 0 := UInt64.toNat.inj zero
    exact ⟨0, exactly_zero (s := .positive) rfl, le_refl 0, by positivity⟩
  · have bound : (n.toNat : ℝ) ≤ (1 : Nat) * 2 ^ (64 : Int) := by
      rw [Nat.cast_one, one_mul]
      exact_mod_cast n.toNat_lt.le
    obtain ⟨u, eq, nonneg, le⟩ := (isNearest_ofCount some).bounded (by decide) (by decide)
      (by decide) bound
    refine ⟨u, by simpa [Sign.apply] using eq, nonneg, ?_⟩
    rwa [Nat.cast_one, one_mul] at le

end BenchReport.Double
