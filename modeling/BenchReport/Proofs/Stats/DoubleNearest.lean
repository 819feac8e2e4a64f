import BenchReport.Proofs.Stats.DoubleValues
set_option autoImplicit false

namespace BenchReport.Double

open Float.Model UnpackedFloat

/-- The whole number nearest to `w`, of two equally near ones the even one. -/
structure Nearest (r : Nat) (w : ℝ) : Prop where
  lower : (r : ℝ) - 1 / 2 ≤ w
  upper : w ≤ r + 1 / 2
  even : w = r - 1 / 2 ∨ w = r + 1 / 2 → r % 2 = 0

namespace Nearest

variable {r a : Nat} {w : ℝ}

theorem le (nearest : Nearest r w) (bound : w ≤ a) : r ≤ a := by
  have lower := nearest.lower
  have below : (r : ℝ) < a + 1 := by linarith
  exact Nat.lt_succ_iff.1 (by exact_mod_cast below)

theorem ge (nearest : Nearest r w) (bound : a ≤ w) : a ≤ r := by
  have upper := nearest.upper
  have below : (a : ℝ) < r + 1 := by linarith
  exact Nat.lt_succ_iff.1 (by exact_mod_cast below)

/-- Up to half a unit above an even number it is nearest. -/
theorem le_iff (nearest : Nearest r w) (even : a % 2 = 0) : r ≤ a ↔ w ≤ a + 1 / 2 := by
  constructor
  · intro le
    have le : (r : ℝ) ≤ a := by exact_mod_cast le
    linarith [nearest.upper]
  · intro bound
    by_contra above
    have next : (a : ℝ) + 1 ≤ r := by exact_mod_cast Nat.lt_of_not_le above
    have lower := nearest.lower
    -- only a tie is left, and it would have been given to the even number below
    have tie : r % 2 = 0 := nearest.even (.inl (by linarith))
    have same : (r : ℝ) = (a + 1 : Nat) := by push_cast; linarith
    have same : r = a + 1 := by exact_mod_cast same
    omega

end Nearest

/-- Half a unit, if the digit behind the mantissa says so. -/
noncomputable def half (em : ExtendedMantissa) : ℝ := if em.roundBit then ((2 : Nat) : ℝ)⁻¹ else 0

/-- The mantissa and the digit behind it are those of `w`, and it is known whether more follow. -/
structure Digits (em : ExtendedMantissa) (w : ℝ) : Prop where
  lower : (em.mantissa : ℝ) + half em ≤ w
  upper : w < em.mantissa + half em + 1 / 2
  exact_iff : em.stickyBit = false ↔ w = em.mantissa + half em

theorem half_nonneg (em : ExtendedMantissa) : 0 ≤ half em := by
  unfold half
  split <;> norm_num

theorem half_le (em : ExtendedMantissa) : half em ≤ 1 / 2 := by
  unfold half
  split <;> norm_num

namespace Digits

variable {em : ExtendedMantissa} {w : ℝ}

theorem mantissa_le (digits : Digits em w) : (em.mantissa : ℝ) ≤ w := by
  linarith [digits.lower, half_nonneg em]

theorem lt_mantissa (digits : Digits em w) : w < em.mantissa + 1 := by
  linarith [digits.upper, half_le em]

theorem shiftRightOne (digits : Digits em w) : Digits em.shiftRightOne (w / 2) := by
  have lower := digits.mantissa_le
  have upper := digits.lt_mantissa
  -- the digit that leaves the mantissa becomes the one behind it
  have digit : half em.shiftRightOne = ((em.mantissa % 2 : Nat) : ℝ) / 2 := by
    rcases Nat.mod_two_eq_zero_or_one em.mantissa with even | odd
    · simp [half, ExtendedMantissa.shiftRightOne, even]
    · simp [half, ExtendedMantissa.shiftRightOne, odd]
  have kept : ((em.mantissa / 2 : Nat) : ℝ) + half em.shiftRightOne = em.mantissa / 2 := by
    have parts : ((2 * (em.mantissa / 2) + em.mantissa % 2 : Nat) : ℝ) = em.mantissa := by
      rw [Nat.div_add_mod]
    push_cast at parts
    rw [digit]
    linarith
  have mantissa : em.shiftRightOne.mantissa = em.mantissa / 2 := rfl
  have sticky : em.shiftRightOne.stickyBit = (em.roundBit || em.stickyBit) := rfl
  constructor
  · rw [mantissa, kept]
    linarith
  · rw [mantissa, kept]
    linarith
  · rw [mantissa, kept, sticky, Bool.or_eq_false_iff]
    constructor
    · rintro ⟨none, exactly⟩
      have same := digits.exact_iff.1 exactly
      rw [same, half, none]
      simp
    · intro same
      have same : w = em.mantissa := by linarith
      have none : em.roundBit = false := by
        by_contra some
        have above := digits.lower
        rw [half, if_pos (by simpa using some)] at above
        linarith
      exact ⟨none, digits.exact_iff.2 (by rw [same, half, none]; simp)⟩

theorem shiftRight (digits : Digits em w) (k : Nat) : Digits (em >>> k) (w / 2 ^ k) := by
  induction k with
  | zero =>
      rw [pow_zero, div_one]
      exact digits
  | succ k ih =>
      rw [pow_succ, ← div_div]
      exact ih.shiftRightOne

theorem nearest (digits : Digits em w) : Nearest em.roundedMantissa w := by
  obtain ⟨lower, upper, exact_iff⟩ := digits
  obtain ⟨m, r, s⟩ := em
  cases r <;> cases s <;>
    simp only [half, ExtendedMantissa.roundedMantissa, ExtendedMantissa.accuracy,
      Accuracy.roundToNearestEven, Bool.false_eq_true, ↓reduceIte, true_iff, false_iff,
      reduceCtorEq] at lower upper exact_iff ⊢
  · exact ⟨by linarith, by linarith, by rintro (tie | tie) <;> linarith⟩
  · exact ⟨by linarith, by linarith, by rintro (tie | tie) <;> linarith⟩
  · rcases Nat.mod_two_eq_zero_or_one m with even | odd
    · rw [even, Nat.add_zero]
      exact ⟨by linarith, by linarith, fun _ => even⟩
    · rw [odd]
      exact ⟨by push_cast; linarith, by push_cast; linarith, fun _ => by omega⟩
  · refine ⟨by push_cast; linarith, by push_cast; linarith, ?_⟩
    push_cast
    rintro (tie | tie)
    · exact absurd (by linarith) exact_iff
    · linarith

end Digits

/-- The number `v` is rounded to the whole number `r` of units of `2 ^ t`, the units of a double of
its size. -/
structure Rounded (v : ℝ) (r : Nat) (t : Int) : Prop where
  least : -1074 ≤ t
  narrow : v < 2 ^ 53 * 2 ^ t
  wide : -1074 < t → 2 ^ 52 * 2 ^ t ≤ v
  nearest : Nearest r (v / 2 ^ t)

/-- A number in units that are finer by `n` digits. -/
theorem mul_finer (a n : Nat) (t : Int) :
    (a * 2 ^ (t + n) : ℝ) = ((a * 2 ^ n : Nat) : ℝ) * 2 ^ t := by
  rw [zpow_add₀ two_ne_zero, zpow_natCast]
  push_cast
  ring

/-- The greatest mantissa is not worth more than the least full one in greater units. -/
theorem full_le_full {k t : Int} (lower : k < t) : (2 ^ 53 * 2 ^ k : ℝ) ≤ 2 ^ 52 * 2 ^ t := by
  have doubled : (2 : ℝ) * 2 ^ k ≤ 2 ^ t := by
    rw [← zpow_one_add₀ two_ne_zero]
    exact zpow_le_zpow_right₀ one_le_two (by omega)
  linarith

namespace Rounded

variable {v : ℝ} {r a : Nat} {t k : Int}

theorem width (rounded : Rounded v r t) : r ≤ 2 ^ 53 := by
  refine rounded.nearest.le ((div_le_iff₀ (by positivity)).2 ?_)
  exact_mod_cast rounded.narrow.le

/-- Rounding does not pass a double from below. -/
theorem le (rounded : Rounded v r t) (width : a < 2 ^ 53) (least : -1074 ≤ k)
    (bound : v ≤ a * 2 ^ k) : (r * 2 ^ t : ℝ) ≤ a * 2 ^ k := by
  have low : t ≤ k := by
    by_contra above
    have wide := rounded.wide (by omega)
    have narrow : (a * 2 ^ k : ℝ) < 2 ^ 53 * 2 ^ k := by
      gcongr
      exact_mod_cast width
    linarith [full_le_full (not_le.1 above)]
  obtain ⟨n, rfl⟩ : ∃ n : Nat, k = t + n := ⟨(k - t).toNat, by omega⟩
  rw [mul_finer] at bound ⊢
  have whole : r ≤ a * 2 ^ n := rounded.nearest.le ((div_le_iff₀ (by positivity)).2 bound)
  gcongr

/-- Nor does it from above. -/
theorem ge (rounded : Rounded v r t) (width : a < 2 ^ 53) (least : -1074 ≤ k)
    (bound : a * 2 ^ k ≤ v) : (a * 2 ^ k : ℝ) ≤ r * 2 ^ t := by
  rcases le_or_gt t k with low | above
  · obtain ⟨n, rfl⟩ : ∃ n : Nat, k = t + n := ⟨(k - t).toNat, by omega⟩
    rw [mul_finer] at bound ⊢
    have whole : a * 2 ^ n ≤ r := rounded.nearest.ge ((le_div_iff₀ (by positivity)).2 bound)
    gcongr
  · have full : 2 ^ 52 ≤ r := by
      refine rounded.nearest.ge ((le_div_iff₀ (by positivity)).2 ?_)
      exact_mod_cast rounded.wide (by omega)
    calc (a * 2 ^ k : ℝ) ≤ 2 ^ 53 * 2 ^ k := by
          gcongr
          exact_mod_cast width.le
      _ ≤ 2 ^ 52 * 2 ^ t := full_le_full above
      _ ≤ r * 2 ^ t := by
          gcongr
          exact_mod_cast full

/-- What is rounded to an even double or below lies at most half a unit above it. -/
theorem le_iff (rounded : Rounded v r t) (even : a % 2 = 0) (full : 2 ^ 52 ≤ a)
    (width : a + 1 < 2 ^ 53) (least : -1074 ≤ k) :
    (r * 2 ^ t : ℝ) ≤ a * 2 ^ k ↔ v ≤ (a + 1 / 2) * 2 ^ k := by
  have unit : (0 : ℝ) < 2 ^ k := by positivity
  have full_real : (2 ^ 52 * 2 ^ k : ℝ) ≤ a * 2 ^ k := by
    gcongr
    exact_mod_cast full
  rcases lt_trichotomy t k with lower | rfl | higher
  · have small : v ≤ a * 2 ^ k := by
      linarith [rounded.narrow, full_le_full lower]
    have kept := rounded.le (by omega) least small
    constructor
    · intro _
      linarith
    · exact fun _ => kept
  · rw [mul_le_mul_iff_left₀ unit, Nat.cast_le, rounded.nearest.le_iff even, div_le_iff₀ unit]
  · have next : ((a + 1 : Nat) : ℝ) * 2 ^ k ≤ 2 ^ 53 * 2 ^ k := by
      gcongr
      exact_mod_cast width.le
    have large := rounded.wide (by omega)
    have above := rounded.ge width least (next.trans ((full_le_full higher).trans large))
    push_cast at next above
    constructor
    · intro kept
      linarith
    · intro kept
      linarith [full_le_full higher]

end Rounded

/-- Digits that are enough for a double, moved to its units and rounded. -/
theorem rounded_of_digits {m : Nat} {e : Int} {acc : Accuracy} {v : ℝ} (low : e ≤ target m e)
    (digits : Digits (digitsOf m acc) (v / 2 ^ e)) :
    Rounded v (digitsOf m acc >>> (target m e - e).toNat).roundedMantissa (target m e) := by
  have lower := digits.mantissa_le
  have upper := digits.lt_mantissa
  rw [mantissa_digitsOf, le_div_iff₀ (by positivity)] at lower
  rw [mantissa_digitsOf, div_lt_iff₀ (by positivity)] at upper
  have reach : (m.log2 : Int) + e - 52 ≤ target m e := le_max_left _ _
  constructor
  case least => exact le_max_right _ _
  case narrow =>
    have bounded : ((m : ℝ) + 1) ≤ 2 ^ (m.log2 + 1) := by
      exact_mod_cast Nat.lt_log2_self
    calc v < (m + 1) * 2 ^ e := upper
      _ ≤ 2 ^ (m.log2 + 1) * 2 ^ e := by gcongr
      _ = 2 ^ ((m.log2 + 1 : Nat) + e : Int) := by rw [zpow_add₀ two_ne_zero, zpow_natCast]
      _ ≤ 2 ^ (53 + target m e) := zpow_le_zpow_right₀ one_le_two (by push_cast; omega)
      _ = 2 ^ 53 * 2 ^ target m e := by rw [zpow_add₀ two_ne_zero]; rfl
  case wide =>
    intro above
    have exact_reach : target m e = m.log2 + e - 52 := by
      rw [target] at above ⊢
      omega
    have some : m ≠ 0 := by
      rintro rfl
      rw [Nat.log2_zero] at exact_reach
      omega
    have bounded : (2 ^ m.log2 : ℝ) ≤ m := by
      exact_mod_cast Nat.log2_self_le some
    calc (2 ^ 52 * 2 ^ target m e : ℝ) = 2 ^ (52 + target m e) := by
          rw [zpow_add₀ two_ne_zero]; rfl
      _ = 2 ^ ((m.log2 : Nat) + e : Int) := by rw [exact_reach]; congr 1; ring
      _ = 2 ^ m.log2 * 2 ^ e := by rw [zpow_add₀ two_ne_zero, zpow_natCast]
      _ ≤ m * 2 ^ e := by gcongr
      _ ≤ v := lower
  case nearest =>
    have raised : (2 ^ target m e : ℝ) = 2 ^ e * 2 ^ (target m e - e).toNat := by
      rw [← zpow_natCast, ← zpow_add₀ two_ne_zero]
      congr 1
      omega
    rw [raised, ← div_div]
    exact (digits.shiftRight _).nearest

/-- A mantissa that was widened by rounding is a power of two, and is moved without a loss. -/
theorem Rounded.settled {v : ℝ} {r : Nat} {t : Int} (rounded : Rounded v r t)
    (low : t ≤ target r t) :
    ((r / 2 ^ (target r t - t).toNat : Nat) : ℝ) * 2 ^ target r t = r * 2 ^ t := by
  have least := rounded.least
  rcases rounded.width.lt_or_eq with narrow | rfl
  · have same : target r t = t := by
      have width : r.log2 ≤ 52 := by
        rcases Nat.eq_zero_or_pos r with rfl | some
        · rw [Nat.log2_zero]
          omega
        · exact Nat.lt_succ_iff.1 ((Nat.log2_lt (Nat.ne_of_gt some)).2 narrow)
      rw [target] at low ⊢
      omega
    rw [same, Int.sub_self, Int.toNat_zero, pow_zero, Nat.div_one]
  · have raised : target (2 ^ 53) t = t + 1 := by
      rw [target, Nat.log2_two_pow]
      omega
    rw [raised, add_sub_cancel_left, zpow_add_one₀ two_ne_zero]
    norm_num
    ring

/-- What rounding makes of digits: the nearest number that has the width of a double. -/
theorem roundWithAccuracy_rounded (s : Sign) {m : Nat} {e : Int} {acc : Accuracy} {v : ℝ}
    (low : e ≤ target m e) (digits : Digits (digitsOf m acc) (v / 2 ^ e)) :
    ∃ r t, Rounded v r t ∧
      ((r = 0 ∧ roundWithAccuracy Format.binary64 s m e acc = .zero s) ∨
        ∃ m' e' h, roundWithAccuracy Format.binary64 s m e acc = .finite s m' e' h ∧
          Canonical m' e' ∧ (m' * 2 ^ e' : ℝ) = r * 2 ^ t) := by
  have rounded := rounded_of_digits low digits
  have lower := le_roundedMantissa (digitsOf m acc >>> (target m e - e).toNat)
  rw [mantissa_shiftRight, mantissa_digitsOf] at lower
  have low' := target_le_target low lower
  have settled := rounded.settled low'
  have held := canonical_shift low'
  refine ⟨_, _, rounded, ?_⟩
  rw [roundWithAccuracy_eq s acc low]
  dsimp only
  split
  · rename_i none
    rw [none, Nat.cast_zero, zero_mul, eq_comm, mul_eq_zero] at settled
    have zero := settled.resolve_right (by positivity)
    exact .inl ⟨by exact_mod_cast zero, rfl⟩
  · rename_i some
    exact .inr ⟨_, _, Nat.pos_of_ne_zero some, rfl, held, settled⟩

end BenchReport.Double
