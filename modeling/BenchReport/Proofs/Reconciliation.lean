import BenchReport.Proofs.Counters
set_option autoImplicit false

namespace BenchReport.Bins

open Counter (total total_nil total_cons toNat_le_total)

theorem toNat_min (m n : UInt64) : (min m n).toNat = min m.toNat n.toNat := by
  rw [Nat.min_def, show min m n = if m ≤ n then m else n from rfl]
  simp only [UInt64.le_iff_toNat_le]
  split <;> rfl

/-- Taking the lesser of an amount and a bin from either of them cannot wrap. -/
theorem toNat_sub_min_left (m n : UInt64) : (m - min m n).toNat = m.toNat - n.toNat := by
  rw [UInt64.toNat_sub_of_le _ _ (by rw [UInt64.le_iff_toNat_le, toNat_min]; omega), toNat_min]
  omega

theorem toNat_sub_min_right (m n : UInt64) : (n - min m n).toNat = n.toNat - m.toNat := by
  rw [UInt64.toNat_sub_of_le _ _ (by rw [UInt64.le_iff_toNat_le, toNat_min]; omega), toNat_min]
  omega

theorem takeShares_length (share carry : UInt64) (bins : List UInt64) :
    (takeShares share carry bins).1.length = bins.length := by
  induction bins generalizing carry with
  | nil => rfl
  | cons bin rest ih => simp only [takeShares, List.length_cons, ih]

theorem takeShares_le (share carry : UInt64) (bins : List UInt64) :
    List.Forall₂ (· ≤ ·) (takeShares share carry bins).1 bins := by
  induction bins generalizing carry with
  | nil => exact .nil
  | cons bin rest ih =>
      refine .cons ?_ (ih _)
      rw [UInt64.le_iff_toNat_le, toNat_sub_min_right]
      omega

/-- A walk over bins in two parts: the second starts with what the first carries past its end. -/
theorem takeShares_append (share carry : UInt64) (front back : List UInt64) :
    takeShares share carry (front ++ back) =
      ((takeShares share carry front).1 ++
          (takeShares share (takeShares share carry front).2 back).1,
        (takeShares share (takeShares share carry front).2 back).2) := by
  induction front generalizing carry with
  | nil => rfl
  | cons bin rest ih => simp only [List.cons_append, takeShares, ih]

/-- Nothing is carried that was not asked for before. -/
theorem takeShares_carry_le (share carry : UInt64) (bins : List UInt64)
    (fits : share.toNat * bins.length + carry.toNat < 2 ^ 64) :
    (takeShares share carry bins).2.toNat ≤ share.toNat * bins.length + carry.toNat := by
  induction bins generalizing carry with
  | nil => simp [takeShares]
  | cons bin rest ih =>
      simp only [List.length_cons, Nat.mul_succ] at fits ⊢
      have wanted : (share + carry).toNat = share.toNat + carry.toNat := by
        rw [UInt64.toNat_add, Nat.mod_eq_of_lt (by omega)]
      have left := toNat_sub_min_left (share + carry) bin
      have rest_le := ih (share + carry - min (share + carry) bin) (by omega)
      simp only [takeShares]
      omega

/-- The walk from the front conserves: what the bins lost is what was asked of them less what is
carried past the last. -/
theorem takeShares_total (share carry : UInt64) (bins : List UInt64)
    (fits : share.toNat * bins.length + carry.toNat < 2 ^ 64) :
    total (takeShares share carry bins).1 + (share.toNat * bins.length + carry.toNat) =
      total bins + (takeShares share carry bins).2.toNat := by
  induction bins generalizing carry with
  | nil => simp [takeShares]
  | cons bin rest ih =>
      simp only [List.length_cons, Nat.mul_succ] at fits ⊢
      have wanted : (share + carry).toNat = share.toNat + carry.toNat := by
        rw [UInt64.toNat_add, Nat.mod_eq_of_lt (by omega)]
      have left := toNat_sub_min_left (share + carry) bin
      have kept := toNat_sub_min_right (share + carry) bin
      have conserved := ih (share + carry - min (share + carry) bin) (by omega)
      simp only [takeShares, total_cons]
      omega

theorem takeBackwards_length (amount : UInt64) (bins : List UInt64) :
    (takeBackwards amount bins).1.length = bins.length := by
  induction bins with
  | nil => rfl
  | cons bin rest ih => simp only [takeBackwards, List.length_cons, ih]

theorem takeBackwards_le (amount : UInt64) (bins : List UInt64) :
    List.Forall₂ (· ≤ ·) (takeBackwards amount bins).1 bins := by
  induction bins with
  | nil => exact .nil
  | cons bin rest ih =>
      refine .cons ?_ ih
      rw [UInt64.le_iff_toNat_le, toNat_sub_min_right]
      omega

theorem takeBackwards_total (amount : UInt64) (bins : List UInt64) :
    total (takeBackwards amount bins).1 + amount.toNat =
      total bins + (takeBackwards amount bins).2.toNat := by
  induction bins with
  | nil => simp [takeBackwards]
  | cons bin rest ih =>
      have kept := toNat_sub_min_right (takeBackwards amount rest).2 bin
      have left := toNat_sub_min_left (takeBackwards amount rest).2 bin
      simp only [takeBackwards, total_cons]
      omega

/-- Something is outstanding only when all bins ran dry. -/
theorem takeBackwards_dry (amount : UInt64) (bins : List UInt64)
    (outstanding : 0 < (takeBackwards amount bins).2.toNat) :
    total (takeBackwards amount bins).1 = 0 := by
  induction bins with
  | nil => rfl
  | cons bin rest ih =>
      have kept := toNat_sub_min_right (takeBackwards amount rest).2 bin
      have left := toNat_sub_min_left (takeBackwards amount rest).2 bin
      simp only [takeBackwards, total_cons] at outstanding ⊢
      have dry := ih (by omega)
      omega

/-- Shares and remainder make up the excess. -/
theorem shares_add_remainder (excess : UInt64) (bins : List UInt64)
    (short : bins.length < 2 ^ 64) :
    (excess / UInt64.ofNat bins.length).toNat * bins.length +
      (excess % UInt64.ofNat bins.length).toNat = excess.toNat := by
  have length : (UInt64.ofNat bins.length).toNat = bins.length :=
    UInt64.toNat_ofNat_of_lt short
  rw [UInt64.toNat_div, UInt64.toNat_mod, length]
  exact Nat.div_add_mod' excess.toNat bins.length

/-- What is carried into bin `i` while an excess is taken. At the number of bins it is what is
carried past the last. -/
def carryInto (excess : UInt64) (bins : List UInt64) (i : Nat) : UInt64 :=
  (takeShares (excess / UInt64.ofNat bins.length) 0 (bins.take i)).2

/-- What the walk from the front leaves of bin `i`: a share and what is carried into the bin were
asked of it. -/
theorem takeShares_at (excess : UInt64) (bins : List UInt64) (i : Nat) (inside : i < bins.length) :
    (takeShares (excess / UInt64.ofNat bins.length) 0 bins).1[i]? =
      some (bins[i] -
        min (excess / UInt64.ofNat bins.length + carryInto excess bins i) bins[i]) := by
  have parts : bins = bins.take i ++ bins[i] :: bins.drop (i + 1) := by
    rw [← List.drop_eq_getElem_cons inside, List.take_append_drop]
  have front : (takeShares (excess / UInt64.ofNat bins.length) 0 (bins.take i)).1.length = i := by
    rw [takeShares_length, List.length_take_of_le (by omega)]
  have walked := takeShares_append (excess / UInt64.ofNat bins.length) 0 (bins.take i)
    (bins[i] :: bins.drop (i + 1))
  rw [← parts] at walked
  rw [walked, List.getElem?_append_right (by omega), front, Nat.sub_self]
  rfl

theorem carryInto_le (excess : UInt64) (bins : List UInt64) (short : bins.length < 2 ^ 64)
    (i : Nat) (inside : i ≤ bins.length) :
    (carryInto excess bins i).toNat ≤ (excess / UInt64.ofNat bins.length).toNat * i := by
  have parts := shares_add_remainder excess bins short
  have bounded := excess.toNat_lt
  have fewer := Nat.mul_le_mul_left (excess / UInt64.ofNat bins.length).toNat inside
  have carried := takeShares_carry_le (excess / UInt64.ofNat bins.length) 0 (bins.take i)
  rw [List.length_take_of_le inside, UInt64.toNat_zero] at carried
  exact carried (by omega)

/-- No bin is asked for more than the excess. -/
theorem share_add_carryInto_le (excess : UInt64) (bins : List UInt64)
    (short : bins.length < 2 ^ 64) (i : Nat) (inside : i < bins.length) :
    (excess / UInt64.ofNat bins.length).toNat + (carryInto excess bins i).toNat ≤
      excess.toNat := by
  have parts := shares_add_remainder excess bins short
  have carried := carryInto_le excess bins short i (by omega)
  have fewer := Nat.mul_le_mul_left (excess / UInt64.ofNat bins.length).toNat inside
  rw [Nat.mul_succ] at fewer
  omega

theorem remainder_add_carryInto_le (excess : UInt64) (bins : List UInt64)
    (short : bins.length < 2 ^ 64) :
    (excess % UInt64.ofNat bins.length).toNat + (carryInto excess bins bins.length).toNat ≤
      excess.toNat := by
  have parts := shares_add_remainder excess bins short
  have carried := carryInto_le excess bins short bins.length (Nat.le_refl _)
  omega

theorem takeExcess_length (excess : UInt64) (bins : List UInt64) :
    (takeExcess excess bins).1.length = bins.length := by
  simp only [takeExcess, takeBackwards_length, takeShares_length]

theorem takeExcess_le (excess : UInt64) (bins : List UInt64) :
    List.Forall₂ (· ≤ ·) (takeExcess excess bins).1 bins := by
  refine (Outcome.forall₂_comp (takeBackwards_le _ _) (takeShares_le _ 0 bins)).imp ?_
  rintro last bin ⟨between, le, le'⟩
  exact UInt64.le_trans le le'

/-- Both walks conserve: the bins lose the excess but for what is outstanding. -/
theorem takeExcess_total (excess : UInt64) (bins : List UInt64) (short : bins.length < 2 ^ 64) :
    total (takeExcess excess bins).1 + excess.toNat =
      total bins + (takeExcess excess bins).2.toNat := by
  have parts := shares_add_remainder excess bins short
  have bounded := excess.toNat_lt
  have demanded := remainder_add_carryInto_le excess bins short
  simp only [carryInto, List.take_length] at demanded
  have front := takeShares_total (excess / UInt64.ofNat bins.length) 0 bins
    (by rw [UInt64.toNat_zero]; omega)
  have back := takeBackwards_total
    (excess % UInt64.ofNat bins.length +
      (takeShares (excess / UInt64.ofNat bins.length) 0 bins).2)
    (takeShares (excess / UInt64.ofNat bins.length) 0 bins).1
  rw [UInt64.toNat_add, Nat.mod_eq_of_lt (by omega)] at back
  rw [UInt64.toNat_zero] at front
  simp only [takeExcess]
  omega

/-- An excess that the bins hold is taken to the last unit. -/
theorem takeExcess_outstanding (excess : UInt64) (bins : List UInt64)
    (short : bins.length < 2 ^ 64) (held : excess.toNat ≤ total bins) :
    (takeExcess excess bins).2 = 0 := by
  have conserved := takeExcess_total excess bins short
  apply UInt64.toNat.inj
  by_cases outstanding : 0 < (takeExcess excess bins).2.toNat
  · have dry : total (takeExcess excess bins).1 = 0 := takeBackwards_dry _ _ outstanding
    omega
  · simpa using outstanding

def excessOver (bins : List UInt64) (authoritative : UInt64) : UInt64 :=
  UInt64.ofNat (total bins - authoritative.toNat)

theorem excessOver_toNat {bins : List UInt64} (authoritative : UInt64) (fits : total bins < 2 ^ 64) :
    (excessOver bins authoritative).toNat = total bins - authoritative.toNat :=
  UInt64.toNat_ofNat_of_lt (Nat.lt_of_le_of_lt (Nat.sub_le _ _) fits)

theorem excessOver_eq {bins : List UInt64} {authoritative whole : UInt64}
    (summed : Counter.sum bins = .ok whole) (exceeds : authoritative.toNat < total bins) :
    excessOver bins authoritative = whole - authoritative := by
  have held := Counter.sum_ok_iff.1 summed
  have bounded := whole.toNat_lt
  apply UInt64.toNat.inj
  rw [excessOver_toNat authoritative (by omega),
    UInt64.toNat_sub_of_le _ _ (by rw [UInt64.le_iff_toNat_le]; omega), held]

theorem reconcile_below {bins : List UInt64} {authoritative : UInt64} (fits : total bins < 2 ^ 64)
    (below : total bins ≤ authoritative.toNat) : reconcile bins authoritative = .ok bins := by
  obtain ⟨whole, summed⟩ := Counter.exists_sum_iff.2 fits
  have held := Counter.sum_ok_iff.1 summed
  have le : whole ≤ authoritative := by
    rw [UInt64.le_iff_toNat_le]
    omega
  rw [reconcile, summed]
  change (if (whole ≤ authoritative || bins.isEmpty) = true then _ else _) = _
  rw [if_pos (by simp [le])]
  rfl

theorem reconcile_above {bins : List UInt64} {authoritative : UInt64} (fits : total bins < 2 ^ 64)
    (short : bins.length < 2 ^ 64) (exceeds : authoritative.toNat < total bins) :
    reconcile bins authoritative = .ok (takeExcess (excessOver bins authoritative) bins).1 := by
  obtain ⟨whole, summed⟩ := Counter.exists_sum_iff.2 fits
  have held := Counter.sum_ok_iff.1 summed
  have above : ¬whole ≤ authoritative := by
    rw [UInt64.le_iff_toNat_le]
    omega
  have filled : bins.isEmpty = false := by
    cases bins with
    | nil => exact absurd exceeds (Nat.not_lt_zero _)
    | cons bin rest => rfl
  have outstanding := takeExcess_outstanding (excessOver bins authoritative) bins short
    (by rw [excessOver_toNat authoritative fits]; omega)
  rw [excessOver_eq summed exceeds] at outstanding ⊢
  rw [reconcile, summed]
  change (if (whole ≤ authoritative || bins.isEmpty) = true then _ else
    if 0 < (takeExcess (whole - authoritative) bins).2 then _ else _) = _
  rw [if_neg (by simp [above, filled]), outstanding, if_neg UInt64.not_lt_zero]
  rfl

theorem reconcile_overflows {bins : List UInt64} (authoritative : UInt64)
    (wide : 2 ^ 64 ≤ total bins) : reconcile bins authoritative = .error .overflow := by
  have failed := ((Counter.sum_onlyOverflows bins).error_iff Counter.exists_sum_iff .overflow).2
    ⟨rfl, Nat.not_lt.2 wide⟩
  rw [reconcile, failed]
  rfl

/-- Reconciliation of bins with a counter never fails and is exact: the bins keep their number, none
is raised, and together they hold the lesser of what they held and the counter. Bins at or below the
counter stay as they are; above it, the excess is the true one and no sum of a share or the
remainder with a carry exceeds it, so none wraps. A list in memory is shorter than `2 ^ 64`. -/
theorem reconcile_exact (bins : List UInt64) (authoritative : UInt64)
    (fits : total bins < 2 ^ 64) (short : bins.length < 2 ^ 64) :
    ∃ after, reconcile bins authoritative = .ok after ∧
      after.length = bins.length ∧
      List.Forall₂ (· ≤ ·) after bins ∧
      total after = min (total bins) authoritative.toNat ∧
      (total bins ≤ authoritative.toNat → after = bins) ∧
      (authoritative.toNat < total bins →
        ∃ whole, Counter.sum bins = .ok whole ∧
          let excess := whole - authoritative
          excess.toNat = total bins - authoritative.toNat ∧
          (∀ i < bins.length, (excess / UInt64.ofNat bins.length).toNat +
            (carryInto excess bins i).toNat ≤ excess.toNat) ∧
          (excess % UInt64.ofNat bins.length).toNat +
            (carryInto excess bins bins.length).toNat ≤ excess.toNat) := by
  by_cases exceeds : authoritative.toNat < total bins
  · have true_excess := excessOver_toNat authoritative fits
    have outstanding := takeExcess_outstanding (excessOver bins authoritative) bins short (by omega)
    have conserved := takeExcess_total (excessOver bins authoritative) bins short
    rw [outstanding, UInt64.toNat_zero] at conserved
    refine ⟨_, reconcile_above fits short exceeds, takeExcess_length _ _, takeExcess_le _ _,
      by omega, by omega, fun _ => ?_⟩
    obtain ⟨whole, summed⟩ := Counter.exists_sum_iff.2 fits
    refine ⟨whole, summed, ?_⟩
    rw [← excessOver_eq summed exceeds]
    exact ⟨true_excess, fun i inside => share_add_carryInto_le _ bins short i inside,
      remainder_add_carryInto_le _ bins short⟩
  · exact ⟨bins, reconcile_below fits (by omega), rfl, List.forall₂_refl bins, by omega,
      fun _ => rfl, fun above => absurd above exceeds⟩

/-- The last bin cannot give the remainder, so the walk goes on to the bins before it. -/
theorem reconcile_exact_short_last_bin :
    total [5, 5, 1] < 2 ^ 64 ∧ [5, 5, 1].length < 2 ^ 64 ∧
      ∃ after, reconcile [5, 5, 1] 1 = .ok after ∧ after.length = 3 ∧ total after = 1 := by
  obtain ⟨after, answered, length, -, held, -⟩ :=
    reconcile_exact [5, 5, 1] 1 (by decide) (by decide)
  exact ⟨by decide, by decide, after, answered, length, held⟩

end BenchReport.Bins
