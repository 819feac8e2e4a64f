import BenchReport.Proofs.Reconciliation
set_option autoImplicit false

namespace BenchReport.Bins

open Counter (total total_cons toNat_le_total)

def losses (bins after : List UInt64) : List Nat :=
  List.zipWith (fun bin left => bin.toNat - left.toNat) bins after

theorem total_add_losses {bins after : List UInt64} (lowered : List.Forall₂ (· ≤ ·) after bins) :
    total after + (losses bins after).sum = total bins := by
  induction lowered with
  | nil => rfl
  | @cons left bin _ _ le _ ih =>
      have le := UInt64.le_iff_toNat_le.1 le
      rw [losses, List.zipWith_cons_cons, List.sum_cons, total_cons, total_cons]
      rw [losses] at ih
      omega

theorem takeShares_take (share carry : UInt64) (bins : List UInt64) (m : Nat) :
    (takeShares share carry bins).1.take m = (takeShares share carry (bins.take m)).1 := by
  have walked := takeShares_append share carry (bins.take m) (bins.drop m)
  rw [List.take_append_drop] at walked
  rw [walked]
  rcases Nat.le_total m bins.length with inside | past
  · have length : (takeShares share carry (bins.take m)).1.length = m := by
      rw [takeShares_length, List.length_take_of_le inside]
    rw [List.take_append_of_le_length (by omega), List.take_of_length_le (by omega)]
  · rw [List.drop_of_length_le past, takeShares, List.append_nil, List.take_of_length_le]
    rw [takeShares_length, List.length_take]
    exact Nat.min_le_left _ _

variable {excess : UInt64} {bins : List UInt64} {i : Nat}

theorem carryInto_succ (inside : i < bins.length) :
    carryInto excess bins (i + 1) =
      excess / UInt64.ofNat bins.length + carryInto excess bins i -
        min (excess / UInt64.ofNat bins.length + carryInto excess bins i) bins[i] := by
  rw [carryInto, ← List.take_concat_get' bins i inside, takeShares_append]
  rfl

/-- What is carried past a bin the bin could not give: it is empty. -/
theorem takeShares_dry (inside : i < bins.length)
    (carried : 0 < (carryInto excess bins (i + 1)).toNat) :
    (takeShares (excess / UInt64.ofNat bins.length) 0 bins).1[i]? = some 0 := by
  rw [carryInto_succ inside, toNat_sub_min_left] at carried
  rw [takeShares_at excess bins i inside]
  refine congrArg some (UInt64.toNat.inj ?_)
  rw [toNat_sub_min_right, UInt64.toNat_zero]
  omega

/-- The first bins lost a share each, less what is carried past them. -/
theorem losses_add_carryInto (excess : UInt64) (short : bins.length < 2 ^ 64)
    (inside : i ≤ bins.length) :
    ((losses bins (takeShares (excess / UInt64.ofNat bins.length) 0 bins).1).take i).sum +
      (carryInto excess bins i).toNat = i * (excess / UInt64.ofNat bins.length).toNat := by
  have parts := shares_add_remainder excess bins short
  have bounded := excess.toNat_lt
  have fewer := Nat.mul_le_mul_left (excess / UInt64.ofNat bins.length).toNat inside
  have walked := takeShares_total (excess / UInt64.ofNat bins.length) 0 (bins.take i)
  rw [List.length_take_of_le inside, UInt64.toNat_zero] at walked
  have conserved := walked (by omega)
  have lost := total_add_losses
    (takeShares_le (excess / UInt64.ofNat bins.length) 0 (bins.take i))
  rw [losses, List.take_zipWith, takeShares_take, ← losses, carryInto, Nat.mul_comm]
  omega

/-- Bins that can all give the share give it, and nothing is carried. -/
theorem takeShares_full {share : UInt64} {bins : List UInt64} (full : ∀ bin ∈ bins, share ≤ bin) :
    takeShares share 0 bins = (bins.map (· - share), 0) := by
  induction bins with
  | nil => rfl
  | cons bin rest ih =>
      have given : min share bin = share := if_pos (full bin List.mem_cons_self)
      rw [takeShares, UInt64.add_zero, given, UInt64.sub_self,
        ih fun b mem => full b (List.mem_cons_of_mem _ mem)]
      rfl

/-- The first bin, in their order, that a walk took something from; without any, their number. -/
structure FirstDrawn (before after : List UInt64) (k : Nat) : Prop where
  inside : k ≤ before.length
  untouched : after.take k = before.take k
  drawn : k < before.length → after.getD k 0 < before.getD k 0

/-- Past the first bin it takes from the walk leaves nothing. -/
theorem takeBackwards_walk (amount : UInt64) (bins : List UInt64) :
    ∃ k, FirstDrawn bins (takeBackwards amount bins).1 k ∧
      ∀ i, k < i → i < bins.length → (takeBackwards amount bins).1[i]? = some 0 := by
  induction bins with
  | nil => exact ⟨0, ⟨Nat.le_refl _, rfl, fun inside => absurd inside (Nat.lt_irrefl 0)⟩, by simp⟩
  | cons bin rest ih =>
      have kept := toNat_sub_min_right (takeBackwards amount rest).2 bin
      simp only [takeBackwards]
      by_cases taken : bin - min (takeBackwards amount rest).2 bin = bin
      · obtain ⟨k, first, empty⟩ := ih
        refine ⟨k + 1, ⟨Nat.succ_le_succ first.inside, ?_, fun inside => ?_⟩, ?_⟩
        · rw [taken, List.take_succ_cons, List.take_succ_cons, first.untouched]
        · exact first.drawn (Nat.lt_of_succ_lt_succ inside)
        · rintro (_ | i) past inside
          · exact absurd past (Nat.not_lt_zero _)
          · exact empty i (Nat.lt_of_succ_lt_succ past) (Nat.lt_of_succ_lt_succ inside)
      · have outstanding : 0 < (takeBackwards amount rest).2.toNat := by
          by_contra none
          refine taken (UInt64.toNat.inj ?_)
          omega
        have lower : bin - min (takeBackwards amount rest).2 bin < bin := by
          have changed : (bin - min (takeBackwards amount rest).2 bin).toNat ≠ bin.toNat :=
            fun same => taken (UInt64.toNat.inj same)
          rw [UInt64.lt_iff_toNat_lt]
          omega
        refine ⟨0, ⟨Nat.zero_le _, rfl, fun _ => lower⟩, ?_⟩
        rintro (_ | i) past inside
        · exact absurd past (Nat.lt_irrefl 0)
        · -- The walk came this far because the bins behind ran dry.
          have dry := takeBackwards_dry amount rest outstanding
          have within : i < (takeBackwards amount rest).1.length := by
            rw [takeBackwards_length]
            exact Nat.lt_of_succ_lt_succ inside
          rw [List.getElem?_cons_succ, List.getElem?_eq_getElem within]
          refine congrArg some (UInt64.toNat.inj ?_)
          have least := toNat_le_total (List.getElem_mem within)
          rw [UInt64.toNat_zero]
          omega

/-- A last bin that can give the whole amount gives it. -/
theorem takeBackwards_last {amount last : UInt64} (enough : amount ≤ last) (front : List UInt64) :
    takeBackwards amount (front ++ [last]) = (front ++ [last - amount], 0) := by
  induction front with
  | nil =>
      have given : min amount last = amount := if_pos enough
      simp only [List.nil_append, takeBackwards, given, UInt64.sub_self]
  | cons bin rest ih =>
      have nothing : min 0 bin = 0 := if_pos bin.zero_le
      simp only [List.cons_append, takeBackwards, ih, nothing, UInt64.sub_zero]

/-- Every bin can give the share, and the last the remainder as well. -/
theorem losses_full {share remainder : UInt64} {front : List UInt64} {last : UInt64}
    (full : ∀ bin ∈ front, share ≤ bin) (enough : share.toNat + remainder.toNat ≤ last.toNat) :
    losses (front ++ [last])
        (takeBackwards (remainder + (takeShares share 0 (front ++ [last])).2)
          (takeShares share 0 (front ++ [last])).1).1 =
      List.replicate front.length share.toNat ++ [share.toNat + remainder.toNat] := by
  have last_full : share ≤ last := UInt64.le_iff_toNat_le.2 (by omega)
  have kept : (last - share).toNat = last.toNat - share.toNat :=
    UInt64.toNat_sub_of_le _ _ last_full
  have left : remainder ≤ last - share := by
    rw [UInt64.le_iff_toNat_le, kept]
    omega
  have last_loss : last.toNat - (last - share - remainder).toNat =
      share.toNat + remainder.toNat := by
    rw [UInt64.toNat_sub_of_le _ _ left, kept]
    omega
  have all_full : ∀ bin ∈ front ++ [last], share ≤ bin := by
    intro bin mem
    rcases List.mem_append.1 mem with mem | mem
    · exact full bin mem
    · rw [List.mem_singleton.1 mem]
      exact last_full
  have front_loss : losses front (front.map (· - share)) =
      List.replicate front.length share.toNat := by
    rw [List.eq_replicate_iff, losses, List.zipWith_map_right, List.zipWith_self]
    refine ⟨List.length_map _, fun n mem => ?_⟩
    obtain ⟨bin, listed, rfl⟩ := List.mem_map.1 mem
    have le := full bin listed
    rw [UInt64.toNat_sub_of_le _ _ le]
    have given := UInt64.le_iff_toNat_le.1 le
    omega
  rw [takeShares_full all_full, UInt64.add_zero, List.map_append, List.map_singleton,
    takeBackwards_last left, losses,
    List.zipWith_append (List.length_map _).symm, ← losses, front_loss]
  exact congrArg (_ ++ [·]) last_loss

/-- Bins that the walk from the back leaves alone: up to each of them they lost a share for each, or
less if it is empty. -/
theorem losses_untouched {excess : UInt64} {bins after : List UInt64} {i k : Nat}
    (short : bins.length < 2 ^ 64) (within : k ≤ bins.length) (before : i < k)
    (untouched : after.take k =
      (takeShares (excess / UInt64.ofNat bins.length) 0 bins).1.take k) :
    let share := (excess / UInt64.ofNat bins.length).toNat
    ((losses bins after).take (i + 1)).sum = (i + 1) * share ∨
      ((losses bins after).take (i + 1)).sum < (i + 1) * share ∧ after[i]? = some 0 := by
  intro share
  have alike : after.take (i + 1) =
      (takeShares (excess / UInt64.ofNat bins.length) 0 bins).1.take (i + 1) := by
    have cut := congrArg (List.take (i + 1)) untouched
    rwa [List.take_take, List.take_take, Nat.min_eq_left before] at cut
  have lost := losses_add_carryInto excess short (show i + 1 ≤ bins.length by omega)
  rw [losses, List.take_zipWith, ← alike, ← List.take_zipWith, ← losses] at lost
  change _ = (i + 1) * share at lost
  by_cases carried : 0 < (carryInto excess bins (i + 1)).toNat
  · refine .inr ⟨by omega, ?_⟩
    have dry := takeShares_dry (show i < bins.length by omega) carried
    have at_i := congrArg (·[i]?) alike
    simp only [List.getElem?_take_of_lt (Nat.lt_succ_self i)] at at_i
    exact at_i.trans dry
  · exact .inl (by omega)

def afterShares (bins : List UInt64) (authoritative : UInt64) : List UInt64 :=
  (takeShares (excessOver bins authoritative / UInt64.ofNat bins.length) 0 bins).1

/-- Bins that hold more than a counter give the excess by shares. Up to the first bin that the walk
from the back takes from, the bins lost a share for each of them, or less if the last of them is
empty; past it all are empty. If each bin holds its share, and the last the remainder as well, that
is what each loses. A list in memory is shorter than `2 ^ 64`. -/
theorem reconcile_by_shares (bins : List UInt64) (authoritative : UInt64)
    (fits : total bins < 2 ^ 64) (short : bins.length < 2 ^ 64)
    (exceeds : authoritative.toNat < total bins) :
    let share := (total bins - authoritative.toNat) / bins.length
    let remainder := (total bins - authoritative.toNat) % bins.length
    ∃ after, reconcile bins authoritative = .ok after ∧
      (∃ k, FirstDrawn (afterShares bins authoritative) after k ∧
        (∀ i, k < i → i < bins.length → after[i]? = some 0) ∧
        ∀ i < k, ((losses bins after).take (i + 1)).sum = (i + 1) * share ∨
          ((losses bins after).take (i + 1)).sum < (i + 1) * share ∧ after[i]? = some 0) ∧
      ((∀ bin ∈ bins, share ≤ bin.toNat) → (∀ last ∈ bins.getLast?, share + remainder ≤ last.toNat) →
        losses bins after = List.replicate (bins.length - 1) share ++ [share + remainder]) := by
  intro share remainder
  have excess_eq := excessOver_toNat authoritative fits
  have length : (UInt64.ofNat bins.length).toNat = bins.length := UInt64.toNat_ofNat_of_lt short
  have share_eq : (excessOver bins authoritative / UInt64.ofNat bins.length).toNat = share := by
    rw [UInt64.toNat_div, excess_eq, length]
  have remainder_eq :
      (excessOver bins authoritative % UInt64.ofNat bins.length).toNat = remainder := by
    rw [UInt64.toNat_mod, excess_eq, length]
  refine ⟨_, reconcile_above fits short exceeds, ?_, ?_⟩
  · obtain ⟨k, first, empty⟩ := takeBackwards_walk
      (excessOver bins authoritative % UInt64.ofNat bins.length +
        (takeShares (excessOver bins authoritative / UInt64.ofNat bins.length) 0 bins).2)
      (afterShares bins authoritative)
    change ∀ i, k < i → i < (takeShares _ 0 bins).1.length → _ at empty
    rw [takeShares_length] at empty
    have within : k ≤ bins.length := by
      have inside := first.inside
      rwa [afterShares, takeShares_length] at inside
    refine ⟨k, first, empty, fun i before => ?_⟩
    have given := losses_untouched short within before first.untouched
    rwa [share_eq] at given
  · intro full enough
    rcases List.eq_nil_or_concat bins with rfl | ⟨front, last, rfl⟩
    · exact absurd exceeds (Nat.not_lt_zero _)
    · rw [List.concat_eq_append] at *
      have front_full : ∀ bin ∈ front,
          excessOver (front ++ [last]) authoritative / UInt64.ofNat (front ++ [last]).length ≤
            bin := by
        intro bin mem
        rw [UInt64.le_iff_toNat_le, share_eq]
        exact full bin (List.mem_append_left _ mem)
      have last_enough := enough last (by simp)
      rw [← share_eq, ← remainder_eq] at last_enough ⊢
      have lost := losses_full front_full last_enough
      rw [takeExcess, lost, List.length_append, List.length_singleton,
        Nat.add_sub_cancel]

/-- The second bin cannot give its share, which the third gives for it; the last gives what it has,
and the rest is taken from the third again. In the other bins each gives its share. -/
theorem reconcile_by_shares_recovered :
    total [4, 0, 9, 1] < 2 ^ 64 ∧ total [20, 20, 10] < 2 ^ 64 ∧
      (3 : UInt64).toNat < total [4, 0, 9, 1] ∧ (45 : UInt64).toNat < total [20, 20, 10] ∧
      (∃ after k, reconcile [4, 0, 9, 1] 3 = .ok after ∧
        FirstDrawn (afterShares [4, 0, 9, 1] 3) after k ∧
        (∀ i, k < i → i < 4 → after[i]? = some 0) ∧
        ∀ i < k, ((losses [4, 0, 9, 1] after).take (i + 1)).sum = (i + 1) * 2 ∨
          ((losses [4, 0, 9, 1] after).take (i + 1)).sum < (i + 1) * 2 ∧ after[i]? = some 0) ∧
      ∃ after, reconcile [20, 20, 10] 45 = .ok after ∧ losses [20, 20, 10] after = [1, 1, 3] := by
  refine ⟨by decide, by decide, by decide, by decide, ?_, ?_⟩
  · have share : (total [4, 0, 9, 1] - (3 : UInt64).toNat) / [4, 0, 9, (1 : UInt64)].length = 2 := by
      simp
    obtain ⟨after, reconciled, ⟨k, first, empty, given⟩, -⟩ :=
      reconcile_by_shares [4, 0, 9, 1] 3 (by decide) (by decide) (by decide)
    simp only [share] at given
    exact ⟨after, k, reconciled, first, empty, given⟩
  · have share : (total [20, 20, 10] - (45 : UInt64).toNat) / [20, 20, (10 : UInt64)].length = 1 := by
      simp
    have remainder :
        (total [20, 20, 10] - (45 : UInt64).toNat) % [20, 20, (10 : UInt64)].length = 2 := by
      simp
    obtain ⟨after, reconciled, -, given⟩ :=
      reconcile_by_shares [20, 20, 10] 45 (by decide) (by decide) (by decide)
    simp only [share, remainder] at given
    exact ⟨after, reconciled, given (by simp) (by simp)⟩

end BenchReport.Bins
