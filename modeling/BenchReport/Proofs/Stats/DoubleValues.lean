import Mathlib
import BenchReport.Proofs.Stats.DoubleRounding
import BenchReport.Proofs.Stats.Extended
import BenchReport.Proofs.Stats.Ordered
set_option autoImplicit false

namespace BenchReport

namespace Double

open Float.Model UnpackedFloat

/-- The number that a double stands for. -/
noncomputable def exactly (x : Float) : Extended :=
  match x.toModel.unpack with
  | .notANumber => .undefined
  | .infinity s => .infinite (s == .positive)
  | .zero _ => .real 0
  | .finite s m e _ => .real (s.apply m * ((2 : Nat) : ℝ) ^ e)

theorem isFinite_exactly (x : Float) : Scalar.isFinite (exactly x) = Scalar.isFinite x := by
  change _ = x.toModel.unpack.isFinite
  rw [exactly]
  cases x.toModel.unpack <;> rfl

/-- The number `v` has the bits `n`, apart from its sign. -/
inductive Bits (n : Nat) (v : ℝ) : Prop
  | zero (least : n = 0) (eq : v = 0)
  | positive (m : Nat) (e : Int) (h : 0 < m) (held : Canonical m e)
      (bits : (n : Int) = (e + 1074) * 2 ^ 52 + m) (eq : v = m * 2 ^ e)

theorem Bits.nonneg {n : Nat} {v : ℝ} (bits : Bits n v) : 0 ≤ v := by
  cases bits with
  | zero least eq => exact eq.ge
  | positive m e h held bits eq =>
      rw [eq]
      positivity

/-- Numbers rise with their bits: within an exponent with the mantissa, and a greater exponent is
worth more than a full mantissa. -/
theorem Canonical.mono {m m' : Nat} {e e' : Int} (held : Canonical m e) (held' : Canonical m' e')
    (le : (e + 1074) * 2 ^ 52 + (m : Int) ≤ (e' + 1074) * 2 ^ 52 + (m' : Int)) :
    (m * 2 ^ e : ℝ) ≤ m' * 2 ^ e' := by
  obtain ⟨width, least, full⟩ := held
  obtain ⟨width', least', full'⟩ := held'
  rcases lt_trichotomy e e' with lower | rfl | higher
  · have full' := full' (by omega)
    have half : (m : ℝ) ≤ m' * 2 := by
      exact_mod_cast (by omega : m ≤ m' * 2)
    calc (m * 2 ^ e : ℝ) ≤ m' * 2 * 2 ^ e := by gcongr
      _ = m' * 2 ^ (e + 1) := by rw [zpow_add_one₀ two_ne_zero]; ring
      _ ≤ m' * 2 ^ e' := by gcongr <;> [norm_num; omega]
  · have le : m ≤ m' := by omega
    gcongr
  · have full := full (by omega)
    omega

theorem Bits.mono {n n' : Nat} {v v' : ℝ} (left : Bits n v) (right : Bits n' v') (le : n ≤ n') :
    v ≤ v' := by
  cases left with
  | zero least eq => exact eq.trans_le right.nonneg
  | positive m e h held bits eq =>
      cases right with
      | zero least' eq' =>
          have least := held.least
          omega
      | positive m' e' h' held' bits' eq' =>
          rw [eq, eq']
          exact held.mono held' (by omega)

/-- A finite double is the number its bits stand for, with its sign. -/
theorem exists_bits {x : Float} (finite : Scalar.isFinite x = true) :
    ∃ v, Bits (x.toBits.toNat % 2 ^ 63) v ∧
      exactly x = .real (if x.toBits.toNat < 2 ^ 63 then v else -v) := by
  change x.toModel.unpack.isFinite = true at finite
  rw [exactly]
  cases eq : x.toModel.unpack with
  | notANumber =>
      rw [eq] at finite
      cases finite
  | infinity s =>
      rw [eq] at finite
      cases finite
  | zero s => exact ⟨0, .zero (unpack_zero eq) rfl, by simp⟩
  | finite s m e h =>
      obtain ⟨bits, sign, -⟩ := unpack_finite eq
      refine ⟨m * 2 ^ e, .positive m e h (canonical_unpack eq) (by exact_mod_cast bits) rfl, ?_⟩
      change s = .positive ↔ x.toBits.toNat < 2 ^ 63 at sign
      cases s with
      | positive =>
          rw [if_pos (sign.1 rfl)]
          simp [Sign.apply]
      | negative =>
          rw [if_neg fun plus => nomatch sign.2 plus]
          simp [Sign.apply]

theorem before_exactly {x y : Float} (left : Scalar.isFinite x = true)
    (right : Scalar.isFinite y = true) (le : orderKey x ≤ orderKey y) :
    Scalar.before (exactly x) (exactly y) = true := by
  obtain ⟨v, x_bits, x_eq⟩ := exists_bits left
  obtain ⟨v', y_bits, y_eq⟩ := exists_bits right
  rw [x_eq, y_eq, Extended.before_real]
  apply decide_eq_true
  have x_range : x.toBits.toNat < 2 ^ 64 := x.toBits.toNat_lt
  have y_range : y.toBits.toNat < 2 ^ 64 := y.toBits.toNat_lt
  by_cases plus : x.toBits.toNat < 2 ^ 63 <;> by_cases plus' : y.toBits.toNat < 2 ^ 63
  · rw [orderKey_plus plus, orderKey_plus plus'] at le
    rw [if_pos plus, if_pos plus']
    exact x_bits.mono y_bits (by omega)
  · rw [orderKey_plus plus, orderKey_minus plus'] at le
    omega
  · rw [if_neg plus, if_pos plus']
    exact (neg_nonpos.2 x_bits.nonneg).trans y_bits.nonneg
  · rw [orderKey_minus plus, orderKey_minus plus'] at le
    rw [if_neg plus, if_neg plus']
    exact neg_le_neg (y_bits.mono x_bits (by omega))

end Double

namespace Stats

open Double

theorem ofNat_zero_exactly : exactly (Scalar.ofNat 0) = Scalar.ofNat 0 := by
  rw [Extended.ofNat_eq, Scalar.exact_ofNat, Nat.cast_zero]
  rfl

/-- The ordered series of doubles stands for the ordered series of their numbers. -/
theorem ordered_exactly (samples : List Float) :
    (ordered samples).map exactly = ordered (samples.map exactly) := by
  have kept : (samples.map exactly).filter Scalar.isFinite =
      (samples.filter Scalar.isFinite).map exactly := by
    rw [List.filter_map]
    congr 2
    funext x
    exact isFinite_exactly x
  simp only [ordered, kept, List.isEmpty_map]
  split
  · exact congrArg ([·]) ofNat_zero_exactly
  · have in_order : ((samples.filter Scalar.isFinite).mergeSort Scalar.before).Pairwise fun x y =>
        Scalar.before (exactly x) (exactly y) = true := by
      have sorted := List.pairwise_mergeSort before_trans before_total
        (samples.filter Scalar.isFinite)
      refine sorted.imp_of_mem fun {x y} x_mem y_mem le => ?_
      exact before_exactly (List.of_mem_filter (List.mem_mergeSort.1 x_mem))
        (List.of_mem_filter (List.mem_mergeSort.1 y_mem)) ((before_iff x y).1 le)
    exact List.Perm.eq_of_pairwise (fun _ _ _ _ => Extended.before_antisymm)
      (List.pairwise_map.2 in_order)
      (List.pairwise_mergeSort Extended.before_trans Extended.before_total _)
      (((List.mergeSort_perm _ _).map _).trans (List.mergeSort_perm _ _).symm)

end Stats

end BenchReport
