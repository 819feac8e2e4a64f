import Mathlib
import BenchReport.Stats.Quantile
set_option autoImplicit false

namespace BenchReport

namespace Scalar

open Classical in
/-- Real numbers are all finite, and nothing is lost by computing with them. -/
noncomputable instance exact : Scalar ℝ where
  ofNat n := n
  isFinite _ := true
  lt x y := decide (x < y)
  before x y := decide (x ≤ y)
  floor x := ⌊x⌋₊
  ceil x := ⌈x⌉₊
  round x := if 0 ≤ x then ⌊x + 1 / 2⌋ else -⌊-x + 1 / 2⌋
  sqrt := Real.sqrt

theorem exact_ofNat (n : Nat) : (ofNat n : ℝ) = n := rfl

theorem exact_nonneg (x : ℝ) : nonneg x = Max.max x 0 := by
  simp only [nonneg, lt, exact_ofNat, Nat.cast_zero, decide_eq_true_eq]
  split
  · exact (max_eq_left (le_of_lt ‹_›)).symm
  · exact (max_eq_right (not_lt.1 ‹_›)).symm

theorem exact_sum (xs : List ℝ) : sum xs = xs.sum := by
  cases xs with
  | nil => exact Nat.cast_zero
  | cons x rest =>
      rw [List.sum_cons]
      change rest.foldl (· + ·) x = _
      induction rest generalizing x with
      | nil => simp
      | cons y rest ih => rw [List.foldl_cons, ih, List.sum_cons, add_assoc]

end Scalar

namespace Stats

noncomputable def average (xs : List ℝ) : ℝ := xs.sum / xs.length

theorem exact_mean (xs : List ℝ) : mean xs = average xs := by
  cases xs with
  | nil => simp [mean, average, Scalar.exact_ofNat]
  | cons x rest => exact congrArg (· / _) (Scalar.exact_sum (x :: rest))

theorem exact_clampUnit (q : ℝ) : clampUnit q = Max.max 0 (Min.min q 1) := by
  simp only [clampUnit, Scalar.lt, Scalar.exact_ofNat, Nat.cast_zero, Nat.cast_one,
    decide_eq_true_eq]
  split
  · rename_i below
    rw [min_eq_left (below.le.trans zero_le_one), max_eq_left below.le]
  · rename_i least
    split
    · rename_i above
      rw [min_eq_right above.le, max_eq_right zero_le_one]
    · rename_i most
      rw [min_eq_left (not_lt.1 most), max_eq_right (not_lt.1 least)]

theorem exact_clampUnit_mono {q q' : ℝ} (le : q ≤ q') : clampUnit q ≤ clampUnit q' := by
  rw [exact_clampUnit, exact_clampUnit]
  exact max_le_max_left 0 (min_le_min_right 1 le)

theorem exact_clampUnit_idem (q : ℝ) : clampUnit (clampUnit q) = clampUnit q := by
  rw [exact_clampUnit q, exact_clampUnit, min_eq_left (max_le zero_le_one (min_le_right _ _)),
    max_eq_right (le_max_left _ _)]

theorem exact_variance_nonneg (xs : List ℝ) : 0 ≤ variance xs := by
  unfold variance
  split
  · exact le_of_eq Nat.cast_zero.symm
  · dsimp only
    rw [Scalar.exact_sum]
    refine div_nonneg (List.sum_nonneg fun y mem => ?_) (Nat.cast_nonneg _)
    obtain ⟨x, -, rfl⟩ := List.mem_map.1 mem
    exact mul_self_nonneg _

end Stats

end BenchReport
