import BenchReport.Proofs.Stats.Exact
import BenchReport.Stats.Estimate
set_option autoImplicit false

namespace BenchReport

open Scalar

structure Summary.SameCentre {α : Type} (s s' : Summary α) : Prop where
  median : s.median = s'.median
  mean : s.mean = s'.mean
  variance : s.variance = s'.variance
  stdev : s.stdev = s'.stdev

namespace Stats

namespace RunningMean

/-- The mean and the number of a list of numbers. -/
def Means (m : RunningMean ℝ) (xs : List ℝ) : Prop :=
  m.count = xs.length ∧ m.mean * xs.length = xs.sum

theorem means_empty : Means .empty [] := ⟨rfl, by simp⟩

theorem Means.feed {m : RunningMean ℝ} {xs : List ℝ} (means : Means m xs) (x : ℝ) :
    Means (m.feed x) (xs ++ [x]) := by
  obtain ⟨count, total⟩ := means
  have positive : (xs.length + 1 : ℝ) ≠ 0 := by positivity
  refine ⟨by rw [List.length_append, ← count]; rfl, ?_⟩
  have fed : (m.feed x).mean = m.mean + (x - m.mean) / (xs.length + 1) := by
    rw [← count, ← Nat.cast_succ]
    rfl
  rw [fed, List.sum_append, List.sum_singleton, List.length_append, List.length_singleton,
    Nat.cast_add, Nat.cast_one, ← total]
  field_simp
  ring

theorem means_foldl (xs : List ℝ) : Means (xs.foldl feed .empty) xs := by
  induction xs using List.reverseRecOn with
  | nil => exact means_empty
  | append_singleton xs x ih =>
      rw [List.foldl_concat]
      exact ih.feed x

/-- In exact arithmetic a running mean is the mean of what it was fed. -/
theorem mean_foldl {xs : List ℝ} (fed : xs ≠ []) : (xs.foldl feed .empty).mean = average xs := by
  have some : (xs.length : ℝ) ≠ 0 := Nat.cast_ne_zero.2 (mt List.length_eq_zero_iff.1 fed)
  rw [average, eq_div_iff some]
  exact (means_foldl xs).2

end RunningMean

namespace Estimate

variable {α : Type} [Scalar α]

def pooled (parts : List (Summary α)) : Estimate α := parts.foldl feed empty

theorem pooled_concat (parts : List (Summary α)) (s : Summary α) :
    pooled (parts ++ [s]) = (pooled parts).feed s := List.foldl_concat ..

theorem pooled_mean (parts : List (Summary α)) :
    (pooled parts).mean = (parts.map Summary.mean).foldl RunningMean.feed .empty := by
  rw [List.foldl_map]
  exact (List.foldl_hom mean fun _ _ => rfl).symm

theorem pooled_variance (parts : List (Summary α)) :
    (pooled parts).variance.pooled =
      (parts.map fun s => nonneg s.variance).foldl RunningMean.feed .empty := by
  rw [List.foldl_map]
  exact (List.foldl_hom (fun e : Estimate α => e.variance.pooled) fun _ _ => rfl).symm

theorem pooled_deviation (parts : List (Summary α)) :
    (pooled parts).deviation.squares =
      (parts.map fun s => s.stdev * s.stdev).foldl RunningMean.feed .empty := by
  rw [List.foldl_map]
  exact (List.foldl_hom (fun e : Estimate α => e.deviation.squares) fun _ _ => rfl).symm

/-- Pooled figures of series are averages of the figures of each: of the means, of the variances,
and of the squared deviations. -/
theorem exact_pooled {parts : List (List ℝ)} (some : parts ≠ []) (s : Summary ℝ) :
    let summaries := parts.map Summary.ofSamples
    let pooled := (pooled summaries).apply s
    pooled.mean = average (summaries.map Summary.mean) ∧
      pooled.variance = average (summaries.map Summary.variance) ∧
      pooled.stdev ^ 2 = average (summaries.map fun s => s.stdev ^ 2) := by
  intro summaries merged
  have summarised : summaries ≠ [] := mt List.map_eq_nil_iff.1 some
  have variances : summaries.map (fun s => nonneg s.variance) = summaries.map Summary.variance := by
    refine List.map_congr_left fun s mem => ?_
    obtain ⟨xs, -, rfl⟩ := List.mem_map.1 mem
    rw [exact_nonneg]
    exact max_eq_left (exact_variance_nonneg (ordered xs))
  refine ⟨?_, ?_, ?_⟩
  · change (Estimate.pooled summaries).mean.mean = _
    rw [pooled_mean, RunningMean.mean_foldl (mt List.map_eq_nil_iff.1 summarised)]
  · change (Estimate.pooled summaries).variance.pooled.mean = _
    rw [pooled_variance, variances, RunningMean.mean_foldl (mt List.map_eq_nil_iff.1 summarised)]
  · change (Real.sqrt (nonneg (Estimate.pooled summaries).deviation.squares.mean)) ^ 2 = _
    have squares : (fun s : Summary ℝ => s.stdev ^ 2) = fun s => s.stdev * s.stdev := by
      funext s
      exact pow_two _
    rw [squares, pooled_deviation, RunningMean.mean_foldl (mt List.map_eq_nil_iff.1 summarised),
      exact_nonneg, Real.sq_sqrt (le_max_right _ _)]
    refine max_eq_left (div_nonneg (List.sum_nonneg fun y mem => ?_) (Nat.cast_nonneg _))
    obtain ⟨s, -, rfl⟩ := List.mem_map.1 mem
    exact mul_self_nonneg _

end Estimate

end Stats

end BenchReport
