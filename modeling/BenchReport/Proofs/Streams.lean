import BenchReport.Proofs.Stats.Ordered
import BenchReport.Stats.Summary
import BenchReport.Stream.Overview
import Mathlib
set_option autoImplicit false

namespace BenchReport

namespace Summary

/-- What the figures of a summary are of a series in ascending order. -/
structure FiguresOf (s : Summary Float) (v : List Float) : Prop where
  minimum : Stats.Extreme (· ≤ ·) s.minimum v
  maximum : Stats.Extreme (· ≥ ·) s.maximum v
  mean : s.mean = Scalar.sum v / Scalar.ofNat v.length
  variance : s.variance = Stats.variance v
  stdev : s.stdev = Scalar.sqrt s.variance
  median : s.median = Stats.quantile v (Scalar.ofNat 1 / Scalar.ofNat 2)
  quantiles : ∀ (i : Nat) (level : i < 13),
    s.quantiles[i] = Stats.quantile v (Scalar.ofNat Stats.levels[i] / Scalar.ofNat 100)

theorem FiguresOf.unique {s t : Summary Float} {v : List Float} (first : s.FiguresOf v)
    (second : t.FiguresOf v) : s = t := by
  have quantiles : s.quantiles = t.quantiles := by
    apply Vector.ext
    intro i level
    rw [first.quantiles i level, second.quantiles i level]
  have variance : s.variance = t.variance := by rw [first.variance, second.variance]
  rw [Summary.mk.injEq]
  refine ⟨?_, ?_, variance, ?_, first.minimum.unique second.minimum,
    first.maximum.unique second.maximum, quantiles⟩
  · rw [first.median, second.median]
  · rw [first.mean, second.mean]
  · rw [first.stdev, second.stdev, variance]

/-- The summary of a series is that of the values which count, put in ascending order. -/
theorem ofSamples_figures (xs : List Float) :
    ∃ v : List Float, v.Perm (Stats.counted xs) ∧ Stats.Ascending v ∧
      (ofSamples xs).FiguresOf v := by
  have ascending := Stats.ordered_ascending xs
  have perm := Stats.ordered_perm_counted xs
  have sampled : Stats.ordered xs ≠ [] :=
    fun none => Stats.counted_ne_nil xs (none ▸ perm).symm.eq_nil
  refine ⟨Stats.ordered xs, perm, ascending, ?_⟩
  constructor
  · exact ascending.first sampled _
  · exact ascending.last sampled _
  · show Stats.mean (Stats.ordered xs) = _
    rw [Stats.mean, if_neg (mt List.isEmpty_iff.1 sampled)]
  · rfl
  · rfl
  · rfl
  · intro i level
    exact Vector.getElem_map _ level

theorem ofSamples_of_finite {xs ys : List Float} (same : Stats.SameFinite xs ys) :
    ofSamples xs = ofSamples ys := by
  obtain ⟨v, v_perm, v_ascending, figures⟩ := ofSamples_figures xs
  obtain ⟨w, w_perm, w_ascending, figures'⟩ := ofSamples_figures ys
  have perm : v.Perm w := (v_perm.trans same.counted).trans w_perm.symm
  rw [← v_ascending.unique w_ascending perm] at figures'
  exact figures.unique figures'

end Summary

namespace StreamOverview

variable {streams streams' : List StreamSeries}

/-- An overview depends on the finite values of each measure only. -/
theorem ofStreams_of_finite
    (kept : ∀ m : Measure,
      Stats.SameFinite (streams.flatMap fun s => m.values s) (streams'.flatMap fun s => m.values s))
    (stage : String) : ofStreams stage streams = ofStreams stage streams' := by
  have figures (m : Measure) : figuresOf streams m = figuresOf streams' m := by
    rw [figuresOf, figuresOf, Summary.ofSamples_of_finite (kept m)]
  simp only [ofStreams, figures]

theorem ofStreams_perm (perm : streams.Perm streams') (stage : String) :
    ofStreams stage streams = ofStreams stage streams' :=
  ofStreams_of_finite (fun _ => Stats.sameFinite_of_perm (perm.flatMap_right _)) stage

end StreamOverview

end BenchReport
