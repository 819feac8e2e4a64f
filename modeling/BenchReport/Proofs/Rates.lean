import BenchReport.Proofs.Experiments
import BenchReport.Proofs.Stats.Hundredths
set_option autoImplicit false

namespace BenchReport

namespace Double

open Float.Model UnpackedFloat

/-- A quotient of doubles is rounded to the limit or below up to half a unit above it. -/
theorem limited_div_iff {x y : Float} {n t : ℝ} (counted : exactly x = .real n) (nonneg : 0 ≤ n)
    (timed : exactly y = .real t) (positive : 0 < t) :
    Limited (x / y) ↔ n ≤ 11529215046068469 * 2 ^ (964 : Int) * t := by
  rcases exactly_cases timed with ⟨s', eq', none⟩ | ⟨s', m', e', h', eq', divisor⟩
  · exact absurd none positive.ne'
  rw [abs_of_pos positive] at divisor
  rcases exactly_cases counted with ⟨s, eq, rfl⟩ | ⟨s, m, e, h, eq, dividend⟩
  · have quotient : (x / y).toModel.unpack = .zero (s / s') := by
      change (pack (UnpackedFloat.div _ x.toModel.unpack y.toModel.unpack)).unpack = _
      rw [eq, eq']
      exact unpack_pack_zero _
    exact iff_of_true (limited_zero quotient) (by positivity)
  · rw [abs_of_nonneg nonneg] at dividend
    have nearest := isNearest_div eq eq'
    rw [← dividend, ← divisor] at nearest
    have unit : ((5764607523034234 : Nat) + 1 / 2) * (2 : ℝ) ^ (965 : Int) =
        11529215046068469 * 2 ^ (964 : Int) := by
      have doubled : (2 : ℝ) ^ (965 : Int) = 2 * 2 ^ (964 : Int) :=
        zpow_one_add₀ two_ne_zero 964
      rw [doubled, ← mul_assoc]
      norm_num only
    rw [Limited, hundredthsLimit_eq, nearest.le_iff (by decide) (by decide) (by decide) (by decide)
      (by decide), div_le_iff₀ positive, unit]

end Double

open Double

/-- The rate of an action is finite exactly as long as the action did not count too often for the
time it had. A stage has a finite rate exactly as long as the sum of its actions' rates can be taken
a hundredfold, and an experiment a finite median rate as long as the median of its variants' rates
can. -/
theorem rates_finite_iff (total : UInt64) (elapsed : Float) (stage : String)
    (actions : List ActionMetrics) (streams : List StreamSeries) (e : Experiment)
    (outcomes : List (Outcome Float)) :
    (∀ rate, actionsPerSecond total elapsed = .ok rate →
      ∃ n t : ℝ, exactly (ofCount total) = .real n ∧ exactly elapsed = .real t ∧
        0 ≤ n ∧ n ≤ 2 ^ 64 ∧ 0 < t ∧
        (rate.isFinite = true ↔ n ≤ 11529215046068469 * 2 ^ (964 : Int) * t)) ∧
    (∀ o, StageOverview.ofStage stage actions streams = .ok o →
      (o.rate.isFinite = true ↔ Limited (Scalar.finite (StageOverview.sumRates actions)))) ∧
    ∀ r, ExperimentReport.ofOutcomes e outcomes = .ok r →
      (r.experiment.medianRate.isFinite = true ↔
        Limited (Stats.quantile
          ((outcomes.map fun o => Scalar.finite o.turnout.rate).mergeSort Scalar.before)
          (Scalar.ofNat 1 / Scalar.ofNat 2))) := by
  refine ⟨?_, ?_, ?_⟩
  · intro rate made
    rw [actionsPerSecond] at made
    split at made
    · cases made
    · rename_i admitted
      cases made
      obtain ⟨m, e, h, eq⟩ := ((positive_iff elapsed).2 (by simpa using admitted)).unpack
      obtain ⟨n, counted, nonneg, bound⟩ := exactly_ofCount total
      have timed : exactly elapsed = .real (m * 2 ^ e) := by
        rw [exactly_finite eq]
        simp [Float.Model.UnpackedFloat.Sign.apply]
      have positive : (0 : ℝ) < m * 2 ^ e := by positivity
      exact ⟨n, _, counted, timed, nonneg, bound, positive,
        (isFinite_round2 _).trans (limited_div_iff counted nonneg timed positive)⟩
  · intro o made
    rw [(StageOverview.ofStage_ok_iff.1 made).rate]
    exact isFinite_round2 _
  · intro r made
    obtain ⟨whole, -, rfl⟩ := ExperimentReport.ofOutcomes_ok_iff.1 made
    have rates : ((outcomes.map Outcome.turnout).map fun t => Scalar.finite t.rate) =
        outcomes.map fun o => Scalar.finite o.turnout.rate := List.map_map
    rw [← rates]
    exact isFinite_round2 _

def ActionMetrics.onceAt (rate : Float) : ActionMetrics where
  name := "login"
  source := ""
  stage := "execute"
  counts := ⟨1, 1, 0, rate⟩
  phases := PerPhase.ofFn fun _ => none
  custom := Table.empty
  errors := []
  tags := []
  quantiles := []

def Outcome.onceAt (rate : Float) : Outcome Float where
  variant := ⟨"control", 1.0, none, none, [], []⟩
  turnout := ⟨1, 1, 0, rate⟩

/-- The rates of an action that counted 500 times in a second, and of a stage and an experiment at
the greatest rate that can be taken a hundredfold. -/
theorem rates_finite_iff_greatest :
    (∃ rate, actionsPerSecond 500 1.0 = .ok rate ∧ rate.isFinite = true) ∧
    (∃ o, StageOverview.ofStage "execute" [.onceAt 1.7976931348623156e306] [] = .ok o ∧
      o.rate.isFinite = true) ∧
    ∃ r, ExperimentReport.ofOutcomes ⟨"checkout", false, []⟩ [.onceAt 1.7976931348623156e306] =
      .ok r ∧ r.experiment.medianRate.isFinite = true := by
  obtain ⟨actions, stages, experiments⟩ := rates_finite_iff 500 1.0 "execute"
    [.onceAt 1.7976931348623156e306] [] ⟨"checkout", false, []⟩ [.onceAt 1.7976931348623156e306]
  have unpacked : (1.7976931348623156e306 : Float).toModel.unpack =
      .finite .positive 5764607523034234 965 (by decide) := by
    have bits : (1.7976931348623156e306 : Float) = Float.ofBits 0x7f847ae147ae147a := by
      decide +kernel
    rw [bits]
    rfl
  have limited := (limited_iff unpacked).2 (le_refl _)
  have summed : Scalar.finite (StageOverview.sumRates [.onceAt 1.7976931348623156e306]) =
      1.7976931348623156e306 := by decide +kernel
  have kept : Scalar.finite (1.7976931348623156e306 : Float) = 1.7976931348623156e306 := by
    decide +kernel
  refine ⟨?_, ?_, ?_⟩
  · have made : actionsPerSecond 500 1.0 = .ok 500.0 := by decide +kernel
    obtain ⟨n, t, -, timed, -, bound, -, rate_iff⟩ := actions _ made
    have second : exactly 1.0 = .real 1 := by
      rw [exactly_finite unpack_one]
      norm_num [Float.Model.UnpackedFloat.Sign.apply]
    obtain rfl := Extended.real.inj (timed.symm.trans second)
    refine ⟨_, made, rate_iff.2 (bound.trans ?_)⟩
    calc (2 ^ 64 : ℝ) = 1 * 2 ^ (64 : Int) * 1 := by rw [one_mul, mul_one]; rfl
      _ ≤ 11529215046068469 * 2 ^ (964 : Int) * 1 := by gcongr <;> norm_num only
  · obtain ⟨o, made⟩ : ∃ o, StageOverview.ofStage "execute"
        [.onceAt 1.7976931348623156e306] [] = .ok o := ⟨_, rfl⟩
    refine ⟨o, made, (stages _ made).2 ?_⟩
    rwa [summed]
  · obtain ⟨r, made⟩ : ∃ r, ExperimentReport.ofOutcomes ⟨"checkout", false, []⟩
        [.onceAt 1.7976931348623156e306] = .ok r := ⟨_, rfl⟩
    refine ⟨r, made, (experiments r made).2 ?_⟩
    change Limited (Stats.quantile
      (List.mergeSort [Scalar.finite (1.7976931348623156e306 : Float)] Scalar.before) _)
    rw [List.mergeSort_singleton, kept]
    exact limited

/-- The rate of an action is infinite in a stage that took next to no time, and so are the rates of
a stage and an experiment whose only rate is great and finite. -/
theorem rates_not_finite :
    (∃ rate, actionsPerSecond 1 1e-310 = .ok rate ∧ rate.isFinite = false) ∧
    (1e308 : Float).isFinite = true ∧
    (∃ o, StageOverview.ofStage "execute" [.onceAt 1e308] [] = .ok o ∧
      o.rate.isFinite = false) ∧
    ∃ r, ExperimentReport.ofOutcomes ⟨"checkout", false, []⟩ [.onceAt 1e308] = .ok r ∧
      r.experiment.medianRate.isFinite = false := by
  have made : actionsPerSecond 1 1e-310 = .ok (1.0 / 0.0) := by decide +kernel
  refine ⟨⟨_, made, by decide +kernel⟩, by decide +kernel, ⟨_, rfl, by decide +kernel⟩, ⟨_, rfl, ?_⟩⟩
  change (Scalar.round2 (Stats.quantile
    (List.mergeSort [Scalar.finite (1e308 : Float)] Scalar.before) _)).isFinite = false
  rw [List.mergeSort_singleton]
  decide +kernel

end BenchReport
