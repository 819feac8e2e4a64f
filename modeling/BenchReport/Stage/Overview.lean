import BenchReport.Metric.Action
import BenchReport.Stage.Bins
import BenchReport.Stream.Series
set_option autoImplicit false

namespace BenchReport

structure StageOverview where
  stage : String
  total : UInt64
  succeeded : UInt64
  failed : UInt64
  /-- Actions per second. -/
  rate : Float
  /-- The mean duration of each phase over all actions. -/
  phaseMeans : PerPhase (Option Float)
  completedBins : List UInt64
  succeededBins : List UInt64
  failedBins : List UInt64
  elapsedBins : List Float
  rateBins : List Float
  deriving BEq

namespace StageOverview

def codec : Codec StageOverview :=
  Codec.record "StageOverview"
    (StageOverview.mk
      <$> Fields.required "stage" Codec.text stage
      <*> Fields.required "total" Codec.count total
      <*> Fields.required "succeeded" Codec.count succeeded
      <*> Fields.required "failed" Codec.count failed
      <*> Fields.required "actions_per_second" Codec.float rate
      <*> Fields.required "phase_means" (PerPhase.codec Codec.float) phaseMeans
      <*> Fields.required "streamed_completed" Codec.count.list completedBins
      <*> Fields.required "streamed_succeeded" Codec.count.list succeededBins
      <*> Fields.required "streamed_failed" Codec.count.list failedBins
      <*> Fields.required "streamed_batch_timings" Codec.float.list elapsedBins
      <*> Fields.required "streamed_completion_rates" Codec.float.list rateBins)

/-- A counter summed over all actions. -/
def sumOf (get : Counts → UInt64) (actions : List ActionMetrics) : Except Error UInt64 :=
  Counter.sum (actions.map fun a => get a.counts)

/-- The rates of all actions together. -/
def sumRates (actions : List ActionMetrics) : Float :=
  actions.foldl (fun x a => x + a.counts.rate) 0.0

/-- The time all actions spent in a phase: each action's mean, as often as it counted. -/
def timeIn (actions : List ActionMetrics) (p : Phase) : Option Float :=
  actions.foldl
    (fun sum a => match a.phases.get p with
      | none => sum
      | some m => some (sum.getD 0.0 + m.stats.mean * Double.ofCount a.counts.total))
    none

/-- The rate of each bin; a bin without a length of its own counts as a second. -/
def ratesOf : List UInt64 → List Float → List Float
  | [], _ => []
  | n :: ns, ts =>
    Scalar.finite (Double.ofCount n / Scalar.divisor (ts.headD 0.0)) :: ratesOf ns ts.tail

/-- The overview of a stage's actions and streams. -/
def ofStage (stage : String) (actions : List ActionMetrics) (streams : List StreamSeries) :
    Except Error StageOverview := do
  let total ← sumOf Counts.total actions
  let succeeded ← sumOf Counts.succeeded actions
  let failed ← sumOf Counts.failed actions
  let settled ← Counter.add succeeded failed
  if total != settled then throw (.counts stage total succeeded failed)
  let completedBins ← Bins.addAll Counter.add 0 (streams.map StreamSeries.completed)
  let succeededBins ← Bins.addAll Counter.add 0 (streams.map StreamSeries.succeeded)
  let failedBins ← Bins.addAll Counter.add 0 (streams.map StreamSeries.failed)
  let elapsedBins ← Bins.addAll (fun x y => .ok (x + y)) 0.0 (streams.map StreamSeries.elapsed)
  let completedBins ← Bins.reconcile completedBins total
  let succeededBins ← Bins.reconcile succeededBins succeeded
  let failedBins ← Bins.reconcile failedBins failed
  return {
    stage, total, succeeded, failed
    rate := Scalar.round2 (Scalar.finite (sumRates actions))
    phaseMeans := PerPhase.ofFn fun p =>
      (timeIn actions p).map fun t =>
        Scalar.finite (t / Scalar.divisor (Double.ofCount total))
    completedBins, succeededBins, failedBins, elapsedBins
    rateBins := ratesOf completedBins elapsedBins }

end StageOverview

end BenchReport
