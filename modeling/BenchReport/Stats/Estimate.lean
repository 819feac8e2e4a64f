import BenchReport.Stats.Running
import BenchReport.Stats.Sketch
import BenchReport.Stats.Summary
set_option autoImplicit false

namespace BenchReport.Stats

variable {α : Type} [Scalar α]

/-- The central figures of a series that several workers hold parts of, estimated from the figures
of the parts. Each part has the same weight, whatever its size. -/
structure Estimate (α : Type) where
  median : MedianSketch
  mean : RunningMean α
  variance : RunningVariance α
  deviation : RunningDeviation α
  deriving BEq, DecidableEq

namespace Estimate

def empty : Estimate α := ⟨.empty, .empty, .empty, .empty⟩

/-- Feeds the central figures of a further part. -/
def feed (e : Estimate α) (s : Summary α) : Estimate α where
  median := e.median.feed s.median
  mean := e.mean.feed s.mean
  variance := e.variance.feed s.variance
  deviation := e.deviation.feed s.stdev

/-- The summary with the estimated central figures. -/
def apply (e : Estimate α) (s : Summary α) : Summary α :=
  { s with
    median := e.median.value
    mean := e.mean.mean
    variance := e.variance.value
    stdev := e.deviation.value }

end Estimate

end BenchReport.Stats
