import BenchReport.Error
import BenchReport.Json.Fields
import BenchReport.Scalar
set_option autoImplicit false

namespace BenchReport

/-- The counts of one interval, and the durations of the actions completed in it. -/
structure IntervalCounts where
  completed : UInt64
  succeeded : UInt64
  failed : UInt64
  timings : List Float
  deriving BEq, DecidableEq

namespace IntervalCounts

def fields : Fields IntervalCounts IntervalCounts :=
  IntervalCounts.mk
    <$> Fields.required "completed" Codec.count completed
    <*> Fields.required "succeeded" Codec.count succeeded
    <*> Fields.required "failed" Codec.count failed
    <*> Fields.defaulted "timings" Codec.float.list timings []

def codec : Codec IntervalCounts := Codec.record "IntervalCounts" fields

end IntervalCounts

/-- The intervals of one worker. All lists have an entry for each interval. -/
structure StreamSeries where
  rates : List Float
  completed : List UInt64
  succeeded : List UInt64
  failed : List UInt64
  /-- How long the intervals took. -/
  elapsed : List Float
  timings : List (List Float)
  deriving BEq, DecidableEq

namespace StreamSeries

def empty : StreamSeries := ⟨[], [], [], [], [], []⟩

/-- Adds an interval. It must have taken a positive time. -/
def add (s : StreamSeries) (n : IntervalCounts) (elapsed : Float) : Except Error StreamSeries :=
  if !elapsed.isFinite || decide (elapsed ≤ 0.0) then .error (.interval elapsed)
  else .ok {
    rates := s.rates ++ [Double.ofCount n.completed / elapsed]
    completed := s.completed ++ [n.completed]
    succeeded := s.succeeded ++ [n.succeeded]
    failed := s.failed ++ [n.failed]
    elapsed := s.elapsed ++ [elapsed]
    timings := s.timings ++ [n.timings] }

def size (s : StreamSeries) : Nat := s.completed.length

def isEmpty (s : StreamSeries) : Bool := s.completed.isEmpty

def codec : Codec StreamSeries :=
  Codec.record "StreamSeries"
    (StreamSeries.mk
      <$> Fields.required "completion_rates" Codec.float.list rates
      <*> Fields.required "completed_counts" Codec.count.list completed
      <*> Fields.required "succeeded_counts" Codec.count.list succeeded
      <*> Fields.required "failed_counts" Codec.count.list failed
      <*> Fields.required "batch_timings" Codec.float.list StreamSeries.elapsed
      <*> Fields.required "timings" Codec.float.list.list timings)

end StreamSeries

end BenchReport
