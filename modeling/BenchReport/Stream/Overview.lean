import BenchReport.Metric.Row
import BenchReport.Stream.Series
set_option autoImplicit false

namespace BenchReport

/-- What is measured in each interval. -/
inductive Measure where
  | completed
  | succeeded
  | failed
  | batchTime
  | completionRate
  deriving DecidableEq

namespace Measure

def all : List Measure := [.completed, .succeeded, .failed, .batchTime, .completionRate]

def name : Measure → String
  | .completed => "completed"
  | .succeeded => "succeeded"
  | .failed => "failed"
  | .batchTime => "batch_time"
  | .completionRate => "completion_rate"

def codec : Codec Measure := Codec.word all name

/-- The place of a measure among all. -/
def place : Measure → Nat
  | .completed => 0
  | .succeeded => 1
  | .failed => 2
  | .batchTime => 3
  | .completionRate => 4

instance : Ord Measure := ⟨compareOn place⟩

instance : Std.TransOrd Measure := inferInstanceAs (Std.TransCmp (compareOn place))

/-- What a worker measured, in the order of its intervals. -/
def values (s : StreamSeries) : Measure → List Float
  | .completed => s.completed.map Double.ofCount
  | .succeeded => s.succeeded.map Double.ofCount
  | .failed => s.failed.map Double.ofCount
  | .batchTime => s.elapsed
  | .completionRate => s.rates

end Measure

structure StreamOverview where
  stage : String
  figures : Table Measure (Summary Float)
  /-- Actions per second, from the median interval. -/
  rate : Float
  succeededRate : Float
  failedRate : Float
  quantiles : List String
  deriving BEq

namespace StreamOverview

def codec : Codec StreamOverview :=
  Codec.record "StreamOverview"
    (StreamOverview.mk
      <$> Fields.required "stage" Codec.text stage
      <*> Fields.required "groups"
        (Codec.table Measure.name (Codec.findWord Measure.all Measure.name) Summary.codec) figures
      <*> Fields.required "actions_per_second" Codec.float rate
      <*> Fields.required "actions_per_second_succeeded" Codec.float succeededRate
      <*> Fields.required "actions_per_second_failed" Codec.float failedRate
      <*> Fields.required "quantiles" Codec.text.list quantiles)

/-- The figures of a measure over all intervals of all workers. -/
def figuresOf (streams : List StreamSeries) (m : Measure) : Summary Float :=
  (Summary.ofSamples (streams.flatMap fun s => m.values s)).sanitized

/-- A measure's median per second, given the figures of the interval lengths. -/
def rateOf (figures interval : Summary Float) : Float :=
  Scalar.finite (Scalar.round2 (figures.median / Scalar.divisor interval.median))

/-- The overview of a stage. -/
def ofStreams (stage : String) (streams : List StreamSeries) : StreamOverview where
  stage
  figures := Table.ofList (Measure.all.map fun m => (m, figuresOf streams m))
  rate := rateOf (figuresOf streams .completed) (figuresOf streams .batchTime)
  succeededRate := rateOf (figuresOf streams .succeeded) (figuresOf streams .batchTime)
  failedRate := rateOf (figuresOf streams .failed) (figuresOf streams .batchTime)
  quantiles := Stats.levelNames

def name (o : StreamOverview) : String := o.stage ++ "_streams"

/-- All figures as one flat record: a figure is named by itself and its measure. -/
def record (o : StreamOverview) : Table String Float :=
  Table.ofList
    ((o.figures.entries.flatMap fun e => e.2.fields.map fun f => (f.1 ++ "_" ++ e.1.name, f.2)) ++
      [("actions_per_second", o.rate), ("actions_per_second_succeeded", o.succeededRate),
        ("actions_per_second_failed", o.failedRate)])

def rows (o : StreamOverview) : List StreamRow :=
  o.figures.entries.map fun e => ⟨o.name, o.stage, e.1.name, e.2⟩

end StreamOverview

end BenchReport
