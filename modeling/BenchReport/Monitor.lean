import BenchReport.Grouped
import BenchReport.Metric.Row
set_option autoImplicit false

namespace BenchReport

inductive MonitorKind where
  | cpu
  | memory
  deriving DecidableEq

namespace MonitorKind

def all : List MonitorKind := [.cpu, .memory]

def name : MonitorKind → String
  | .cpu => "cpu"
  | .memory => "memory"

def codec : Codec MonitorKind := Codec.word all name

end MonitorKind

/-- What a monitor sampled in a stage: memory in bytes, processor use in percent. -/
structure MonitorSeries where
  stage : String
  name : String
  kind : MonitorKind
  samples : List Float
  /-- Whether memory per user is derived from it. -/
  perUser : Bool
  deriving BEq, DecidableEq

def MonitorSeries.codec : Codec MonitorSeries :=
  Codec.record "MonitorSeries"
    (MonitorSeries.mk
      <$> Fields.required "stage" Codec.text stage
      <*> Fields.required "name" Codec.text name
      <*> Fields.required "group" MonitorKind.codec kind
      <*> Fields.defaulted "samples" Codec.float.list samples []
      <*> Fields.defaulted "visibility" Codec.bool perUser false)

/-- The figures of a monitor in a stage, or without one over the session. -/
structure MonitorFigures where
  stage : Option String
  name : String
  kind : MonitorKind
  stats : Summary Float
  deriving BEq

namespace MonitorFigures

def codec : Codec MonitorFigures :=
  Codec.record "MonitorFigures"
    (MonitorFigures.mk
      <$> Fields.nullable "stage" Codec.text stage
      <*> Fields.required "name" Codec.text name
      <*> Fields.required "group" MonitorKind.codec kind
      <*> Fields.required "stats" Summary.codec stats)

def ofSamples (stage : Option String) (name : String) (kind : MonitorKind) (samples : List Float) :
    MonitorFigures :=
  ⟨stage, name, kind, (Summary.ofSamples samples).sanitized⟩

def row (f : MonitorFigures) : MonitorRow where
  stage := f.stage
  name := f.name
  group := f.kind.name
  mean := f.stats.mean
  median := f.stats.median
  max := f.stats.maximum
  min := f.stats.minimum
  stdev := f.stats.stdev
  variance := f.stats.variance
  quantiles := Table.ofList (Stats.levelNames.zip f.stats.quantiles.toList)

end MonitorFigures

structure MonitorReport where
  stages : List MonitorFigures
  session : List MonitorFigures
  perUser : List MonitorFigures
  deriving BEq

namespace MonitorReport

def codec : Codec MonitorReport :=
  Codec.record "MonitorReport"
    (MonitorReport.mk
      <$> Fields.required "stages" MonitorFigures.codec.list stages
      <*> Fields.required "session" MonitorFigures.codec.list session
      <*> Fields.required "mb_per_vu" MonitorFigures.codec.list perUser)

/-- The samples of several series, one series after another. -/
def samplesOf (series : List MonitorSeries) : List Float := series.flatMap MonitorSeries.samples

/-- One entry for each monitor of each stage. -/
def byStage (series : List MonitorSeries) : List MonitorFigures :=
  (Grouped.ofList (fun s => (s.stage, s.name, s.kind)) series).map fun g =>
    MonitorFigures.ofSamples (some g.1.1) g.1.2.1 g.1.2.2 (samplesOf g.2)

/-- One entry for each monitor, its samples of all stages together. -/
def bySession (series : List MonitorSeries) : List MonitorFigures :=
  (Grouped.ofList (fun s => (s.name, s.kind)) series).map fun g =>
    MonitorFigures.ofSamples none g.1.1 g.1.2 (samplesOf g.2)

/-- The bytes in a megabyte. -/
def megabyte : Float := 1024.0 * 1024.0

/-- The memory in megabytes per user, where a memory series asks for it and the number of users of
its stage is known. -/
def perUserOf (users : Table String UInt64) (s : MonitorSeries) : Option MonitorFigures :=
  if s.kind = .memory ∧ s.perUser = true then
    match users.get? s.stage with
    | none => none
    | some n =>
      if n = 0 then none
      else
        let divisor := megabyte * Double.ofCount n
        some (MonitorFigures.ofSamples (some s.stage) (s.name ++ "_mb_per_vu") .memory
          (s.samples.map (· / divisor)))
  else none

/-- The report on all series, given how many users the stages had. -/
def ofSeries (series : List MonitorSeries) (users : Table String UInt64) : MonitorReport where
  stages := byStage series
  session := bySession series
  perUser := series.filterMap (perUserOf users)

def isEmpty (r : MonitorReport) : Bool :=
  r.stages.isEmpty && r.session.isEmpty && r.perUser.isEmpty

def stageRows (r : MonitorReport) : List MonitorRow :=
  (r.stages ++ r.perUser).map MonitorFigures.row

def sessionRows (r : MonitorReport) : List MonitorRow := r.session.map MonitorFigures.row

end MonitorReport

end BenchReport
