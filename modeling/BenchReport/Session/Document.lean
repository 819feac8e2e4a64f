import BenchReport.Event.Observation
import BenchReport.Experiment.Plan
import BenchReport.Monitor
import BenchReport.Stream.Series
set_option autoImplicit false

namespace BenchReport

inductive StageKind where
  | setup
  | warmup
  | execute
  | teardown
  deriving DecidableEq

namespace StageKind

def all : List StageKind := [.setup, .warmup, .execute, .teardown]

def name : StageKind → String
  | .setup => "setup"
  | .warmup => "warmup"
  | .execute => "execute"
  | .teardown => "teardown"

def codec : Codec StageKind := Codec.word all name

end StageKind

structure StageFacts where
  stage : String
  kind : StageKind
  /-- How many seconds the stage took. -/
  elapsed : Float
  /-- How many virtual users took part. -/
  users : Option UInt64
  custom : List CustomMetric
  monitors : List MonitorSeries
  experiment : Option Assignment
  deriving DecidableEq

namespace StageFacts

def codec : Codec StageFacts :=
  Codec.record "StageFacts"
    (StageFacts.mk
      <$> Fields.required "stage" Codec.text stage
      <*> Fields.defaulted "stage_type" StageKind.codec kind .execute
      <*> Fields.required "total_elapsed" Codec.float StageFacts.elapsed
      <*> Fields.optional "batch_size" Codec.count users
      <*> Fields.defaulted "custom_metrics" CustomMetric.codec.list custom []
      <*> Fields.defaulted "monitors" MonitorSeries.codec.list monitors []
      <*> Fields.optional "experiment" Assignment.codec experiment)

end StageFacts

/-- An interval of a worker's stream. -/
structure StreamInterval where
  counts : IntervalCounts
  elapsed : Float
  deriving DecidableEq

def StreamInterval.codec : Codec StreamInterval :=
  Codec.record "StreamInterval"
    (StreamInterval.mk
      <$> Fields.inline IntervalCounts.fields counts
      <*> Fields.required "batch_elapsed" Codec.float StreamInterval.elapsed)

/-- All that a worker left behind in a stage. -/
structure WorkerOutput where
  worker : UInt32
  results : List Observation
  streams : List StreamInterval
  deriving DecidableEq

def WorkerOutput.codec : Codec WorkerOutput :=
  Codec.record "WorkerOutput"
    (WorkerOutput.mk
      <$> Fields.required "worker" Codec.word32 worker
      <*> Fields.defaulted "results" Observation.codec.list results []
      <*> Fields.defaulted "streams" StreamInterval.codec.list streams [])

structure RecordedStage where
  facts : StageFacts
  actions : List Json
  data : List Json
  workers : List WorkerOutput
  deriving BEq

def RecordedStage.codec : Codec RecordedStage :=
  Codec.record "RecordedStage"
    (RecordedStage.mk
      <$> Fields.required "summary" StageFacts.codec facts
      <*> Fields.defaulted "actions" Codec.json.list actions []
      <*> Fields.defaulted "data" Codec.json.list data []
      <*> Fields.defaulted "workers" WorkerOutput.codec.list workers [])

/-- The stages in the order they ran. -/
structure RecordedSession where
  stages : List RecordedStage
  deriving BEq

namespace RecordedSession

def codec : Codec RecordedSession :=
  Codec.record "RecordedSession"
    (RecordedSession.mk <$> Fields.defaulted "stages" RecordedStage.codec.list stages [])

/-- The first stage of a name. -/
def find? (s : RecordedSession) (name : String) : Option RecordedStage :=
  s.stages.find? fun stage => stage.facts.stage == name

end RecordedSession

end BenchReport
