import BenchReport.Metric.Custom
import BenchReport.Stats.Document
set_option autoImplicit false

namespace BenchReport

/-- The figures of one phase of an action, with the custom metrics declared for the phase. -/
structure PhaseRow where
  name : String
  stage : String
  group : String
  stats : Summary Float
  custom : Table String MetricValue
  deriving BEq

def PhaseRow.codec : Codec PhaseRow :=
  Codec.record "PhaseRow"
    (PhaseRow.mk
      <$> Fields.required "name" Codec.text name
      <*> Fields.required "stage" Codec.text stage
      <*> Fields.required "group" Codec.text group
      <*> Fields.inline Summary.document stats
      <*> Fields.others MetricValue.codec custom)

/-- The counters and the rate of an action. -/
structure CountRow where
  name : String
  stage : String
  group : String
  total : UInt64
  succeeded : UInt64
  failed : UInt64
  rate : Float
  deriving BEq

def CountRow.codec : Codec CountRow :=
  Codec.record "CountRow"
    (CountRow.mk
      <$> Fields.required "name" Codec.text name
      <*> Fields.required "stage" Codec.text stage
      <*> Fields.required "group" Codec.text group
      <*> Fields.required "total" Codec.count total
      <*> Fields.required "succeeded" Codec.count succeeded
      <*> Fields.required "failed" Codec.count failed
      <*> Fields.required "actions_per_second" Codec.float rate)

/-- All custom metrics of an action. -/
structure CustomRow where
  name : String
  stage : String
  group : String
  metrics : Table String MetricValue
  deriving BEq

def CustomRow.codec : Codec CustomRow :=
  Codec.record "CustomRow"
    (CustomRow.mk
      <$> Fields.required "name" Codec.text name
      <*> Fields.required "stage" Codec.text stage
      <*> Fields.required "group" Codec.text group
      <*> Fields.others MetricValue.codec metrics)

/-- One error of an action, and how often it occurred. -/
structure ErrorRow where
  name : String
  stage : String
  message : String
  count : UInt64
  deriving BEq, DecidableEq

def ErrorRow.codec : Codec ErrorRow :=
  Codec.record "ErrorRow"
    (ErrorRow.mk
      <$> Fields.required "name" Codec.text name
      <*> Fields.required "stage" Codec.text stage
      <*> Fields.required "error_message" Codec.text message
      <*> Fields.required "error_count" Codec.count count)

/-- The figures of one measure of a stage's streams. -/
structure StreamRow where
  name : String
  stage : String
  group : String
  stats : Summary Float
  deriving BEq

def StreamRow.codec : Codec StreamRow :=
  Codec.record "StreamRow"
    (StreamRow.mk
      <$> Fields.required "name" Codec.text name
      <*> Fields.required "stage" Codec.text stage
      <*> Fields.required "group" Codec.text group
      <*> Fields.inline Summary.document stats)

/-- The figures of a monitor; those of a whole session name no stage. -/
structure MonitorRow where
  stage : Option String
  name : String
  group : String
  mean : Float
  median : Float
  max : Float
  min : Float
  stdev : Float
  variance : Float
  quantiles : Table String Float
  deriving BEq

def MonitorRow.codec : Codec MonitorRow :=
  Codec.record "MonitorRow"
    (MonitorRow.mk
      <$> Fields.sparse "stage" Codec.text stage
      <*> Fields.required "name" Codec.text name
      <*> Fields.required "group" Codec.text group
      <*> Fields.required "mean" Codec.float mean
      <*> Fields.required "median" Codec.float median
      <*> Fields.required "max" Codec.float max
      <*> Fields.required "min" Codec.float min
      <*> Fields.required "stdev" Codec.float stdev
      <*> Fields.required "variance" Codec.float variance
      <*> Fields.others Codec.float quantiles)

end BenchReport
