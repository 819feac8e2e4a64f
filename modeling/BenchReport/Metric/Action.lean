import BenchReport.Metric.Row
import BenchReport.Tally
set_option autoImplicit false

namespace BenchReport

structure Counts where
  total : UInt64
  succeeded : UInt64
  failed : UInt64
  /-- Actions per second. -/
  rate : Float
  deriving BEq, DecidableEq

def Counts.codec : Codec Counts :=
  Codec.record "Counts"
    (Counts.mk
      <$> Fields.required "total" Codec.count total
      <*> Fields.required "succeeded" Codec.count succeeded
      <*> Fields.required "failed" Codec.count failed
      <*> Fields.required "actions_per_second" Codec.float rate)

/-- Actions per second, in hundredths. A stage that took no time has no rate. -/
def actionsPerSecond (total : UInt64) (elapsed : Float) : Except Error Float :=
  if !elapsed.isFinite || decide (elapsed ≤ 0.0) then .error (.elapsed elapsed)
  else .ok (Scalar.round2 (Double.ofCount total / elapsed))

structure ErrorCount where
  message : String
  count : UInt64
  deriving BEq, DecidableEq

def ErrorCount.codec : Codec ErrorCount :=
  Codec.record "ErrorCount"
    (ErrorCount.mk
      <$> Fields.required "message" Codec.text message
      <*> Fields.required "count" Codec.count count)

/-- The figures of one phase. -/
structure PhaseMetrics where
  phase : Phase
  stats : Summary Float
  custom : Table String MetricValue
  deriving BEq

def PhaseMetrics.codec : Codec PhaseMetrics :=
  Codec.record "PhaseMetrics"
    (PhaseMetrics.mk
      <$> Fields.required "phase" Phase.codec phase
      <*> Fields.required "stats" Summary.codec stats
      <*> Fields.defaulted "custom" MetricValue.codec.texts custom Table.empty)

structure ActionMetrics where
  name : String
  source : String
  stage : String
  counts : Counts
  phases : PerPhase (Option PhaseMetrics)
  custom : Table String CustomMetric
  errors : List ErrorCount
  tags : List Tag
  quantiles : List String
  deriving BEq

namespace ActionMetrics

def codec : Codec ActionMetrics :=
  Codec.record "ActionMetrics"
    (ActionMetrics.mk
      <$> Fields.required "name" Codec.text name
      <*> Fields.required "source" Codec.text source
      <*> Fields.required "stage" Codec.text stage
      <*> Fields.required "common_stats" Counts.codec counts
      <*> Fields.required "groups" (PerPhase.codec PhaseMetrics.codec) phases
      <*> Fields.required "custom_metrics" CustomMetric.codec.texts custom
      <*> Fields.required "errors" ErrorCount.codec.list errors
      <*> Fields.required "tags" Tag.codec.list tags
      <*> Fields.required "quantiles" Codec.text.list quantiles)

/-- The custom metrics by name, the last of a name; the first that is refused decides the error. -/
def collectCustom : List CustomMetric → Except Error (List (String × CustomMetric))
  | [] => .ok []
  | m :: rest => do
    m.validate
    let more ← collectCustom rest
    return (m.name, m.normalized) :: more

/-- The custom metrics that are declared for a phase. -/
def customOf (custom : Table String CustomMetric) (phase : Phase) : Table String MetricValue :=
  Table.ofList
    ((custom.values.filter fun m => m.group == phase.name).map fun m => (m.name, m.value))

/-- The metrics of a tally in a stage that took `elapsed` seconds. -/
def ofTally (t : Tally) (elapsed : Float) (declared : List CustomMetric) :
    Except Error ActionMetrics := do
  let rate ← actionsPerSecond t.total elapsed
  let custom := Table.ofList (← collectCustom declared)
  return {
    name := t.name
    source := t.source
    stage := t.stage
    counts := ⟨t.total, t.succeeded, t.failed, rate⟩
    phases := PerPhase.ofFn fun p =>
      some ⟨p, ((t.summaries.get p).getD .zero).sanitized, customOf custom p⟩
    custom
    errors := t.errors.entries.map fun e => ⟨e.1, e.2⟩
    tags := t.tags.tags
    quantiles := Stats.levelNames }

def phaseRows (m : ActionMetrics) : List PhaseRow :=
  m.phases.present.map fun e => ⟨m.name, m.stage, e.2.phase.name, e.2.stats, e.2.custom⟩

def countRow (m : ActionMetrics) : CountRow :=
  ⟨m.name, m.stage, "common", m.counts.total, m.counts.succeeded, m.counts.failed,
    Scalar.finite m.counts.rate⟩

/-- An action without custom metrics has no row of them. -/
def customRow? (m : ActionMetrics) : Option CustomRow :=
  if m.custom.isEmpty then none
  else some ⟨m.name, m.stage, CustomMetric.ownGroup,
    Table.ofList (m.custom.values.map fun c => (c.name, c.value))⟩

def errorRows (m : ActionMetrics) : List ErrorRow :=
  m.errors.map fun e => ⟨m.name, m.stage, e.message, e.count⟩

end ActionMetrics

end BenchReport
