import BenchReport.Report.Payload
import BenchReport.Session.Source
import BenchReport.Session.StageTally
set_option autoImplicit false

namespace BenchReport

/-- What one stage comes to. -/
structure StageBlock where
  stage : String
  facts : StageFacts
  actions : List ActionMetrics
  events : List Event
  streams : List StreamSeries
  overview : StageOverview

/-- What a session comes to. -/
structure SessionReport where
  payload : Payload
  overviews : List StageOverview

namespace StageBlock

/-- The frozen tallies of a worker's results. -/
def tallyOf (stage : String) (w : WorkerOutput) : Except Error StageTally :=
  StageTally.freeze <$> w.results.foldlM StageTally.ingest (StageTally.empty stage)

/-- A worker's stream. -/
def seriesOf (w : WorkerOutput) : Except Error StreamSeries :=
  w.streams.foldlM (fun s b => s.add b.counts b.elapsed) StreamSeries.empty

/-- Adds a worker to the tallies and the streams of those before. -/
def addWorker (stage : String) (sofar : StageTally × List StreamSeries) (w : WorkerOutput) :
    Except Error (StageTally × List StreamSeries) := do
  let tally ← tallyOf stage w
  let series ← seriesOf w
  return (sofar.1.merge tally, if series.isEmpty then sofar.2 else sofar.2 ++ [series])

/-- The tallies of all workers merged, and the streams that are not empty. -/
def mergeWorkers (stage : String) (workers : List WorkerOutput) :
    Except Error (StageTally × List StreamSeries) :=
  workers.foldlM (addWorker stage) (StageTally.empty stage, [])

/-- The tallies with the tags of the stored actions. -/
def tagged (tally : StageTally) (actions : List Action) : StageTally :=
  actions.foldl (fun t a => t.addTags a.name a.tags) tally

/-- What a stage comes to, from all that is known of it. -/
def ofStage (stage : String) (facts : StageFacts) (stored : List Action)
    (workers : List WorkerOutput) : Except Error StageBlock := do
  let (tally, streams) ← mergeWorkers stage workers
  let tally := tagged tally stored
  let (actions, events) ←
    if tally.isEmpty then pure ([], []) else tally.parts facts.elapsed facts.custom
  let overview ← StageOverview.ofStage stage actions streams
  return ⟨stage, facts, actions, events, streams, overview⟩

/-- The stage's overview as the outcome of the variant it ran. -/
def outcome? (b : StageBlock) : Option (Experiment × Outcome Float) :=
  b.facts.experiment.map fun a => (a.experiment, Outcome.ofStage a.variant b.overview)

/-- How many users the stage had, if it is one that executes. -/
def users? (b : StageBlock) : Option (String × UInt64) :=
  if b.facts.kind = .execute then b.facts.users.map (b.stage, ·) else none

/-- The stage's streams put together, if there are any. -/
def streams? (b : StageBlock) : Option (String × StreamOverview) :=
  if b.streams.isEmpty then none else some (b.stage, StreamOverview.ofStreams b.stage b.streams)

end StageBlock

namespace SessionReport

/-- The report on stages, in the order they ran. -/
def ofBlocks (blocks : List StageBlock) : Except Error SessionReport := do
  let experiments ← ExperimentReport.ofAll (blocks.filterMap StageBlock.outcome?)
  return {
    payload := {
      events := blocks.flatMap StageBlock.events
      actions := blocks.flatMap StageBlock.actions
      streams := Table.ofList (blocks.filterMap StageBlock.streams?)
      experiments
      monitors := MonitorReport.ofSeries (blocks.flatMap fun b => b.facts.monitors)
        (Table.ofList (blocks.filterMap StageBlock.users?)) }
    overviews := blocks.map StageBlock.overview }

end SessionReport

namespace Source

variable {σ : Type}

/-- Loads a stage and sums it up. -/
def block (s : Source σ) (stage : String) : Call σ StageBlock := do
  let facts ← s.facts stage
  let actions ← s.actions stage
  let workers ← s.results stage
  (StageBlock.ofStage stage facts actions workers : Except Error StageBlock)

/-- Loads and sums up one stage after another. -/
def blocks (s : Source σ) : List String → Call σ (List StageBlock)
  | [] => return []
  | stage :: rest => do
    let b ← s.block stage
    let bs ← s.blocks rest
    return b :: bs

/-- The report on all stages of a source that is connected. -/
def report (s : Source σ) : Call σ SessionReport := do
  let stages ← s.stages
  let blocks ← s.blocks stages
  (SessionReport.ofBlocks blocks : Except Error SessionReport)

/-- Connects to a source, reports on its stages and closes it, whatever came of the report. A failed
report is told before a failed close. -/
def collect (s : Source σ) : Call σ SessionReport := ExceptT.mk do
  match ← s.connect.run with
  | .error e => return .error e
  | .ok () =>
    let report ← s.report.run
    let closed ← s.close.run
    return match report, closed with
      | .error e, _ => .error e
      | .ok _, .error e => .error e
      | .ok r, .ok () => .ok r

end Source

end BenchReport
