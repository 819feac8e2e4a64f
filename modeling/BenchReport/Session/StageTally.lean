import BenchReport.Metric.Action
set_option autoImplicit false

namespace BenchReport

/-- The tallies of all actions of a stage, by action name. -/
structure StageTally where
  stage : String
  tallies : Table String Tally
  deriving BEq

namespace StageTally

def empty (stage : String) : StageTally := ⟨stage, Table.empty⟩

def isEmpty (s : StageTally) : Bool := s.tallies.isEmpty

/-- The tally of an action, empty if it has none yet. -/
def tallyOf (s : StageTally) (action : String) : Tally :=
  (s.tallies.get? action).getD (Tally.empty action s.stage)

/-- Makes an event of an observation and hands it to the tally of its action. -/
def ingest (s : StageTally) (o : Observation) : Except Error StageTally := do
  let e ← Event.ofObservation o s.stage
  let t ← (s.tallyOf e.name).ingest e
  return { s with tallies := s.tallies.insert e.name t }

/-- Freezes all tallies. -/
def freeze (s : StageTally) : StageTally := { s with tallies := s.tallies.map Tally.freeze }

/-- Merges the tallies of each action. -/
def merge (s u : StageTally) : StageTally :=
  { s with
    tallies := u.tallies.entries.foldl
      (fun tallies e => tallies.alter e.1 fun
        | none => e.2
        | some t => t.merge e.2)
      s.tallies }

/-- Adds tags to the tally of an action that has one. -/
def addTags (s : StageTally) (action : String) (tags : List Tag) : StageTally :=
  { s with tallies := s.tallies.modify action (·.addTags tags) }

/-- The metrics of one tally, its quantiles taken anew, and the events it counted. -/
def part (t : Tally) (elapsed : Float) (custom : List CustomMetric) :
    Except Error (ActionMetrics × List Event) := do
  let t := t.takeQuantiles
  let m ← ActionMetrics.ofTally t elapsed custom
  return (m, t.events)

/-- The metrics of all actions in the order of their names, and all events. -/
def parts (s : StageTally) (elapsed : Float) (custom : List CustomMetric) :
    Except Error (List ActionMetrics × List Event) := do
  let parts ← s.tallies.values.mapM fun t => part t elapsed custom
  return (parts.map (·.1), parts.flatMap (·.2))

end StageTally

end BenchReport
