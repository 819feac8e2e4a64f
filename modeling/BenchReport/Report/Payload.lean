import BenchReport.Experiment.Report
import BenchReport.Monitor
import BenchReport.Stream.Overview
set_option autoImplicit false

namespace BenchReport

structure Payload where
  events : List Event
  actions : List ActionMetrics
  /-- The streams by stage. -/
  streams : Table String StreamOverview
  experiments : List (ExperimentReport Float)
  monitors : MonitorReport

namespace Payload

def empty : Payload := ⟨[], [], Table.empty, [], ⟨[], [], []⟩⟩

/-- Whether there is anything to deliver in a category. -/
def has (p : Payload) : Category → Bool
  | .events => !p.events.isEmpty
  | .common | .metrics => !p.actions.isEmpty
  | .custom => p.actions.any fun a => !a.custom.isEmpty
  | .errors => p.actions.any fun a => !a.errors.isEmpty
  | .streams => !p.streams.isEmpty
  | .experiments | .variants => !p.experiments.isEmpty
  | .mutations => p.experiments.any fun e => !e.mutations.isEmpty
  | .sessionMonitors => !p.monitors.session.isEmpty
  | .stageMonitors => !p.monitors.stages.isEmpty || !p.monitors.perUser.isEmpty

/-- The rows of a category. -/
def rows (p : Payload) : Category → List Json
  | .events => p.events.map Event.codec.write
  | .common => p.actions.map fun a => CountRow.codec.write a.countRow
  | .metrics => (p.actions.flatMap ActionMetrics.phaseRows).map PhaseRow.codec.write
  | .custom => (p.actions.filterMap ActionMetrics.customRow?).map CustomRow.codec.write
  | .errors => (p.actions.flatMap ActionMetrics.errorRows).map ErrorRow.codec.write
  | .streams => (p.streams.values.flatMap StreamOverview.rows).map StreamRow.codec.write
  | .experiments => p.experiments.map fun e => ExperimentRow.codec.write e.experiment
  | .variants => (ExperimentReport.variantRows p.experiments).map VariantRow.codec.write
  | .mutations => (ExperimentReport.allMutationRows p.experiments).map MutationRow.codec.write
  | .sessionMonitors => p.monitors.sessionRows.map MonitorRow.codec.write
  | .stageMonitors => p.monitors.stageRows.map MonitorRow.codec.write

end Payload

end BenchReport
