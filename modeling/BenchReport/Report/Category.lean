import BenchReport.Json.Codec
set_option autoImplicit false

namespace BenchReport

inductive Category where
  | events
  | common
  | metrics
  | custom
  | errors
  | streams
  | experiments
  | variants
  | mutations
  | sessionMonitors
  | stageMonitors
  deriving DecidableEq

namespace Category

def all : List Category :=
  [.events, .common, .metrics, .custom, .errors, .streams, .experiments, .variants, .mutations,
    .sessionMonitors, .stageMonitors]

theorem mem_all (c : Category) : c ∈ all := by cases c <;> decide

theorem nodup_all : all.Nodup := by decide

/-- The word for a category. -/
def name : Category → String
  | .events => "events"
  | .common => "common"
  | .metrics => "metrics"
  | .custom => "custom"
  | .errors => "errors"
  | .streams => "streams"
  | .experiments => "experiments"
  | .variants => "variants"
  | .mutations => "mutations"
  | .sessionMonitors => "session_system_metrics"
  | .stageMonitors => "stage_system_metrics"

/-- The step that hands a category over. -/
def step (c : Category) : String := "submit_" ++ c.name

/-- The name under which a backend stores a category. -/
def store : Category → String
  | .common => "shared"
  | c => c.name

theorem store_injective {c d : Category} (h : c.store = d.store) : c = d := by
  cases c <;> cases d <;> first | rfl | exact absurd h (by decide)

def codec : Codec Category := Codec.word all name

end Category

end BenchReport
