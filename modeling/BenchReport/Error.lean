import BenchReport.Engine
import BenchReport.Phase
import BenchReport.Tag
import BenchReport.Report.Category
set_option autoImplicit false

namespace BenchReport

/-- What can be wrong with a file. -/
inductive FileFlaw where
  | absent
  | notText
  /-- A file stands where a folder is needed, or the other way round. -/
  | blocked
  /-- No file can have that path. -/
  | unfit
  deriving DecidableEq

inductive Error where
  | tag (text : String) (flaw : Tag.Flaw)
  | unknownEngine (text : String)
  /-- An observation names no engine. -/
  | noEngine
  /-- An observation names no action, or one of blanks. -/
  | noAction (engine : Engine)
  | timing (phase : Phase) (value : Float)
  /-- An event was handed to the tally of another action. -/
  | misrouted (action tally : String)
  | blankMetric
  /-- A custom metric would shadow a field of its row. -/
  | reservedMetric (name : String)
  | interval (elapsed : Float)
  | unknownStage (name : String)
  | actionForm
  | actionName
  | actionEngine (name : String)
  | actionFields (name : String) (fault : Json.Fault)
  /-- A job's own complaint. -/
  | job (text : String)
  | elapsed (value : Float)
  | counts (stage : String) (total succeeded failed : UInt64)
  | exhausted (outstanding : UInt64)
  | unsupported (backend : String) (category : Category)
  | backend (name message : String)
  /-- A step was given up because the run was cancelled. -/
  | abandoned (step : String)
  | poolClosed
  /-- A job ended without an answer. -/
  | jobLost
  | file (flaw : FileFlaw)
  | document (fault : Json.Fault)
  | noWorkers
  | blankKeyPrefix
  | unknownBackend (tag : String)
  /-- A backend could not be made of the settings. -/
  | refused (reason : String)
  | settingsFile (path : String)
  | settingsText
  /-- No pool can have so many workers. -/
  | poolSize (workers : UInt64)
  /-- A sum of counters has no place in 64 bits. -/
  | overflow
  deriving DecidableEq

namespace Error

inductive Kind where
  | invalidInput
  | invariant
  | unsupported
  | backend
  | cancelled
  | worker
  | file
  | document
  | settings
  /-- The run breaks off where it stands. -/
  | panic
  deriving DecidableEq

def kind : Error → Kind
  | .tag _ _ | .unknownEngine _ | .noEngine | .noAction _ | .timing _ _ | .misrouted _ _
  | .blankMetric | .reservedMetric _ | .interval _ | .unknownStage _ | .actionForm | .actionName
  | .actionEngine _ | .actionFields _ _ | .job _ => .invalidInput
  | .elapsed _ | .counts _ _ _ _ | .exhausted _ => .invariant
  | .unsupported _ _ => .unsupported
  | .backend _ _ => .backend
  | .abandoned _ | .poolClosed => .cancelled
  | .jobLost => .worker
  | .file _ => .file
  | .document _ => .document
  | .noWorkers | .blankKeyPrefix | .unknownBackend _ | .refused _ | .settingsFile _
  | .settingsText | .poolSize _ => .settings
  | .overflow => .panic

/-- The words a message of a kind starts with. -/
def Kind.opening : Kind → String
  | .invalidInput => "Invalid input: "
  | .invariant => "Invariant violation: "
  | .unsupported => "Reporter "
  | .backend => "Backend "
  | .cancelled => "Cancelled: "
  | .worker => "Worker task failed: "
  | .file => "IO error: "
  | .document => "JSON error: "
  | .settings => "Invalid configuration: "
  | .panic => ""

/-- A double as messages show it. -/
def shown (x : Float) : String := Decimal.Layout.message.text x

/-- The message without its opening. -/
def detail : Error → String
  | .tag text .noSeparator => s!"tag '{text}' is not of the form name:value"
  | .tag text .blankName => s!"tag '{text}' has an empty name"
  | .unknownEngine text => s!"unknown engine type '{text}'"
  | .noEngine => "result is missing its engine type"
  | .noAction engine => engine.name ++ " result is missing an action name"
  | .timing phase x =>
    phase.name ++ " timing must be a finite, non-negative number (got " ++ shown x ++ ")"
  | .misrouted action tally => s!"result for action '{action}' routed to group '{tally}'"
  | .blankMetric => "custom metric has an empty name"
  | .reservedMetric name => s!"custom metric '{name}' collides with a built-in record field"
  | .interval x => "stream interval must have a positive duration (got " ++ shown x ++ ")"
  | .unknownStage name => s!"no stored stage named '{name}'"
  | .actionForm => "action record must be a JSON object"
  | .actionName => "action record is missing its name"
  | .actionEngine name => s!"action '{name}' is missing its engine"
  | .actionFields name fault => s!"action '{name}' is malformed: " ++ fault.message
  | .job text => text
  | .elapsed x => "stage elapsed time must be positive to derive a rate (got " ++ shown x ++ ")"
  | .counts stage total succeeded failed =>
    s!"stage '{stage}' counts do not add up: total={total}, succeeded={succeeded}, failed={failed}"
  | .exhausted outstanding => s!"cannot remove {outstanding} more from exhausted stream bins"
  | .unsupported name category => s!"'{name}' does not support " ++ category.step
  | .backend name reason => s!"'{name}' failed: {reason}"
  | .abandoned step => s!"{step} abandoned"
  | .poolClosed => "worker pool is shut down"
  | .jobLost => "the job ended without an answer"
  | .file .absent => "no such file"
  | .file .notText => "not a text in UTF-8"
  | .file .blocked => "a file or a folder is in the way"
  | .file .unfit => "no path of a file"
  | .document fault => fault.message
  | .noWorkers => "workers must be at least 1"
  | .blankKeyPrefix => "reporter.redis.prefix must not be empty"
  | .unknownBackend text => s!"unknown reporter type '{text}' and no 'json' default registered"
  | .refused reason => reason
  | .settingsFile path => s!"cannot read {path}"
  | .settingsText => "malformed settings"
  | .poolSize workers => s!"a pool cannot have {workers} workers"
  | .overflow => "attempt to add with overflow"

def message (e : Error) : String := e.kind.opening ++ e.detail

end Error

end BenchReport
