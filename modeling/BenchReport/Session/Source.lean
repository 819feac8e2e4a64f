import BenchReport.Action
import BenchReport.Files
import BenchReport.Session.Document
set_option autoImplicit false

namespace BenchReport

/-- A call that may fail; a failing call may leave its mark on the state too. -/
abbrev Call (σ α : Type) := ExceptT Error (StateM σ) α

structure Source (σ : Type) where
  tag : String
  connect : Call σ Unit
  /-- The names of the stages in the order they ran. -/
  stages : Call σ (List String)
  actions : String → Call σ (List Action)
  data : String → Call σ (List Json)
  results : String → Call σ (List WorkerOutput)
  facts : String → Call σ StageFacts
  close : Call σ Unit

/-- A stored session read from a file, while it is connected. -/
structure Archive where
  path : String
  files : Files
  /-- Whether the workers that read files were sent home. -/
  stopped : Bool
  session : Option RecordedSession

namespace Archive

def tag : String := "json"

/-- An archive that is not connected. -/
def ofPath (files : Files) (path : String) : Archive := ⟨path, files, false, none⟩

/-- The session in the file. -/
def load (a : Archive) : Except Error RecordedSession := do
  if a.stopped then throw .poolClosed
  let text ← a.files.readText a.path
  (RecordedSession.codec.ofText text).mapError .document

/-- Reads the file; a failure leaves what was connected before. -/
def connect : Call Archive Unit := do
  let a ← get
  let session ← (a.load : Except Error RecordedSession)
  set { a with session := some session }

def connected : Call Archive RecordedSession := do
  match (← get).session with
  | some s => return s
  | none => throw (.backend tag "not connected")

/-- The first stage of a name. -/
def stage (name : String) : Call Archive RecordedStage := do
  match (← connected).find? name with
  | some s => return s
  | none => throw (.unknownStage name)

/-- The archive as a source of sessions. -/
def source : Source Archive where
  tag := tag
  connect := connect
  stages := do return (← connected).stages.map fun s => s.facts.stage
  actions name := do
    let s ← stage name
    (Action.ofRecords s.actions : Except Error (List Action))
  data name := do return (← stage name).data
  results name := do return (← stage name).workers
  facts name := do return (← stage name).facts
  close := modify fun a => { a with session := none }

/-- The source for a tag. There is one kind of source, so it stands in for every tag it does not
have. -/
def sourceFor (_tag : String) : Source Archive := source

end Archive

end BenchReport
