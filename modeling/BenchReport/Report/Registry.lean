import BenchReport.Report.Folder
import BenchReport.Report.Queue
set_option autoImplicit false

namespace BenchReport

/-- Makes a backend of settings. -/
abbrev Factory (β : Type) := ReporterSettings → Except Error β

/-- Factories by tag; the last one registered for a tag counts. -/
abbrev Registry (β : Type) := Table String (Factory β)

/-- A backend that comes with the program, and its settings. -/
inductive Outlet where
  | folder (s : FolderSettings)
  | queue (s : QueueSettings)
  deriving DecidableEq

namespace Outlet

def name : Outlet → String
  | folder _ => Folder.name
  | queue _ => Queue.name

/-- The categories an outlet takes. -/
def categories : Outlet → List Category
  | folder _ => Category.all
  | queue _ => Category.all

end Outlet

namespace Registry

variable {β : Type}

/-- The tag that stands in for unknown ones. -/
def standIn : String := Folder.name

def builtins : Registry Outlet :=
  Table.ofList [(Folder.name, fun s => .ok (.folder s.folder)),
    (Queue.name, fun s => .ok (.queue s.queue))]

/-- The backend for a tag. -/
def create (r : Registry β) (tag : String) (s : ReporterSettings) : Except Error β :=
  match r.get? tag with
  | some make => make s
  | none => match r.get? standIn with
    | some make => make s
    | none => .error (.unknownBackend tag)

end Registry

end BenchReport
