import BenchReport.Report.Address
import BenchReport.Report.Backend
import BenchReport.Settings
set_option autoImplicit false

namespace BenchReport.Queue

def name : String := "redis"

/-- What a server is told. -/
inductive Command where
  /-- Rows pushed onto a list. -/
  | push (key : String) (rows : List String)
  /-- A row published on a channel. -/
  | publish (key row : String)
  deriving DecidableEq

/-- The key of a category. -/
def key (s : QueueSettings) (category : String) : String := s.keyPrefix ++ ":" ++ category

/-- The commands that send rows. -/
def commands (s : QueueSettings) (c : Category) (rows : List Json) : List Command :=
  match s.channel with
  | .list => [.push (key s c.store) (rows.map Json.compact)]
  | .channel => rows.map fun r => .publish (key s c.store) r.compact

/-- The queue as a backend. `reach` tells what becomes of an attempt to reach a server. The state
holds the commands sent since the server was reached, and nothing while it is not. -/
def backend (s : QueueSettings) (reach : String → Except String Unit) :
    Backend (Option (List Command)) where
  name := name
  categories := Category.all
  connect sent :=
    if Address.isAddress s.url then
      match reach s.url with
      | .error reason => (Backend.answer (.error (.backend name reason)), sent)
      | .ok () => (Backend.answer (.ok ()), some [])
    else
      let reason := "Redis URL did not parse- InvalidClientConfig"
      (Backend.answer (.error (.backend name reason)), sent)
  submit c p sent :=
    match p.rows c with
    | [] => (Backend.answer (.ok ()), sent)
    | rows => match sent with
      | none => (Backend.answer (.error (.backend name "not connected")), none)
      | some sent => (Backend.answer (.ok ()), some (sent ++ commands s c rows))
  close _ := (Backend.answer (.ok ()), none)

end BenchReport.Queue
