import BenchReport.Engine
import BenchReport.Phase
import BenchReport.Tag
import BenchReport.Event.Id
import BenchReport.Event.Timestamp
import BenchReport.Event.Body
set_option autoImplicit false

namespace BenchReport

/-- A result as a stage leaves it behind. Nearly everything may be missing; what an event needs is
decided when the event is made. -/
structure Observation where
  eventId : Option EventId
  actionId : Option String
  name : Option String
  shortName : Option String
  source : Option String
  engine : Option Engine
  error : Option String
  checks : List String
  timings : Timings
  tags : List Tag
  timestamp : Option Timestamp
  url : Option String
  ipAddr : Option String
  method : Option String
  path : Option String
  params : Option String
  hostname : Option String
  status : Option UInt16
  headers : Table String String
  data : Option Body
  command : Option String
  selector : Option String
  x : Option Float
  y : Option Float
  frame : Option UInt32
  deriving BEq, DecidableEq

namespace Observation

def fields : Fields Observation Observation :=
  Observation.mk
    <$> Fields.nullable "event_id" EventId.codec eventId
    <*> Fields.nullable "action_id" Codec.text actionId
    <*> Fields.nullable "name" Codec.text name
    <*> Fields.nullable "short_name" Codec.text shortName
    <*> Fields.nullable "source" Codec.text source
    <*> Fields.nullable "type" Engine.codec engine
    <*> Fields.nullable "error" Codec.text error
    <*> Fields.defaulted "checks" Codec.text.list checks []
    <*> Fields.defaulted "timings" Timings.codec timings Timings.zero
    <*> Fields.defaulted "tags" Tag.codec.list tags []
    <*> Fields.nullable "timestamp" Timestamp.codec timestamp
    <*> Fields.nullable "url" Codec.text url
    <*> Fields.nullable "ip_addr" Codec.text ipAddr
    <*> Fields.nullable "method" Codec.text method
    <*> Fields.nullable "path" Codec.text path
    <*> Fields.nullable "params" Codec.text params
    <*> Fields.nullable "hostname" Codec.text hostname
    <*> Fields.nullable "status" Codec.word16 status
    <*> Fields.defaulted "headers" Codec.text.texts headers Table.empty
    <*> Fields.nullable "data" Body.codec data
    <*> Fields.nullable "command" Codec.text command
    <*> Fields.nullable "selector" Codec.text selector
    <*> Fields.nullable "x" Codec.float x
    <*> Fields.nullable "y" Codec.float y
    <*> Fields.nullable "frame" Codec.word32 frame

def codec : Codec Observation := Codec.record "Observation" fields

end Observation

end BenchReport
