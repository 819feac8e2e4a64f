import BenchReport.Event.Observation
import BenchReport.Json.Tagged
import BenchReport.Text.Upper
set_option autoImplicit false

namespace BenchReport

/-- A request and its response. -/
structure Exchange where
  url : String
  ipAddr : Option String
  method : String
  path : String
  params : String
  hostname : String
  status : Option UInt16
  headers : Table String String
  data : Option Body
  deriving BEq, DecidableEq

namespace Exchange

/-- A method is written in capitals; without one the exchange is a GET. -/
def ofObservation (o : Observation) : Exchange where
  url := o.url.getD ""
  ipAddr := o.ipAddr
  method := (o.method.map Text.upper).getD "GET"
  path := o.path.getD ""
  params := o.params.getD ""
  hostname := o.hostname.getD ""
  status := o.status
  headers := o.headers
  data := o.data

/-- Whether a status arrived that tells of no failure. -/
def statusOk (e : Exchange) : Bool := e.status.any (· < 400)

def fields : Fields Exchange Exchange :=
  Exchange.mk
    <$> Fields.defaulted "url" Codec.text url ""
    <*> Fields.sparse "ip_addr" Codec.text ipAddr
    <*> Fields.defaulted "method" Codec.text method ""
    <*> Fields.defaulted "path" Codec.text path ""
    <*> Fields.defaulted "params" Codec.text params ""
    <*> Fields.defaulted "hostname" Codec.text hostname ""
    <*> Fields.sparse "status" Codec.word16 status
    <*> Fields.defaulted "headers" Codec.text.texts headers Table.empty
    <*> Fields.sparse "data" Body.codec data

end Exchange

/-- Datagrams sent and received. -/
structure Datagram where
  url : String
  ipAddr : Option String
  path : String
  params : String
  hostname : String
  status : Option UInt16
  data : Option Body
  deriving BEq, DecidableEq

namespace Datagram

def ofObservation (o : Observation) : Datagram where
  url := o.url.getD ""
  ipAddr := o.ipAddr
  path := o.path.getD ""
  params := o.params.getD ""
  hostname := o.hostname.getD ""
  status := o.status
  data := o.data

def fields : Fields Datagram Datagram :=
  Datagram.mk
    <$> Fields.defaulted "url" Codec.text url ""
    <*> Fields.sparse "ip_addr" Codec.text ipAddr
    <*> Fields.defaulted "path" Codec.text path ""
    <*> Fields.defaulted "params" Codec.text params ""
    <*> Fields.defaulted "hostname" Codec.text hostname ""
    <*> Fields.sparse "status" Codec.word16 status
    <*> Fields.sparse "data" Body.codec data

end Datagram

/-- A command given to a browser. -/
structure BrowserStep where
  url : String
  command : String
  selector : Option String
  x : Option Float
  y : Option Float
  frame : Option UInt32
  deriving BEq, DecidableEq

namespace BrowserStep

def ofObservation (o : Observation) : BrowserStep where
  url := o.url.getD ""
  command := o.command.getD ""
  selector := o.selector
  x := o.x
  y := o.y
  frame := o.frame

def fields : Fields BrowserStep BrowserStep :=
  BrowserStep.mk
    <$> Fields.defaulted "url" Codec.text url ""
    <*> Fields.defaulted "command" Codec.text command ""
    <*> Fields.sparse "selector" Codec.text selector
    <*> Fields.sparse "x" Codec.float x
    <*> Fields.sparse "y" Codec.float y
    <*> Fields.sparse "frame" Codec.word32 frame

end BrowserStep

/-- What a local piece of work returned. -/
structure TaskOutput where
  data : Option Body
  deriving BEq, DecidableEq

namespace TaskOutput

def fields : Fields TaskOutput TaskOutput := TaskOutput.mk <$> Fields.sparse "data" Body.codec data

end TaskOutput

inductive Detail where
  | request (e : RequestEngine) (exchange : Exchange)
  | udp (datagram : Datagram)
  | playwright (step : BrowserStep)
  | task (output : TaskOutput)
  deriving BEq, DecidableEq

namespace Detail

def engine : Detail → Engine
  | request e _ => .request e
  | udp _ => .udp
  | playwright _ => .playwright
  | task _ => .task

/-- The detail that an engine makes of an observation. -/
def ofObservation (o : Observation) : Engine → Detail
  | .request e => request e (Exchange.ofObservation o)
  | .udp => udp (Datagram.ofObservation o)
  | .playwright => playwright (BrowserStep.ofObservation o)
  | .task => task ⟨o.data⟩

/-- The exchange of an event that is one. -/
def exchange? : Detail → Option Exchange
  | request _ x => some x
  | _ => none

/-- The detail of an engine, from its fields. -/
def read (m : Medium) (d : Json.Draft) : Engine → Except Json.Fault Detail
  | .request e => request e <$> (Codec.record "Exchange" Exchange.fields).read m d
  | .udp => udp <$> (Codec.record "Datagram" Datagram.fields).read m d
  | .playwright => playwright <$> (Codec.record "BrowserStep" BrowserStep.fields).read m d
  | .task => task <$> (Codec.record "TaskOutput" TaskOutput.fields).read m d

/-- A detail is tagged by the name of its engine. -/
def variants : Variants Detail where
  tag := "type"
  words := Engine.all.map Engine.name
  word d := d.engine.name
  write
    | request _ x => Exchange.fields.write x
    | udp x => Datagram.fields.write x
    | playwright x => BrowserStep.fields.write x
    | task x => TaskOutput.fields.write x
  read word d := do
    let engine ← Codec.findWord Engine.all Engine.name word
    read .value d engine

end Detail

end BenchReport
