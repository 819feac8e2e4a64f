import BenchReport.Error
import BenchReport.Event.Body
import BenchReport.Json.Tagged
set_option autoImplicit false

namespace BenchReport

/-- A request to be made. -/
structure RequestSpec where
  url : String
  method : String
  headers : Table String String
  params : Table String String
  data : Option Body
  deriving BEq

def RequestSpec.fields : Fields RequestSpec RequestSpec :=
  RequestSpec.mk
    <$> Fields.required "url" Codec.text url
    <*> Fields.defaulted "method" Codec.text method "GET"
    <*> Fields.defaulted "headers" Codec.text.texts headers Table.empty
    <*> Fields.defaulted "params" Codec.text.texts params Table.empty
    <*> Fields.optional "data" Body.codec data

structure QuerySpec where
  url : String
  query : String
  operation : Option String
  /-- What the query is told beside its text. -/
  bindings : Json
  headers : Table String String
  deriving BEq

def QuerySpec.fields : Fields QuerySpec QuerySpec :=
  QuerySpec.mk
    <$> Fields.required "url" Codec.text url
    <*> Fields.required "query" Codec.text query
    <*> Fields.optional "operation_name" Codec.text operation
    <*> Fields.defaulted "variables" Codec.json bindings .null
    <*> Fields.defaulted "headers" Codec.text.texts headers Table.empty

structure DatagramSpec where
  url : String
  data : Option Body
  awaitsResponse : Bool
  deriving BEq

def DatagramSpec.fields : Fields DatagramSpec DatagramSpec :=
  DatagramSpec.mk
    <$> Fields.required "url" Codec.text url
    <*> Fields.optional "data" Body.codec data
    <*> Fields.defaulted "wait_for_response" Codec.bool awaitsResponse false

structure BrowserSpec where
  command : String
  selector : Option String
  url : Option String
  options : Json
  deriving BEq

def BrowserSpec.fields : Fields BrowserSpec BrowserSpec :=
  BrowserSpec.mk
    <$> Fields.required "command" Codec.text command
    <*> Fields.optional "selector" Codec.text selector
    <*> Fields.optional "url" Codec.text url
    <*> Fields.defaulted "options" Codec.json options .null

structure TaskSpec where
  source : Option String
  deriving BEq

def TaskSpec.fields : Fields TaskSpec TaskSpec :=
  TaskSpec.mk <$> Fields.optional "source" Codec.text source

/-- What an action does, by family of engines. -/
inductive ActionSpec where
  | http (s : RequestSpec)
  | graphql (s : QuerySpec)
  | udp (s : DatagramSpec)
  | playwright (s : BrowserSpec)
  | task (s : TaskSpec)
  deriving BEq

/-- Engines whose actions have the same fields. -/
inductive Family where
  | http
  | graphql
  | udp
  | playwright
  | task
  deriving DecidableEq

namespace Family

def all : List Family := [.http, .graphql, .udp, .playwright, .task]

def name : Family → String
  | .http => "http"
  | .graphql => "graphql"
  | .udp => "udp"
  | .playwright => "playwright"
  | .task => "task"

def ofEngine : Engine → Family
  | .request .graphql | .request .graphqlh2 => .graphql
  | .request _ => .http
  | .udp => .udp
  | .playwright => .playwright
  | .task => .task

/-- The fields of a family, read from a draft. -/
def read (m : Medium) (d : Json.Draft) : Family → Except Json.Fault ActionSpec
  | .http => ActionSpec.http <$> (Codec.record "RequestSpec" RequestSpec.fields).read m d
  | .graphql => ActionSpec.graphql <$> (Codec.record "QuerySpec" QuerySpec.fields).read m d
  | .udp => ActionSpec.udp <$> (Codec.record "DatagramSpec" DatagramSpec.fields).read m d
  | .playwright =>
    ActionSpec.playwright <$> (Codec.record "BrowserSpec" BrowserSpec.fields).read m d
  | .task => ActionSpec.task <$> (Codec.record "TaskSpec" TaskSpec.fields).read m d

end Family

namespace ActionSpec

def family : ActionSpec → Family
  | http _ => .http
  | graphql _ => .graphql
  | udp _ => .udp
  | playwright _ => .playwright
  | task _ => .task

/-- A specification is tagged by its family. -/
def variants : Variants ActionSpec where
  tag := "family"
  words := Family.all.map Family.name
  word s := s.family.name
  write
    | http s => RequestSpec.fields.write s
    | graphql s => QuerySpec.fields.write s
    | udp s => DatagramSpec.fields.write s
    | playwright s => BrowserSpec.fields.write s
    | task s => TaskSpec.fields.write s
  read word d := do
    let family ← Codec.findWord Family.all Family.name word
    family.read .value d

end ActionSpec

structure Action where
  name : String
  engine : Engine
  order : UInt32
  weight : Float
  tags : List Tag
  spec : ActionSpec
  deriving BEq

namespace Action

def codec : Codec Action :=
  Codec.record "Action"
    (Action.mk
      <$> Fields.required "name" Codec.text name
      <*> Fields.required "engine" Engine.codec engine
      <*> Fields.required "order" Codec.word32 order
      <*> Fields.required "weight" Codec.float weight
      <*> Fields.required "tags" Tag.codec.list tags
      <*> Fields.required "action" ActionSpec.variants.codec spec)

/-- What the records of all engines may say. -/
structure Heading where
  order : UInt32
  weight : Float
  tags : List Tag

def Heading.codec : Codec Heading :=
  Codec.record "Heading"
    (Heading.mk
      <$> Fields.defaulted "order" Codec.word32 order 0
      <*> Fields.defaulted "weight" Codec.float weight 1.0
      <*> Fields.defaulted "tags" Tag.codec.list tags [])

/-- The name a record gives its action, without the blanks around it. -/
def nameOf (record : Json) : Except Error String :=
  match (record.field? "name").bind Json.asText? with
  | none => .error .actionName
  | some s => if Text.isBlankText s then .error .actionName else .ok (Text.trim s)

/-- The engine a record names for its action. -/
def engineOf (name : String) (record : Json) : Except Error Engine :=
  match (record.field? "engine").bind Json.asText? with
  | none => .error (.actionEngine name)
  | some s => match Engine.ofName? s with
    | none => .error (.unknownEngine s)
    | some e => .ok e

/-- Reads a stored record: its name, its engine, what all records may say, then the fields of the
engine's family. -/
def ofRecord (record : Json) : Except Error Action :=
  match record with
  | .record _ => do
    let name ← nameOf record
    let engine ← engineOf name record
    let heading ← (Heading.codec.ofJson record).mapError (.actionFields name)
    let spec ← ((Family.ofEngine engine).read .value (Json.Draft.ofJson record)).mapError
      (.actionFields name)
    return ⟨name, engine, heading.order, heading.weight, heading.tags, spec⟩
  | _ => .error .actionForm

/-- Reads stored records one after another; the actions stand in their order, those of equal order
as they were stored. -/
def ofRecords (records : List Json) : Except Error (List Action) := do
  let actions ← records.mapM ofRecord
  return actions.mergeSort fun a b => a.order ≤ b.order

end Action

end BenchReport
