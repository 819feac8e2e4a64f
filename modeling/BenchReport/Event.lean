import BenchReport.Error
import BenchReport.Event.Detail
set_option autoImplicit false

namespace BenchReport

/-- What all events hold, whatever their engine. -/
structure Header where
  eventId : EventId
  actionId : String
  name : String
  shortName : String
  stage : String
  source : String
  error : Option String
  checks : List String
  timings : Timings
  tags : List Tag
  timestamp : Timestamp
  deriving BEq, DecidableEq

def Header.fields : Fields Header Header :=
  Header.mk
    <$> Fields.required "event_id" EventId.codec eventId
    <*> Fields.required "action_id" Codec.text actionId
    <*> Fields.required "name" Codec.text name
    <*> Fields.required "short_name" Codec.text shortName
    <*> Fields.required "stage" Codec.text stage
    <*> Fields.required "source" Codec.text source
    <*> Fields.sparse "error" Codec.text error
    <*> Fields.defaulted "checks" Codec.text.list checks []
    <*> Fields.required "timings" Timings.codec timings
    <*> Fields.defaulted "tags" Tag.codec.list tags []
    <*> Fields.required "timestamp" Timestamp.codec timestamp

structure Event where
  header : Header
  detail : Detail
  deriving BEq, DecidableEq

namespace Event

def name (e : Event) : String := e.header.name

def stage (e : Event) : String := e.header.stage

def engine (e : Event) : Engine := e.detail.engine

/-- An event without an error succeeded. -/
def succeeded (e : Event) : Bool := e.header.error.isNone

/-- The source an observation names, else its host, else its engine. -/
def sourceOf (o : Observation) (engine : Engine) : String :=
  match o.source with
  | some s => s
  | none => match o.hostname with
    | some h => if h = "" then engine.name else h
    | none => engine.name

/-- The event of an observation in a stage. Engine and action name must be there, and the timings
must be finite and not negative; all else has a value of its own when it is missing. -/
def ofObservation (o : Observation) (stage : String) : Except Error Event :=
  match o.engine with
  | none => .error .noEngine
  | some engine =>
    match o.name.filter fun n => !Text.isBlankText n with
    | none => .error (.noAction engine)
    | some name =>
      match o.timings.fault? with
      | some (phase, value) => .error (.timing phase value)
      | none => .ok {
          header := {
            eventId := o.eventId.getD EventId.none
            actionId := o.actionId.getD name
            name
            shortName := o.shortName.getD name
            stage
            source := sourceOf o engine
            error := o.error
            checks := o.checks
            timings := o.timings
            tags := o.tags
            timestamp := o.timestamp.getD Timestamp.epoch }
          detail := Detail.ofObservation o engine }

def fields : Fields Event Event :=
  Event.mk
    <$> Fields.inline Header.fields header
    <*> Fields.inline Detail.variants.fields detail

def codec : Codec Event := Codec.record "Event" fields

end Event

end BenchReport
