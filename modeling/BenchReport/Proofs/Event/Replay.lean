import BenchReport.Proofs.Event.Rereading
import BenchReport.Proofs.Json.Schemas
import BenchReport.Proofs.Text.Capitals
import BenchReport.Session.Stamp
set_option autoImplicit false

namespace BenchReport

open Json Fields

variable {n : Nat}

def Observation.blank : Observation where
  eventId := none
  actionId := none
  name := none
  shortName := none
  source := none
  engine := none
  error := none
  checks := []
  timings := Timings.zero
  tags := []
  timestamp := none
  url := none
  ipAddr := none
  method := none
  path := none
  params := none
  hostname := none
  status := none
  headers := Table.empty
  data := none
  command := none
  selector := none
  x := none
  y := none
  frame := none

def Detail.told : Detail → Observation
  | request e x =>
    { Observation.blank with
      engine := some (.request e), url := some x.url, ipAddr := x.ipAddr, method := some x.method,
      path := some x.path, params := some x.params, hostname := some x.hostname,
      status := x.status, headers := x.headers, data := x.data }
  | udp x =>
    { Observation.blank with
      engine := some .udp, url := some x.url, ipAddr := x.ipAddr, path := some x.path,
      params := some x.params, hostname := some x.hostname, status := x.status, data := x.data }
  | playwright x =>
    { Observation.blank with
      engine := some .playwright, url := some x.url, command := some x.command,
      selector := x.selector, x := x.x, y := x.y, frame := x.frame }
  | task x => { Observation.blank with engine := some .task, data := x.data }

/-- What an event tells: all but its stage. -/
def Event.told (e : Event) : Observation :=
  { e.detail.told with
    eventId := some e.header.eventId, actionId := some e.header.actionId,
    name := some e.header.name, shortName := some e.header.shortName,
    source := some e.header.source, error := e.header.error, checks := e.header.checks,
    timings := e.header.timings, tags := e.header.tags, timestamp := some e.header.timestamp }

/-- Under the names of an observation stands what it holds, and nothing where it holds nothing. The
members may have other names besides. -/
structure Observation.Stands (ws : List (String × Json)) (o : Observation) : Prop where
  eventId : under "event_id" ws = o.eventId.toList.map EventId.codec.write
  actionId : under "action_id" ws = o.actionId.toList.map Codec.text.write
  name : under "name" ws = o.name.toList.map Codec.text.write
  shortName : under "short_name" ws = o.shortName.toList.map Codec.text.write
  source : under "source" ws = o.source.toList.map Codec.text.write
  engine : under "type" ws = o.engine.toList.map Engine.codec.write
  error : under "error" ws = o.error.toList.map Codec.text.write
  checks : under "checks" ws = [Codec.text.list.write o.checks]
  timings : under "timings" ws = [Timings.codec.write o.timings]
  tags : under "tags" ws = [Tag.codec.list.write o.tags]
  timestamp : under "timestamp" ws = o.timestamp.toList.map Timestamp.codec.write
  url : under "url" ws = o.url.toList.map Codec.text.write
  ipAddr : under "ip_addr" ws = o.ipAddr.toList.map Codec.text.write
  method : under "method" ws = o.method.toList.map Codec.text.write
  path : under "path" ws = o.path.toList.map Codec.text.write
  params : under "params" ws = o.params.toList.map Codec.text.write
  hostname : under "hostname" ws = o.hostname.toList.map Codec.text.write
  status : under "status" ws = o.status.toList.map Codec.word16.write
  headers : under "headers" ws = [Codec.text.texts.write o.headers] ∨
    under "headers" ws = [] ∧ o.headers = Table.empty
  data : under "data" ws = o.data.toList.map Body.codec.write
  command : under "command" ws = o.command.toList.map Codec.text.write
  selector : under "selector" ws = o.selector.toList.map Codec.text.write
  x : under "x" ws = o.x.toList.map Codec.float.write
  y : under "y" ws = o.y.toList.map Codec.float.write
  frame : under "frame" ws = o.frame.toList.map Codec.word32.write

theorem Engine.codec_restores (e : Engine) : Engine.codec.Restores n e :=
  Codec.word_restores e.mem_all fun _ _ => Engine.name_injective

/-- The doubles and the time of an observation have texts that read back. -/
structure Observation.Legible (o : Observation) : Prop where
  timings : ∀ p, Readable (o.timings.get p)
  time : ∀ t ∈ o.timestamp, Timestamp.parse? t.display = some t
  x : ∀ d ∈ o.x, Readable d
  y : ∀ d ∈ o.y, Readable d

/-- An observation is read from any record in which all that it holds stands under its names. -/
theorem Observation.fields_read {ws : List (String × Json)} {o : Observation}
    (stands : o.Stands ws) (legible : o.Legible) : fields.Reads ws o := by
  have headers : (defaulted "headers" Codec.text.texts Observation.headers Table.empty).Reads ws
      o.headers := by
    rcases stands.headers with given | ⟨nothing, empty⟩
    · exact defaulted_reads (n := 1) given (Codec.texts_restores fun e _ => Codec.text_restores e.2)
    · rw [empty]
      exact field_reads_absent nothing rfl
  -- Taken apart, the observation is its constructor applied field by field, as the reader does it.
  obtain ⟨⟩ := o
  refine .seq (.seq (.seq (.seq (.seq (.seq (.seq (.seq (.seq (.seq (.seq (.seq (.seq (.seq (.seq
    (.seq (.seq (.seq (.seq (.seq (.seq (.seq (.seq (.seq (.map _ ?_) ?_) ?_) ?_) ?_) ?_) ?_) ?_)
    ?_) ?_) ?_) ?_) ?_) ?_) ?_) ?_) ?_) ?_) headers) ?_) ?_) ?_) ?_) ?_) ?_
  · exact nullable_reads (n := 0) stands.eventId fun i _ => ⟨i.codec_restores, nofun⟩
  · exact nullable_text_reads stands.actionId
  · exact nullable_text_reads stands.name
  · exact nullable_text_reads stands.shortName
  · exact nullable_text_reads stands.source
  · exact nullable_reads (n := 0) stands.engine fun e _ => ⟨e.codec_restores, nofun⟩
  · exact nullable_text_reads stands.error
  · exact defaulted_reads (n := 1) stands.checks
      (Codec.list_restores fun c _ => Codec.text_restores c)
  · exact defaulted_reads (n := 1) stands.timings (Timings.codec_restores legible.timings)
  · exact defaulted_reads (n := 2) stands.tags (Codec.list_restores fun t _ => t.codec_restores)
  · exact nullable_reads (n := 0) stands.timestamp fun t mem =>
      ⟨Timestamp.codec_restores (legible.time t mem), nofun⟩
  · exact nullable_text_reads stands.url
  · exact nullable_text_reads stands.ipAddr
  · exact nullable_text_reads stands.method
  · exact nullable_text_reads stands.path
  · exact nullable_text_reads stands.params
  · exact nullable_text_reads stands.hostname
  · exact nullable_reads (n := 0) stands.status fun w _ => ⟨Codec.word16_restores w, nofun⟩
  · exact nullable_reads (n := 1) stands.data fun b _ => ⟨b.codec_restores, b.codec_shown⟩
  · exact nullable_text_reads stands.command
  · exact nullable_text_reads stands.selector
  · exact nullable_reads (n := 0) stands.x fun d mem =>
      ⟨Codec.float_restores (legible.x d mem), nofun⟩
  · exact nullable_reads (n := 0) stands.y fun d mem =>
      ⟨Codec.float_restores (legible.y d mem), nofun⟩
  · exact nullable_reads (n := 0) stands.frame fun w _ => ⟨Codec.word32_restores w, nofun⟩

namespace Event

theorem write_fields (e : Event) : fields.write e = Header.fields.write e.header ++
    ("type", Engine.codec.write e.engine) :: Detail.variants.write e.detail := rfl

/-- What an event tells stands in its record, under the names of an observation. -/
theorem told_stands (e : Event) : e.told.Stands (fields.write e) := by
  obtain ⟨header, detail⟩ := e
  rw [write_fields]
  -- The names are compared one by one, those of the header and those of the detail.
  cases detail with
  | request e x =>
      constructor <;> simp [told, Detail.told, Observation.blank, engine, Detail.engine,
        Detail.variants, Header.fields, Exchange.fields]
  | udp x =>
      constructor <;> simp [told, Detail.told, Observation.blank, engine, Detail.engine,
        Detail.variants, Header.fields, Datagram.fields]
  | playwright x =>
      constructor <;> simp [told, Detail.told, Observation.blank, engine, Detail.engine,
        Detail.variants, Header.fields, BrowserStep.fields]
  | task x =>
      constructor <;> simp [told, Detail.told, Observation.blank, engine, Detail.engine,
        Detail.variants, Header.fields, TaskOutput.fields]

/-- The doubles of an event are those of the observation that it tells. -/
theorem told_legible {e : Event} (readable : ∀ x ∈ e.doubles, Readable x)
    (time : Timestamp.parse? e.header.timestamp.display = some e.header.timestamp) :
    e.told.Legible := by
  have timings := fun p => readable _ (e.timing_mem_doubles p)
  have times : ∀ t ∈ e.told.timestamp, Timestamp.parse? t.display = some t := by
    rintro t ⟨⟩
    exact time
  obtain ⟨header, detail⟩ := e
  cases detail with
  | playwright step =>
      refine ⟨timings, times, fun d mem => readable d ?_, fun d mem => readable d ?_⟩
      · exact List.mem_append_right _ (List.mem_append_left _ (Option.mem_toList.2 mem))
      · exact List.mem_append_right _ (List.mem_append_right _ (Option.mem_toList.2 mem))
  | _ => exact ⟨timings, times, nofun, nofun⟩

/-- The text and the value of an event are read as the observation that it tells. -/
theorem read_told {e : Event} (readable : ∀ x ∈ e.doubles, Readable x)
    (time : Timestamp.parse? e.header.timestamp.display = some e.header.timestamp) :
    Observation.codec.ofText (codec.toText e) = .ok e.told ∧
      Observation.codec.ofJson (codec.write e) = .ok e.told := by
  have read : ∀ m, Observation.codec.read m (Draft.ofJson (codec.write e)) = .ok e.told :=
    Codec.record_reads (Observation.fields_read e.told_stands (told_legible readable time))
  constructor
  · rw [Codec.ofText_ok_iff, Codec.toText,
      Draft.ofText_compact (codec_restores readable time).plain (by decide)]
    exact ⟨read .text, rfl⟩
  · exact read .value

end Event

/-- A method in capitals is in capitals already. -/
theorem Exchange.upper_method (o : Observation) :
    Text.upper (ofObservation o).method = (ofObservation o).method := by
  have method : (ofObservation o).method = (o.method.map Text.upper).getD "GET" := rfl
  rw [method]
  cases o.method with
  | none => decide
  | some m => exact Text.upper_upper m

theorem Detail.upper_method {o : Observation} {engine : Engine} {x : Exchange}
    (exchanged : (ofObservation o engine).exchange? = some x) :
    Text.upper x.method = x.method := by
  cases engine with
  | request e =>
      cases exchanged
      exact Exchange.upper_method o
  | _ => cases exchanged

namespace Event

/-- The detail of an event is made again of what the event tells. -/
theorem detail_ofObservation_told {e : Event}
    (capitals : ∀ x, e.detail.exchange? = some x → Text.upper x.method = x.method) :
    Detail.ofObservation e.told e.engine = e.detail := by
  obtain ⟨header, detail⟩ := e
  cases detail with
  | request e x =>
      have method : Text.upper x.method = x.method := capitals x rfl
      simp only [engine, Detail.engine, told, Detail.told, Detail.ofObservation,
        Exchange.ofObservation, Option.map_some, Option.getD_some, method]
  | udp x => rfl
  | playwright x => rfl
  | task x => rfl

/-- An event that could have been made of an observation is made again of what it tells: nothing is
left to be filled in. -/
theorem ofObservation_told {e : Event} (named : Text.isBlankText e.name = false)
    (sound : e.header.timings.fault? = none)
    (capitals : ∀ x, e.detail.exchange? = some x → Text.upper x.method = x.method) :
    Event.ofObservation e.told e.stage = .ok e := by
  have known : e.told.engine = some e.engine := by
    obtain ⟨header, detail⟩ := e
    cases detail <;> rfl
  have action : e.told.name.filter (fun n => !Text.isBlankText n) = some e.name := by
    change (some e.name).filter (fun n => !Text.isBlankText n) = some e.name
    rw [Option.filter_some, named]
    rfl
  have timed : e.told.timings.fault? = none := sound
  simp only [Event.ofObservation, known, action, timed, detail_ofObservation_told capitals]
  rfl

/-- A stored event can be replayed, whatever its engine and however its observation was filled in:
its text and its value are read as an observation, which needs no stamps and makes the same event in
the same stage. The coordinates must be finite, and the texts of the doubles and of the time must
read back. -/
theorem replayed_same {o : Observation} {stage : String} {e : Event}
    (made : Event.ofObservation o stage = .ok e)
    (finite : ∀ d, o.x = some d ∨ o.y = some d → d.isFinite = true)
    (doubles : ∀ d ∈ e.doubles, d.isFinite = true → Readable d)
    (time : Timestamp.parse? e.header.timestamp.display = some e.header.timestamp) :
    ∃ told, Observation.codec.ofText (codec.toText e) = .ok told ∧
      Observation.codec.ofJson (codec.write e) = .ok told ∧
      (∀ (stamps : Stamps) k, stamps.stamp k told = told) ∧
      Event.ofObservation told e.stage = .ok e := by
  have readable : ∀ d ∈ e.doubles, Readable d :=
    fun d mem => doubles d mem (finite_doubles made finite d mem)
  obtain ⟨text, value⟩ := read_told readable time
  refine ⟨e.told, text, value, fun _ _ => rfl, ?_⟩
  have kept := madeOf made
  apply ofObservation_told kept.notBlank
  · rw [kept.timings]
    exact kept.sound
  · intro x exchanged
    rw [kept.detail] at exchanged
    exact Detail.upper_method exchanged

/-- A request that names neither its source nor its host, and its method in small letters. -/
def quietRequest : Observation :=
  { Observation.blank with
    name := some "fetch \u00fc"
    engine := some (.request .graphqlh2)
    timings := ⟨0.25, 0.1, 0.0, 0.0, 5e-324⟩
    timestamp := some ⟨1714557600, 500000000⟩
    method := some "purge\u00df"
    hostname := some ""
    status := some 404
    headers := Table.ofList [("type", "text"), ("Accept", "*/*")]
    data := some (.bytes ⟨#[255, 0]⟩)
    command := some "ignored" }

def quietRequestEvent : Event where
  header := {
    eventId := EventId.none
    actionId := "fetch \u00fc"
    name := "fetch \u00fc"
    shortName := "fetch \u00fc"
    stage := "peak"
    source := "graphqlh2"
    error := none
    checks := []
    timings := ⟨0.25, 0.1, 0.0, 0.0, 5e-324⟩
    tags := []
    timestamp := ⟨1714557600, 500000000⟩ }
  detail := .request .graphqlh2 {
    url := ""
    ipAddr := none
    method := "PURGESS"
    path := ""
    params := ""
    hostname := ""
    status := some 404
    headers := Table.ofList [("type", "text"), ("Accept", "*/*")]
    data := some (.bytes ⟨#[255, 0]⟩) }

theorem replayed_same_quietRequest :
    Event.ofObservation quietRequest "peak" = .ok quietRequestEvent ∧
      ∃ told, Observation.codec.ofText (codec.toText quietRequestEvent) = .ok told ∧
        Observation.codec.ofJson (codec.write quietRequestEvent) = .ok told ∧
        (∀ (stamps : Stamps) k, stamps.stamp k told = told) ∧
        Event.ofObservation told "peak" = .ok quietRequestEvent := by
  have made : Event.ofObservation quietRequest "peak" = .ok quietRequestEvent := by decide +kernel
  refine ⟨made, replayed_same made ?_ (by decide +kernel) (by decide +kernel)⟩
  rintro d (x | y)
  · cases x
  · cases y

end Event

end BenchReport
