import BenchReport.Action
import BenchReport.Proofs.Event.Rereading
import BenchReport.Proofs.Json.Decoding
set_option autoImplicit false

namespace BenchReport

open Json Fields
open Codec (text_takes bool_takes word32_takes float_takes json_takes texts_takes list_takes)

namespace Body

/-- A text tells itself. Bytes are told by a record of their encoding and their spelling. -/
inductive ToldBy : Json → Body → Prop
  | text (s : String) : ToldBy (.text s) (.text s)
  | bytes {ws : List (String × Json)} {encoding : Encoding} {value : String} {b : ByteArray} :
      Required ws "encoding" (TellsWord Encoding.name) encoding →
      Required ws "value" TellsText value →
      Spells (encoding, value) b → ToldBy (.record ws) (.bytes b)

theorem encoding_takes :
    (Codec.word [.utf8, .base64] Encoding.name).Takes (TellsWord Encoding.name) := by
  apply Codec.word_takes
  · intro e
    cases e <;> decide
  · intro e e' same
    revert same
    cases e <;> cases e' <;> decide

theorem spelling_takes : spellingFields.Takes fun ws p =>
    Required ws "encoding" (TellsWord Encoding.name) p.1 ∧ Required ws "value" TellsText p.2 := by
  refine .of_iff (.seq (.map _ (required_takes encoding_takes)) (required_takes text_takes)) ?_
  intro ws p
  constructor
  · rintro ⟨_, _, ⟨_, encoding, rfl⟩, value, rfl⟩
    exact ⟨encoding, value⟩
  · intro ⟨encoding, value⟩
    exact ⟨_, _, ⟨_, encoding, rfl⟩, value, rfl⟩

theorem codec_takes : codec.Takes ToldBy := by
  intro j body
  show codec.read .value (Draft.ofJson j) = .ok body ↔ _
  cases body with
  | text s =>
      rw [read_text_iff]
      constructor
      · intro same
        cases j <;> cases same
        exact .text s
      · intro told
        cases told
        rfl
  | bytes b =>
      rw [read_bytes_iff]
      constructor
      · rintro ⟨-, ⟨members, stop, same⟩, p, read, spells⟩
        cases j with
        | record ws =>
            obtain ⟨encoding, value⟩ := (Codec.record_takes spelling_takes ws p).1 read
            exact .bytes encoding value spells
        | _ => cases same
      · intro told
        cases told with
        | bytes encoding value spells =>
            exact ⟨Draft.reading_ofJson _, ⟨_, _, rfl⟩, _,
              (Codec.record_takes spelling_takes _ (_, _)).2 ⟨encoding, value⟩, spells⟩

end Body

namespace Tag

/-- A tag is told by a record of its name and its value, or by a list of both. -/
inductive ToldBy : Json → Tag → Prop
  | record {ws : List (String × Json)} {t : Tag} :
      Required ws "name" TellsText t.name → Required ws "value" TellsText t.value →
      ToldBy (.record ws) t
  | list (t : Tag) : ToldBy (.list [.text t.name, .text t.value]) t

theorem codec_takes : codec.Takes ToldBy := by
  intro j t
  cases j with
  | record ws =>
      refine Iff.trans (Codec.record_takes (.seq (.map _ (required_takes text_takes))
        (required_takes text_takes)) ws t) ?_
      constructor
      · rintro ⟨_, _, ⟨_, name, rfl⟩, value, rfl⟩
        exact .record name value
      · intro told
        cases told with
        | record name value => exact ⟨_, _, ⟨_, name, rfl⟩, value, rfl⟩
  | list items =>
      constructor
      · intro ok
        match items with
        | [] => cases ok
        | [first] => cases first <;> cases ok
        | first :: second :: more =>
            cases first with
            | text name =>
                cases second with
                | text value =>
                    cases more with
                    | nil =>
                        cases ok
                        exact .list ⟨name, value⟩
                    | cons third rest => cases ok
                | _ => cases ok
            | _ => cases ok
      · intro told
        cases told
        rfl
  | _ => exact ⟨nofun, nofun⟩

end Tag

structure RequestSpec.ToldBy (ws : List (String × Json)) (s : RequestSpec) : Prop where
  url : Required ws "url" TellsText s.url
  method : Defaulted ws "method" TellsText "GET" s.method
  headers : Defaulted ws "headers" TellsTexts Table.empty s.headers
  params : Defaulted ws "params" TellsTexts Table.empty s.params
  data : Defaulted ws "data" (TellsOption Body.ToldBy) none s.data

theorem RequestSpec.fields_take : fields.Takes ToldBy := by
  refine .of_iff (.seq (.seq (.seq (.seq (.map _ (required_takes text_takes))
    (defaulted_takes text_takes)) (defaulted_takes texts_takes)) (defaulted_takes texts_takes))
    (optional_takes Body.codec_takes)) ?_
  intro ws s
  constructor
  · rintro ⟨_, _, ⟨_, _, ⟨_, _, ⟨_, _, ⟨_, url, rfl⟩, method, rfl⟩, headers, rfl⟩, params, rfl⟩,
      data, rfl⟩
    exact ⟨url, method, headers, params, data⟩
  · intro ⟨url, method, headers, params, data⟩
    exact ⟨_, _, ⟨_, _, ⟨_, _, ⟨_, _, ⟨_, url, rfl⟩, method, rfl⟩, headers, rfl⟩, params, rfl⟩,
      data, rfl⟩

structure QuerySpec.ToldBy (ws : List (String × Json)) (s : QuerySpec) : Prop where
  url : Required ws "url" TellsText s.url
  query : Required ws "query" TellsText s.query
  operation : Defaulted ws "operation_name" (TellsOption TellsText) none s.operation
  bindings : Defaulted ws "variables" TellsAny .null s.bindings
  headers : Defaulted ws "headers" TellsTexts Table.empty s.headers

theorem QuerySpec.fields_take : fields.Takes ToldBy := by
  refine .of_iff (.seq (.seq (.seq (.seq (.map _ (required_takes text_takes))
    (required_takes text_takes)) (optional_takes text_takes)) (defaulted_takes json_takes))
    (defaulted_takes texts_takes)) ?_
  intro ws s
  constructor
  · rintro ⟨_, _, ⟨_, _, ⟨_, _, ⟨_, _, ⟨_, url, rfl⟩, query, rfl⟩, operation, rfl⟩, bindings,
      rfl⟩, headers, rfl⟩
    exact ⟨url, query, operation, bindings, headers⟩
  · intro ⟨url, query, operation, bindings, headers⟩
    exact ⟨_, _, ⟨_, _, ⟨_, _, ⟨_, _, ⟨_, url, rfl⟩, query, rfl⟩, operation, rfl⟩, bindings,
      rfl⟩, headers, rfl⟩

structure DatagramSpec.ToldBy (ws : List (String × Json)) (s : DatagramSpec) : Prop where
  url : Required ws "url" TellsText s.url
  data : Defaulted ws "data" (TellsOption Body.ToldBy) none s.data
  awaitsResponse : Defaulted ws "wait_for_response" TellsBool false s.awaitsResponse

theorem DatagramSpec.fields_take : fields.Takes ToldBy := by
  refine .of_iff (.seq (.seq (.map _ (required_takes text_takes))
    (optional_takes Body.codec_takes)) (defaulted_takes bool_takes)) ?_
  intro ws s
  constructor
  · rintro ⟨_, _, ⟨_, _, ⟨_, url, rfl⟩, data, rfl⟩, awaits, rfl⟩
    exact ⟨url, data, awaits⟩
  · intro ⟨url, data, awaits⟩
    exact ⟨_, _, ⟨_, _, ⟨_, url, rfl⟩, data, rfl⟩, awaits, rfl⟩

structure BrowserSpec.ToldBy (ws : List (String × Json)) (s : BrowserSpec) : Prop where
  command : Required ws "command" TellsText s.command
  selector : Defaulted ws "selector" (TellsOption TellsText) none s.selector
  url : Defaulted ws "url" (TellsOption TellsText) none s.url
  options : Defaulted ws "options" TellsAny .null s.options

theorem BrowserSpec.fields_take : fields.Takes ToldBy := by
  refine .of_iff (.seq (.seq (.seq (.map _ (required_takes text_takes))
    (optional_takes text_takes)) (optional_takes text_takes)) (defaulted_takes json_takes)) ?_
  intro ws s
  constructor
  · rintro ⟨_, _, ⟨_, _, ⟨_, _, ⟨_, command, rfl⟩, selector, rfl⟩, url, rfl⟩, options, rfl⟩
    exact ⟨command, selector, url, options⟩
  · intro ⟨command, selector, url, options⟩
    exact ⟨_, _, ⟨_, _, ⟨_, _, ⟨_, command, rfl⟩, selector, rfl⟩, url, rfl⟩, options, rfl⟩

structure TaskSpec.ToldBy (ws : List (String × Json)) (s : TaskSpec) : Prop where
  source : Defaulted ws "source" (TellsOption TellsText) none s.source

theorem TaskSpec.fields_take : fields.Takes ToldBy := by
  refine .of_iff (.map _ (optional_takes text_takes)) ?_
  intro ws s
  constructor
  · rintro ⟨_, source, rfl⟩
    exact ⟨source⟩
  · intro ⟨source⟩
    exact ⟨_, source, rfl⟩

/-- The members of a record tell what an action of a family does. -/
def ActionSpec.ToldBy (ws : List (String × Json)) : Family → ActionSpec → Prop
  | .http, .http s => s.ToldBy ws
  | .graphql, .graphql s => s.ToldBy ws
  | .udp, .udp s => s.ToldBy ws
  | .playwright, .playwright s => s.ToldBy ws
  | .task, .task s => s.ToldBy ws
  | _, _ => False

theorem Family.read_ok_iff (f : Family) (ws : List (String × Json)) (s : ActionSpec) :
    f.read .value (Draft.ofJson (.record ws)) = .ok s ↔ s.ToldBy ws f := by
  have form {τ : Type} {fs : Fields τ τ} {tells : List (String × Json) → τ → Prop} (title : String)
      (wrap : τ → ActionSpec) (takes : fs.Takes tells) :
      wrap <$> (Codec.record title fs).read .value (Draft.ofJson (.record ws)) = .ok s ↔
        ∃ t, tells ws t ∧ wrap t = s := by
    constructor
    · intro ok
      obtain ⟨t, read, made⟩ := Outcome.map_ok ok
      exact ⟨t, (Codec.record_takes takes ws t).1 read, made⟩
    · rintro ⟨t, told, rfl⟩
      have read : (Codec.record title fs).read .value (Draft.ofJson (.record ws)) = .ok t :=
        (Codec.record_takes takes ws t).2 told
      rw [read]
      rfl
  cases f with
  | http =>
    refine (form "RequestSpec" .http RequestSpec.fields_take).trans ?_
    cases s <;> simp [ActionSpec.ToldBy]
  | graphql =>
    refine (form "QuerySpec" .graphql QuerySpec.fields_take).trans ?_
    cases s <;> simp [ActionSpec.ToldBy]
  | udp =>
    refine (form "DatagramSpec" .udp DatagramSpec.fields_take).trans ?_
    cases s <;> simp [ActionSpec.ToldBy]
  | playwright =>
    refine (form "BrowserSpec" .playwright BrowserSpec.fields_take).trans ?_
    cases s <;> simp [ActionSpec.ToldBy]
  | task =>
    refine (form "TaskSpec" .task TaskSpec.fields_take).trans ?_
    cases s <;> simp [ActionSpec.ToldBy]

namespace Action

/-- The members of a record tell what all records may say. -/
structure Heading.ToldBy (ws : List (String × Json)) (h : Heading) : Prop where
  order : Defaulted ws "order" TellsWord32 0 h.order
  weight : Defaulted ws "weight" TellsFloat 1.0 h.weight
  tags : Defaulted ws "tags" (TellsList Tag.ToldBy) [] h.tags

theorem Heading.codec_ok_iff (ws : List (String × Json)) (h : Heading) :
    codec.ofJson (.record ws) = .ok h ↔ h.ToldBy ws := by
  refine Iff.trans (Codec.record_takes (.seq (.seq (.map _ (defaulted_takes word32_takes))
    (defaulted_takes float_takes)) (defaulted_takes (list_takes Tag.codec_takes))) ws h) ?_
  constructor
  · rintro ⟨_, _, ⟨_, _, ⟨_, order, rfl⟩, weight, rfl⟩, tags, rfl⟩
    exact ⟨order, weight, tags⟩
  · intro ⟨order, weight, tags⟩
    exact ⟨_, _, ⟨_, _, ⟨_, order, rfl⟩, weight, rfl⟩, tags, rfl⟩

/-- The text under a name. Where the name is repeated it is the first that counts. -/
def TextUnder (ws : List (String × Json)) (name s : String) : Prop :=
  ws.lookup name = some (.text s)

theorem text_field?_iff (ws : List (String × Json)) (name s : String) :
    ((Json.record ws).field? name).bind asText? = some s ↔ TextUnder ws name s := by
  show (ws.lookup name).bind asText? = some s ↔ ws.lookup name = some (.text s)
  cases ws.lookup name with
  | none => simp
  | some j => cases j <;> simp [asText?]

theorem nameOf_ok_iff (ws : List (String × Json)) (name : String) :
    nameOf (.record ws) = .ok name ↔
      ∃ s, TextUnder ws "name" s ∧ Text.isBlankText s = false ∧ name = Text.trim s := by
  simp only [← text_field?_iff, nameOf]
  cases ((Json.record ws).field? "name").bind asText? with
  | none => simp
  | some s =>
      simp only [Option.some.injEq]
      constructor
      · intro ok
        split at ok
        · cases ok
        · rename_i stays
          exact ⟨s, rfl, Bool.eq_false_of_not_eq_true stays, (Except.ok.inj ok).symm⟩
      · rintro ⟨_, rfl, stays, rfl⟩
        rw [stays]
        rfl

/-- A text names an engine, blanks around it and the case of its letters aside. -/
def Names (s : String) (e : Engine) : Prop :=
  (Text.trim s).toList.map Char.toLower = e.name.toList

theorem ofName?_eq_some_iff (s : String) (e : Engine) : Engine.ofName? s = some e ↔ Names s e := by
  have trimmed : (Text.trim s).toList = Text.trimChars s.toList := String.toList_ofList
  unfold Engine.ofName? Names
  rw [trimmed]
  generalize (Text.trimChars s.toList).map Char.toLower = wanted
  constructor
  · intro found
    have spelled := @List.find?_some Engine (fun e => e.name.toList == wanted) _ _ found
    exact (beq_iff_eq.1 spelled).symm
  · rintro rfl
    cases found : Engine.all.find? fun e' => e'.name.toList == e.name.toList with
    | none =>
        have absent := List.find?_eq_none.1 found e e.mem_all
        simp at absent
    | some e' =>
        have spelled : e'.name.toList = e.name.toList := by simpa using List.find?_some found
        rw [Engine.name_injective (String.toList_inj.1 spelled)]

theorem engineOf_ok_iff (ws : List (String × Json)) (name : String) (e : Engine) :
    engineOf name (.record ws) = .ok e ↔ ∃ s, TextUnder ws "engine" s ∧ Names s e := by
  simp only [← text_field?_iff, ← ofName?_eq_some_iff, engineOf]
  cases ((Json.record ws).field? "engine").bind asText? with
  | none => simp
  | some s =>
      cases named : Engine.ofName? s with
      | none => simp [named]
      | some e' => simp [named]

/-- The members of a record tell an action: its name, without the blanks around it, its engine, what
all records may say, and what the engine's family needs. -/
structure ToldBy (ws : List (String × Json)) (a : Action) : Prop where
  name : ∃ s, TextUnder ws "name" s ∧ Text.isBlankText s = false ∧ a.name = Text.trim s
  engine : ∃ s, TextUnder ws "engine" s ∧ Names s a.engine
  order : Defaulted ws "order" TellsWord32 0 a.order
  weight : Defaulted ws "weight" TellsFloat 1.0 a.weight
  tags : Defaulted ws "tags" (TellsList Tag.ToldBy) [] a.tags
  spec : a.spec.ToldBy ws (Family.ofEngine a.engine)

theorem ToldBy.headed {ws : List (String × Json)} {a : Action} (told : a.ToldBy ws) :
    Heading.codec.ofJson (.record ws) = .ok ⟨a.order, a.weight, a.tags⟩ :=
  (Heading.codec_ok_iff ws _).2 ⟨told.order, told.weight, told.tags⟩

theorem ofRecord_record_iff (ws : List (String × Json)) (a : Action) :
    ofRecord (.record ws) = .ok a ↔ a.ToldBy ws := by
  constructor
  · intro ok
    obtain ⟨name, named, ok⟩ := Outcome.bind_ok ok
    obtain ⟨engine, driven, ok⟩ := Outcome.bind_ok ok
    obtain ⟨heading, headed, ok⟩ := Outcome.bind_ok ok
    obtain ⟨spec, specified, ok⟩ := Outcome.bind_ok ok
    cases ok
    have told := (Heading.codec_ok_iff ws heading).1 (Outcome.mapError_ok_iff.1 headed)
    exact {
      name := (nameOf_ok_iff ws name).1 named
      engine := (engineOf_ok_iff ws name engine).1 driven
      order := told.order
      weight := told.weight
      tags := told.tags
      spec := (Family.read_ok_iff _ ws spec).1 (Outcome.mapError_ok_iff.1 specified) }
  · intro told
    have named := (nameOf_ok_iff ws a.name).2 told.name
    have driven := (engineOf_ok_iff ws a.name a.engine).2 told.engine
    have specified := (Family.read_ok_iff _ ws a.spec).2 told.spec
    rw [ofRecord, named]
    show (engineOf a.name (.record ws) >>= _) = _
    rw [driven]
    show ((Heading.codec.ofJson (.record ws)).mapError _ >>= _) = _
    rw [told.headed]
    show (((Family.ofEngine a.engine).read .value _).mapError _ >>= _) = _
    rw [specified]
    rfl

theorem nameOf_error {record : Json} {e : Error} (failed : nameOf record = .error e) :
    e.kind = .invalidInput := by
  unfold nameOf at failed
  split at failed
  · cases failed
    rfl
  · split at failed
    · cases failed
      rfl
    · cases failed

theorem engineOf_error {name : String} {record : Json} {e : Error}
    (failed : engineOf name record = .error e) : e.kind = .invalidInput := by
  unfold engineOf at failed
  split at failed
  · cases failed
    rfl
  · split at failed
    · cases failed
      rfl
    · cases failed

/-- A record that is refused is refused as invalid input. -/
theorem ofRecord_error {record : Json} {e : Error} (failed : ofRecord record = .error e) :
    e.kind = .invalidInput := by
  cases record with
  | record ws =>
      rcases Outcome.bind_error failed with first | ⟨name, -, failed⟩
      · exact nameOf_error first
      rcases Outcome.bind_error failed with second | ⟨engine, -, failed⟩
      · exact engineOf_error second
      rcases Outcome.bind_error failed with third | ⟨heading, -, failed⟩
      · obtain ⟨fault, -, rfl⟩ := Outcome.mapError_error third
        rfl
      rcases Outcome.bind_error failed with fourth | ⟨spec, -, last⟩
      · obtain ⟨fault, -, rfl⟩ := Outcome.mapError_error fourth
        rfl
      · cases last
  | _ =>
      cases failed
      rfl

theorem ofRecord_ok_iff (record : Json) (a : Action) :
    ofRecord record = .ok a ↔ ∃ ws, record = .record ws ∧ a.ToldBy ws := by
  cases record with
  | record ws =>
      rw [ofRecord_record_iff]
      constructor
      · intro told
        exact ⟨ws, rfl, told⟩
      · rintro ⟨_, same, told⟩
        cases same
        exact told
  | _ =>
      constructor
      · intro ok
        cases ok
      · rintro ⟨_, same, -⟩
        cases same

/-- An action is read from a value exactly if the value is a record that tells it. A value that
tells no action is refused, always as invalid input. -/
theorem ofRecord_grammar (record : Json) :
    (∀ a, ofRecord record = .ok a ↔ ∃ ws, record = .record ws ∧ a.ToldBy ws) ∧
    ((∃ e, ofRecord record = .error e ∧ e.kind = .invalidInput) ↔
      ¬ ∃ ws a, record = .record ws ∧ ToldBy ws a) := by
  apply And.intro (ofRecord_ok_iff record)
  cases read : ofRecord record with
  | ok a =>
      obtain ⟨ws, same, told⟩ := (ofRecord_ok_iff record a).1 read
      constructor
      · rintro ⟨e, failed, -⟩
        cases failed
      · intro untold
        exact absurd ⟨ws, a, same, told⟩ untold
  | error e =>
      constructor
      · rintro - ⟨ws, a, same, told⟩
        have accepted := (ofRecord_ok_iff record a).2 ⟨ws, same, told⟩
        rw [read] at accepted
        cases accepted
      · intro
        exact ⟨e, rfl, ofRecord_error read⟩

-- Blanks around the name and the case of the engine are overlooked, and a task needs nothing more.
example : ToldBy [("name", .text " ping "), ("engine", .text "TASK")]
    ⟨"ping", .task, 0, 1.0, [], .task ⟨none⟩⟩ where
  name := ⟨" ping ", rfl, by decide, by decide⟩
  engine := ⟨"TASK", rfl, show _ = _ by decide⟩
  order := rfl
  weight := rfl
  tags := rfl
  spec := ⟨rfl⟩

end Action

end BenchReport
