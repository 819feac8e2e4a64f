import BenchReport.Proofs.Acceptance
import BenchReport.Proofs.Event.Body
import BenchReport.Proofs.Event.Id
set_option autoImplicit false

namespace BenchReport

open Json Fields

variable {n : Nat}

theorem Tag.codec_restores (t : Tag) : Tag.codec.Restores (n + 1) t := by
  obtain ⟨name, value⟩ := t
  refine Codec.record_restores (Keeps.restores ?_) (by decide)
  exact .seq (.map _ required_text_keeps) required_text_keeps

theorem Timings.codec_restores {t : Timings} (readable : ∀ p, Readable (t.get p)) :
    Timings.codec.Restores (n + 1) t := by
  refine Codec.record_restores (Keeps.restores ?_) (by decide)
  have phase (p : Phase) := Codec.float_restores (n := n) (readable p)
  obtain ⟨total, waiting, connecting, writing, reading⟩ := t
  refine .seq (.seq (.seq (.seq (.map _ ?_) ?_) ?_) ?_) ?_
  · exact defaulted_keeps (phase .total)
  · exact defaulted_keeps (phase .waiting)
  · exact defaulted_keeps (phase .connecting)
  · exact defaulted_keeps (phase .writing)
  · exact defaulted_keeps (phase .reading)

theorem Timestamp.codec_restores {t : Timestamp} (readable : Timestamp.parse? t.display = some t) :
    Timestamp.codec.Restores n t :=
  Codec.checked_restores (Codec.text_restores _) (by simp only [readable])

theorem Header.fields_keep {h : Header} (timings : ∀ p, Readable (h.timings.get p))
    (time : Timestamp.parse? h.timestamp.display = some h.timestamp) :
    Header.fields.Keeps (n + 2) h h := by
  obtain ⟨eventId, actionId, name, shortName, stage, source, error, checks, timed, tags, at_⟩ := h
  refine .seq (.seq (.seq (.seq (.seq (.seq (.seq (.seq (.seq (.seq (.map _ ?_) ?_) ?_) ?_) ?_) ?_)
    ?_) ?_) ?_) ?_) ?_
  · exact required_keeps eventId.codec_restores
  · exact required_text_keeps
  · exact required_text_keeps
  · exact required_text_keeps
  · exact required_text_keeps
  · exact required_text_keeps
  · exact sparse_text_keeps
  · exact defaulted_keeps (Codec.list_restores fun c _ => Codec.text_restores c)
  · exact required_keeps (Timings.codec_restores timings)
  · exact defaulted_keeps (Codec.list_restores fun t _ => t.codec_restores)
  · exact required_keeps (Timestamp.codec_restores time)

theorem Exchange.fields_keep (x : Exchange) : Exchange.fields.Keeps (n + 1) x x := by
  obtain ⟨url, ipAddr, method, path, params, hostname, status, headers, data⟩ := x
  refine .seq (.seq (.seq (.seq (.seq (.seq (.seq (.seq (.map _ ?_) ?_) ?_) ?_) ?_) ?_) ?_) ?_) ?_
  · exact defaulted_text_keeps
  · exact sparse_text_keeps
  · exact defaulted_text_keeps
  · exact defaulted_text_keeps
  · exact defaulted_text_keeps
  · exact defaulted_text_keeps
  · exact sparse_word16_keeps
  · exact defaulted_keeps (Codec.texts_restores fun e _ => Codec.text_restores e.2)
  · exact Body.sparse_keeps

theorem Datagram.fields_keep (x : Datagram) : Datagram.fields.Keeps (n + 1) x x := by
  obtain ⟨url, ipAddr, path, params, hostname, status, data⟩ := x
  refine .seq (.seq (.seq (.seq (.seq (.seq (.map _ ?_) ?_) ?_) ?_) ?_) ?_) ?_
  · exact defaulted_text_keeps
  · exact sparse_text_keeps
  · exact defaulted_text_keeps
  · exact defaulted_text_keeps
  · exact defaulted_text_keeps
  · exact sparse_word16_keeps
  · exact Body.sparse_keeps

theorem BrowserStep.fields_keep {step : BrowserStep} (x : ∀ d ∈ step.x, Readable d)
    (y : ∀ d ∈ step.y, Readable d) : BrowserStep.fields.Keeps (n + 1) step step := by
  obtain ⟨url, command, selector, x', y', frame⟩ := step
  refine .seq (.seq (.seq (.seq (.seq (.map _ ?_) ?_) ?_) ?_) ?_) ?_
  · exact defaulted_text_keeps
  · exact defaulted_text_keeps
  · exact sparse_text_keeps
  · exact sparse_float_keeps x
  · exact sparse_float_keeps y
  · exact sparse_word32_keeps

theorem TaskOutput.fields_keep (x : TaskOutput) : TaskOutput.fields.Keeps (n + 1) x x := by
  obtain ⟨data⟩ := x
  exact .map _ Body.sparse_keeps

theorem Engine.name_injective {e e' : Engine} (same : e.name = e'.name) : e = e' := by
  have distinct : ∀ e ∈ Engine.all, ∀ e' ∈ Engine.all, e.name = e'.name → e = e' := by decide
  exact distinct e e.mem_all e' e'.mem_all same

namespace Detail

def keys : List String :=
  variants.tag :: (Exchange.fields.names ++ Datagram.fields.names ++ BrowserStep.fields.names ++
    TaskOutput.fields.names)

/-- Keys of the header and keys of details never capture one another. -/
theorem keys_apart : ∀ k ∈ keys, k ∉ Header.fields.names := by decide

def doubles : Detail → List Float
  | playwright step => step.x.toList ++ step.y.toList
  | _ => []

theorem word_listed (d : Detail) : variants.word d ∈ variants.words :=
  List.mem_map_of_mem d.engine.mem_all

/-- A form restores its details when its fields do. -/
theorem restores_of_form {τ : Type} {fs : Fields τ τ} {t : τ} (form : τ → Detail) (title : String)
    (keeps : fs.Keeps (n + 1) t t) (distinct : fs.names.Nodup)
    (listed : ∀ k ∈ fs.names, k ∈ keys ∧ k ≠ variants.tag)
    (written : variants.write (form t) = fs.write t)
    (read : ∀ draft, Detail.read .value draft (form t).engine =
      form <$> (Codec.record title fs).read .value draft) :
    variants.fields.Restores (n + 1) (form t) (form t) ∧
      ∀ e ∈ variants.fields.write (form t), e.1 ∈ keys := by
  have own : ∀ e ∈ variants.write (form t), e.1 ∈ keys ∧ e.1 ≠ variants.tag := by
    intro e mem
    rw [written] at mem
    exact listed e.1 (keeps.closed e mem)
  constructor
  · refine Variants.fields_restores (word_listed _) ?_ (fun e mem => (own e mem).2) ?_
    · rw [written]
      exact keeps.plain
    · have engine : Codec.findWord Engine.all Engine.name (variants.word (form t)) =
          .ok (form t).engine :=
        Codec.findWord_spell (form t).engine.mem_all fun e _ same => Engine.name_injective same
      have restores : (Codec.record title fs).Restores (n + 2) t :=
        Codec.record_restores keeps.restores distinct
      change Codec.findWord Engine.all Engine.name (variants.word (form t)) >>=
        Detail.read .value (Draft.ofJson (.record (variants.write (form t)))) = .ok (form t)
      rw [engine, written]
      change Detail.read .value (Draft.ofJson ((Codec.record title fs).write t)) (form t).engine =
        .ok (form t)
      rw [read, restores.reads .value]
      rfl
  · exact List.forall_mem_cons.2 ⟨List.mem_cons_self, fun e mem => (own e mem).1⟩

/-- A detail is restored from what it wrote into a record that names none of its keys. -/
theorem variants_restore {d : Detail} (readable : ∀ x ∈ d.doubles, Readable x) :
    variants.fields.Restores (n + 1) d d ∧ ∀ e ∈ variants.fields.write d, e.1 ∈ keys := by
  cases d with
  | request e x =>
      exact restores_of_form (request e) "Exchange" x.fields_keep (by decide) (by decide) rfl
        fun _ => rfl
  | udp x =>
      exact restores_of_form udp "Datagram" x.fields_keep (by decide) (by decide) rfl fun _ => rfl
  | playwright step =>
      have x := fun d mem => readable d (List.mem_append_left _ (Option.mem_toList.2 mem))
      have y := fun d mem => readable d (List.mem_append_right _ (Option.mem_toList.2 mem))
      exact restores_of_form playwright "BrowserStep" (BrowserStep.fields_keep x y) (by decide)
        (by decide) rfl fun _ => rfl
  | task x =>
      exact restores_of_form task "TaskOutput" x.fields_keep (by decide) (by decide) rfl
        fun _ => rfl

end Detail

namespace Event

def doubles (e : Event) : List Float := e.header.timings.toList.map (·.2) ++ e.detail.doubles

theorem timing_mem_doubles (e : Event) (p : Phase) : e.header.timings.get p ∈ e.doubles := by
  refine List.mem_append_left _ (List.mem_map.2 ⟨(p, e.header.timings.get p), ?_, rfl⟩)
  exact List.mem_map.2 ⟨p, p.mem_all, rfl⟩

/-- An event whose doubles and whose time have texts that read back reads back whole. -/
theorem codec_restores {e : Event} (readable : ∀ x ∈ e.doubles, Readable x)
    (time : Timestamp.parse? e.header.timestamp.display = some e.header.timestamp) :
    codec.Restores 3 e := by
  have timings := fun p => readable _ (e.timing_mem_doubles p)
  obtain ⟨header, detail⟩ := e
  have kept : (Fields.inline Header.fields Event.header).Keeps 2 ⟨header, detail⟩ header :=
    inline_keeps (Header.fields_keep timings time)
  obtain ⟨restores, listed⟩ := Detail.variants_restore (n := 1)
    (d := detail) fun x mem => readable x (List.mem_append_right _ mem)
  refine Codec.record_restores ?_ (by decide)
  refine (kept.map Event.mk).seqFree (inline_restores restores) ?_
  intro e mem
  exact Detail.keys_apart e.1 (listed e mem)

/-- The doubles of an event are timings, which are finite, or coordinates of the observation. -/
theorem finite_doubles {o : Observation} {stage : String} {e : Event}
    (made : Event.ofObservation o stage = .ok e)
    (finite : ∀ d, o.x = some d ∨ o.y = some d → d.isFinite = true) :
    ∀ d ∈ e.doubles, d.isFinite = true := by
  have kept := madeOf made
  have sound := (Timings.fault?_eq_none_iff _).1 kept.sound
  intro d mem
  rw [doubles, kept.timings, kept.detail] at mem
  rcases List.mem_append.1 mem with timed | placed
  · obtain ⟨_, entry, rfl⟩ := List.mem_map.1 timed
    obtain ⟨p, -, rfl⟩ := List.mem_map.1 entry
    exact (sound p).1
  · generalize e.engine = engine at placed
    cases engine with
    | playwright =>
        rcases List.mem_append.1 placed with x | y
        · exact finite d (.inl (Option.mem_toList.1 x))
        · exact finite d (.inr (Option.mem_toList.1 y))
    | _ => cases placed

/-- An event made of an observation reads back from its text as the same event, whatever its engine
and whatever the observation holds. Its coordinates must be finite, and the texts of its doubles and
of its time must read back. -/
theorem ofText_toText {o : Observation} {stage : String} {e : Event}
    (made : Event.ofObservation o stage = .ok e)
    (finite : ∀ d, o.x = some d ∨ o.y = some d → d.isFinite = true)
    (doubles : ∀ d ∈ e.doubles, d.isFinite = true → Readable d)
    (time : Timestamp.parse? e.header.timestamp.display = some e.header.timestamp) :
    codec.ofText (codec.toText e) = .ok e := by
  have readable : ∀ d ∈ e.doubles, Readable d :=
    fun d mem => doubles d mem (finite_doubles made finite d mem)
  exact (codec_restores readable time).rereads (by decide)

def failedClick : Observation where
  eventId := some ⟨0x0123456789abcdef0123456789abcdef⟩
  actionId := none
  name := some "press \"pay\""
  shortName := none
  source := none
  engine := some .playwright
  error := some "no such\n\x01button \u00e9"
  checks := ["visible", ""]
  timings := ⟨0.1, 0.0, 5e-324, 1e300, 0.30000000000000004⟩
  tags := [⟨"type", "url"⟩]
  timestamp := some ⟨1714557600, 500000000⟩
  url := none
  ipAddr := none
  method := none
  path := none
  params := none
  hostname := some ""
  status := none
  headers := Table.empty
  data := some (.bytes ⟨#[255, 0]⟩)
  command := some "click"
  selector := none
  x := some (-0.0)
  y := some 12.5
  frame := some 3

def failedClickEvent : Event where
  header := {
    eventId := ⟨0x0123456789abcdef0123456789abcdef⟩
    actionId := "press \"pay\""
    name := "press \"pay\""
    shortName := "press \"pay\""
    stage := "peak"
    source := "playwright"
    error := some "no such\n\x01button \u00e9"
    checks := ["visible", ""]
    timings := ⟨0.1, 0.0, 5e-324, 1e300, 0.30000000000000004⟩
    tags := [⟨"type", "url"⟩]
    timestamp := ⟨1714557600, 500000000⟩ }
  detail := .playwright {
    url := ""
    command := "click"
    selector := none
    x := some (-0.0)
    y := some 12.5
    frame := some 3 }

theorem ofText_toText_failedClick :
    Event.ofObservation failedClick "peak" = .ok failedClickEvent ∧
      codec.ofText (codec.toText failedClickEvent) = .ok failedClickEvent := by
  have made : Event.ofObservation failedClick "peak" = .ok failedClickEvent := by decide +kernel
  refine ⟨made, ofText_toText made ?_ (by decide +kernel) (by decide +kernel)⟩
  rintro d (x | y)
  · cases x
    decide +kernel
  · cases y
    decide +kernel

end Event

end BenchReport
