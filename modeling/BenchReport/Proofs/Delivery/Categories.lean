import BenchReport.Proofs.Delivery.Appending
import BenchReport.Proofs.Delivery.Interruptions
import BenchReport.Proofs.Experiments
import BenchReport.Proofs.Session.Admission
set_option autoImplicit false

namespace BenchReport

/-- Items that all have rows have none together only if there are no items. -/
theorem flatMap_eq_nil_iff_of_filled {α β : Type} {f : α → List β} {l : List α}
    (filled : ∀ x ∈ l, f x ≠ []) : l.flatMap f = [] ↔ l = [] := by
  rw [List.flatMap_eq_nil_iff, List.eq_nil_iff_forall_not_mem]
  exact forall₂_congr fun x mem => iff_of_false (filled x mem) id

namespace Payload

/-- Each action has rows of its phases, each stage with streams has rows of its measures, and each
experiment has rows of its variants. -/
structure Filled (p : Payload) : Prop where
  phases : ∀ m ∈ p.actions, m.phaseRows ≠ []
  measures : ∀ o ∈ p.streams.values, o.rows ≠ []
  variants : ∀ r ∈ p.experiments, r.variants ≠ []

theorem Filled.has_eq_false_iff {p : Payload} (filled : p.Filled) (c : Category) :
    p.has c = false ↔ p.rows c = [] := by
  cases c with
  | events => simp [has, rows]
  | common => simp [has, rows]
  | metrics =>
      rw [rows, List.map_eq_nil_iff, flatMap_eq_nil_iff_of_filled filled.phases]
      simp [has]
  | custom => simp [has, rows, ActionMetrics.customRow?, List.filterMap_eq_nil_iff]
  | errors => simp [has, rows, ActionMetrics.errorRows, List.flatMap_eq_nil_iff]
  | streams =>
      rw [rows, List.map_eq_nil_iff, flatMap_eq_nil_iff_of_filled filled.measures]
      simp [has, Table.isEmpty, Table.values]
  | experiments => simp [has, rows]
  | variants =>
      rw [rows, List.map_eq_nil_iff, ExperimentReport.variantRows,
        flatMap_eq_nil_iff_of_filled filled.variants]
      simp [has]
  | mutations => simp [has, rows, ExperimentReport.allMutationRows, List.flatMap_eq_nil_iff]
  | sessionMonitors => simp [has, rows, MonitorReport.sessionRows]
  | stageMonitors => simp [has, rows, MonitorReport.stageRows]

-- A stage whose streams came to no figures would be delivered without a row.
example :
    let p := { empty with streams := Table.ofList [("ramp", ⟨"ramp", Table.empty, 0, 0, 0, []⟩)] }
    p.has .streams = true ∧ p.rows .streams = [] :=
  ⟨rfl, rfl⟩

end Payload

/-- Each measure has its row. -/
theorem StreamOverview.rows_ofStreams (stage : String) (streams : List StreamSeries) :
    (ofStreams stage streams).rows = Measure.all.map fun m =>
      ⟨stage ++ "_streams", stage, m.name, figuresOf streams m⟩ :=
  rfl

/-- An experiment is reported on because of an outcome, whose variant has a row. -/
theorem ExperimentReport.variants_ne_nil {outcomes : List (Experiment × Outcome Float)}
    {reports : List (ExperimentReport Float)} (made : ofAll outcomes = .ok reports)
    {r : ExperimentReport Float} (mem : r ∈ reports) : r.variants ≠ [] := by
  obtain ⟨g, -, on⟩ := Outcome.exists_of_mem (ofAll_on made) mem
  obtain ⟨first, head, of_group⟩ := on.made
  obtain ⟨whole, -, rfl⟩ := ofOutcomes_ok_iff.1 of_group
  have some : g.2 ≠ [] := List.ne_nil_of_mem (List.mem_of_mem_head? head)
  simpa only [ofWhole, ne_eq, List.map_eq_nil_iff] using some

/-- The report on stages that were summed up is filled. -/
theorem SessionReport.ofBlocks_filled {loaded : List LoadedStage} {blocks : List StageBlock}
    {report : SessionReport} (summed : List.Forall₂ (fun l b => l.block = .ok b) loaded blocks)
    (made : ofBlocks blocks = .ok report) : report.payload.Filled := by
  obtain ⟨experiments, gathered, rfl⟩ := ofBlocks_ok_iff.1 made
  constructor
  case phases =>
    intro m mem
    obtain ⟨b, listed, own⟩ := List.mem_flatMap.1 mem
    obtain ⟨l, -, made⟩ := Outcome.exists_of_mem summed listed
    obtain ⟨parts, -, written, -⟩ := StageBlock.ofStage_ok_iff.1 made
    obtain ⟨action, t, rate, custom, -, rfl⟩ := StageTally.exists_of_mem_parts written own
    rw [ActionMetrics.phaseRows_written]
    exact List.cons_ne_nil _ _
  case measures =>
    intro o mem
    obtain ⟨e, entry, rfl⟩ := List.mem_map.1 mem
    obtain ⟨b, -, streamed⟩ := List.mem_filterMap.1 (Table.mem_of_mem_ofList entry)
    unfold StageBlock.streams? at streamed
    split at streamed
    · cases streamed
    · cases streamed
      rw [StreamOverview.rows_ofStreams]
      exact List.cons_ne_nil _ _
  case variants => exact fun r mem => ExperimentReport.variants_ne_nil gathered mem

namespace Backend

variable {σ : Type} {b : Backend σ} {p : Payload} {cs : List Category} {cancelled ended : Bool}
  {d d' : Delivery} {s t : σ}

/-- It may fail, but it never refuses a category that it was handed. -/
def Obliging (b : Backend σ) : Prop :=
  ∀ c p s e now t, (b.submit c p).run s = (.done (.error e) now, t) → e.kind ≠ .unsupported

/-- Submissions to a backend that refuses nothing are those of the categories that are due. -/
theorem submitAll_sorted (obliging : b.Obliging)
    (run : (b.submitAll p cs cancelled d).run s = ((.ok d', ended), t)) :
    d' = ⟨d.submitted ++ b.due p cs,
      d.skipped ++ cs.filter fun c => !(p.has c && b.supports c)⟩ := by
  induction cs generalizing cancelled d s with
  | nil =>
      cases run
      simp only [due, List.filter_nil, List.append_nil]
  | cons c rest ih =>
      cases handed : p.has c && b.supports c with
      | false =>
          rw [submitAll_not_due handed] at run
          rw [ih run]
          simp only [due, Delivery.skip, List.filter_cons, handed, Bool.not_false,
            Bool.false_eq_true, if_true, if_false, List.append_assoc, List.singleton_append]
      | true =>
          rcases answered : (step c.step (b.submit c p) cancelled).run s with ⟨⟨result, now⟩, u⟩
          rcases passed_or_failed result with passed | ⟨e, rfl, failed⟩
          · rw [submitAll_passed handed answered passed] at run
            obtain ⟨-, replied⟩ := step_passed answered passed
            cases result with
            | error e => exact absurd (passed e rfl) (obliging c p s e now u replied)
            | ok _ =>
                rw [ih run]
                simp only [due, file, Delivery.submit, List.filter_cons, handed, Bool.not_true,
                  Bool.false_eq_true, if_true, if_false, List.append_assoc, List.singleton_append]
          · rw [submitAll_failed handed answered failed] at run
            cases run

theorem deliver_sorted (obliging : b.Obliging)
    (run : (b.deliver p cancelled).run s = (.ok d, t)) :
    d = ⟨b.due p Category.all, Category.all.filter fun c => !(p.has c && b.supports c)⟩ := by
  obtain ⟨now, _, ended, u, late, -, submitted, -⟩ := deliver_ok run
  exact submitAll_sorted obliging submitted

end Backend

namespace Folder

theorem backend_obliging (s : FolderSettings) : (backend s false).Obliging := by
  intro c p f e now g replied
  rcases step_submit s c p f with ⟨g', -, answered⟩ | ⟨e', failed, answered⟩
  · rw [Backend.step_run, replied] at answered
    cases answered
  · rw [Backend.step_run, replied] at answered
    cases answered
    exact failed

/-- What a file holds after rows were written to it: one pretty list of them, or behind what it held
before a line for each. The list, or each line, is read as what it is of. -/
def Holds (policy : WritePolicy) (rows : List Json) (before after : Option ByteArray) : Prop :=
  match policy with
  | .overwrite => ∃ text : String, after = some text.toUTF8 ∧ text = (Json.list rows).pretty ∧
      Json.Spells text (.list rows)
  | .append => ∃ bytes, after = some bytes ∧
      bytes.data.toList = (before.getD ByteArray.empty).data.toList ++
        (rows.flatMap fun r => r.line ++ [10]) ∧
      ∀ r ∈ rows, ∃ text : String, r.line = text.toUTF8.data.toList ∧ Json.Spells text r

theorem holds_contents (policy : WritePolicy) (rows : List Json) (before : Option ByteArray) :
    Holds policy rows before (some (contents policy rows before)) := by
  cases policy with
  | overwrite => exact ⟨_, rfl, rfl, Json.spells_pretty _⟩
  | append =>
      refine ⟨_, rfl, ?_, fun r _ => ⟨r.compact, rfl, Json.spells_compact r⟩⟩
      rw [contents, ByteArray.data_append, Array.toList_append, toList_lined]

/-- What a delivery comes to that succeeds: the categories that have rows are submitted, in order,
and their rows written to their files. The files of all others are as they were. -/
structure Delivered (s : FolderSettings) (p : Payload) (before after : Files) (d : Delivery) :
    Prop where
  submitted : d.submitted = Category.all.filter fun c => !(p.rows c).isEmpty
  skipped : d.skipped = Category.all.filter fun c => (p.rows c).isEmpty
  written (c : Category) (some_row : p.rows c ≠ []) :
    Holds s.policy (p.rows c) (stored s before c) (stored s after c)
  untouched (c : Category) (no_row : p.rows c = []) : stored s after c = stored s before c

variable {s : FolderSettings} {p : Payload} {before after : Files} {d : Delivery}

/-- Workers that were sent home do not even make the folder. -/
theorem not_stopped {cancelled stopped : Bool}
    (run : ((backend s stopped).deliver p cancelled).run before = (.ok d, after)) :
    stopped = false := by
  obtain ⟨now, t, ended, u, late, connected, -, -⟩ := Backend.deliver_ok run
  obtain ⟨-, replied⟩ := Backend.step_passed connected fun _ failed => nomatch failed
  cases stopped with
  | false => rfl
  | true => cases replied

theorem deliver_filled (filled : p.Filled)
    (run : ((backend s false).deliver p false).run before = (.ok d, after)) :
    Delivered s p before after d := by
  have due_iff (c : Category) : (p.has c && (backend s false).supports c) = !(p.rows c).isEmpty := by
    have takes : (backend s false).supports c = true := List.contains_iff_mem.2 c.mem_all
    rw [takes, Bool.and_true, Bool.eq_iff_iff, Bool.not_eq_true', List.isEmpty_eq_false_iff, ne_eq,
      ← filled.has_eq_false_iff c, Bool.not_eq_false]
  have sorted := Backend.deliver_sorted (backend_obliging s) run
  constructor
  case submitted =>
    rw [sorted]
    simp only [Backend.due, due_iff]
  case skipped =>
    rw [sorted]
    simp only [due_iff, Bool.not_not]
  case written =>
    intro c some_row
    have handed : p.has c = true := by
      rwa [ne_eq, ← filled.has_eq_false_iff c, Bool.not_eq_false] at some_row
    rw [deliver_stored run, if_pos handed]
    exact holds_contents _ _ _
  case untouched =>
    intro c no_row
    have passed_over : ¬ p.has c = true := by
      rwa [← filled.has_eq_false_iff c, ← Bool.not_eq_true] at no_row
    rw [deliver_stored run, if_neg passed_over]

end Folder

/-- A report says of a category that there is something to deliver exactly when it has rows of it.
So a delivery to a folder that succeeds, whenever the run may have been cancelled, submits the
categories with rows and writes those rows, and leaves the files of all others alone. -/
theorem Source.collect_delivers_rows {σ : Type} (source : Source σ) {a t : σ}
    {report : SessionReport} (collected : source.collect.run.run a = (.ok report, t)) :
    (∀ c, report.payload.has c = true ↔ report.payload.rows c ≠ []) ∧
      ∀ (s : FolderSettings) (stopped cancelled : Bool) (before after : Files)
        (coming left : List (Moment Files)) (d : Delivery),
        ((Folder.backend s stopped).interrupted.deliver report.payload cancelled).run
          (before, coming) = (.ok d, after, left) →
        Folder.Delivered s report.payload before after d := by
  obtain ⟨loaded, blocks, -, summed, gathered⟩ := (source.collect_ok_iff report).1 collected
  have filled := SessionReport.ofBlocks_filled summed gathered
  constructor
  · intro c
    rw [ne_eq, ← filled.has_eq_false_iff c, Bool.not_eq_false]
  · intro s stopped cancelled before after coming left d run
    obtain ⟨-, undisturbed⟩ := Backend.deliver_interrupted run
    have working := Folder.not_stopped undisturbed
    rw [working] at undisturbed
    exact Folder.deliver_filled filled undisturbed

/-- What a delivery of a source's report to the folder of the defaults passes over. -/
def Source.passedOver {σ : Type} (source : Source σ) (a : σ) (coming : List (Moment Files)) :
    Option (List Category) :=
  match (source.collect.run.run a).1 with
  | .error _ => none
  | .ok report =>
    match (((Folder.backend .default false).interrupted.deliver report.payload false).run
      (Files.empty, coming)).1 with
    | .error _ => none
    | .ok d => some d.skipped

theorem Source.passedOver_spec {σ : Type} {source : Source σ} {a : σ} {coming : List (Moment Files)}
    {skipped : List Category} (told : source.passedOver a coming = some skipped) :
    ∃ report t d after left, source.collect.run.run a = (.ok report, t) ∧
      ((Folder.backend .default false).interrupted.deliver report.payload false).run
        (Files.empty, coming) = (.ok d, after, left) ∧ d.skipped = skipped := by
  unfold passedOver at told
  rcases collected : source.collect.run.run a with ⟨outcome, t⟩
  rw [collected] at told
  cases outcome with
  | error e => cases told
  | ok report =>
      rcases run : ((Folder.backend .default false).interrupted.deliver report.payload false).run
        (Files.empty, coming) with ⟨delivered, after, left⟩
      simp only [run] at told
      cases delivered with
      | error e => cases told
      | ok d =>
          cases told
          exact ⟨report, t, d, after, left, rfl, run, rfl⟩

/-- A stage that ran a variant with a mutation. Nothing was monitored in it, and it declared no
metrics of its own. -/
def unmonitored : LoadedStage :=
  let mutation : Mutation := ⟨"slow", 0.5, [], "delay", []⟩
  let variant : Assignment := ⟨⟨"basket", false, []⟩, ⟨"big", 1.0, none, none, [mutation], []⟩⟩
  ⟨"peak", ⟨"peak", .execute, 1.0, none, [], [], some variant⟩, [],
    [⟨0, [.timed "login" 0.25 none, .timed "login" 0.5 (some "timeout")],
      [⟨⟨2, 1, 1, []⟩, 0.5⟩]⟩]⟩

/-- The run is cancelled while the folder is closed, after eight submissions. -/
theorem Source.collect_delivers_rows_unmonitored :
    ∃ report t d after left, handingOut.collect.run.run [unmonitored] = (.ok report, t) ∧
      ((Folder.backend .default false).interrupted.deliver report.payload false).run
        (Files.empty, List.replicate 9 .calm ++ [.late]) = (.ok d, after, left) ∧
      d.skipped = [.custom, .sessionMonitors, .stageMonitors] ∧
      Folder.Delivered .default report.payload Files.empty after d := by
  have told : handingOut.passedOver [unmonitored] (List.replicate 9 .calm ++ [.late]) =
      some [.custom, .sessionMonitors, .stageMonitors] := by decide +kernel
  obtain ⟨report, t, d, after, left, collected, run, skipped⟩ := passedOver_spec told
  have delivered := (collect_delivers_rows handingOut collected).2 .default false false _ _ _ _ d run
  exact ⟨report, t, d, after, left, collected, run, skipped, delivered⟩

end BenchReport
