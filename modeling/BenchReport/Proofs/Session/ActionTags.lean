import BenchReport.Proofs.Action.Grammar
import BenchReport.Proofs.Action.Ordering
import BenchReport.Proofs.Session.Conservation
import BenchReport.Proofs.Session.Levels
import BenchReport.Proofs.Session.Handover
set_option autoImplicit false

namespace BenchReport

open StageBlock (resultsOf tagsFor)
open StageTally (Complete)

namespace Action

def storedName? (record : Json) : Option String := (record.field? "name").bind Json.asText?

def storedTags (record : Json) : List Tag :=
  match Heading.codec.ofJson record with
  | .ok heading => heading.tags
  | .error _ => []

/-- An action that was read has the tags of its record, and its name without the blanks around
it. -/
theorem ofRecord_ok {record : Json} {a : Action} (read : ofRecord record = .ok a) :
    ∃ name, storedName? record = some name ∧ Text.trim name = a.name ∧
      storedTags record = a.tags := by
  obtain ⟨ws, rfl, told⟩ := (ofRecord_ok_iff record a).1 read
  obtain ⟨name, named, -, trimmed⟩ := told.name
  refine ⟨name, (text_field?_iff ws "name" name).2 named, trimmed.symm, ?_⟩
  rw [storedTags, told.headed]

/-- The actions that were read are those of the records, in another order. -/
theorem mem_ofRecords {records : List Json} {actions : List Action}
    (read : ofRecords records = .ok actions) (P : String → List Tag → Prop) :
    (∃ a ∈ actions, P a.name a.tags) ↔
      ∃ r ∈ records, ∃ name, storedName? r = some name ∧ P (Text.trim name) (storedTags r) := by
  obtain ⟨parsed, each, arranged⟩ := ofRecords_ok_iff.1 read
  constructor
  · intro ⟨a, mem, holds⟩
    obtain ⟨r, stored, made⟩ := Outcome.exists_of_mem each (arranged.perm.subset mem)
    obtain ⟨name, named, trimmed, tags⟩ := ofRecord_ok made
    exact ⟨r, stored, name, named, by rw [trimmed, tags]; exact holds⟩
  · intro ⟨r, stored, name, named, holds⟩
    obtain ⟨a, mem, made⟩ := Outcome.exists_of_mem (List.Forall₂.flip each) stored
    obtain ⟨name', named', trimmed, tags⟩ := ofRecord_ok made
    rw [named, Option.some.injEq] at named'
    rw [named', trimmed, tags] at holds
    exact ⟨a, arranged.perm.symm.subset mem, holds⟩

end Action

/-- What holds of the tags of an event of an action holds of those of a result. -/
theorem Normalised.exists_eventsOf_iff {stage : String} {os : List Observation} {h : List Event}
    (normalised : Normalised stage os h) (action : String) (P : List Tag → Prop) :
    (∃ e ∈ eventsOf action h, P e.header.tags) ↔
      ∃ o ∈ os, o.name = some action ∧ P o.tags := by
  constructor
  · intro ⟨e, mem, holds⟩
    obtain ⟨counted, own⟩ := List.mem_filter.1 mem
    obtain ⟨o, left, made⟩ := Outcome.exists_of_mem normalised counted
    have kept := Event.madeOf made
    have name := kept.name
    rw [of_decide_eq_true own] at name
    exact ⟨o, left, name, kept.tags ▸ holds⟩
  · intro ⟨o, left, named, holds⟩
    obtain ⟨e, counted, made⟩ := Outcome.exists_of_mem (List.Forall₂.flip normalised) left
    have kept := Event.madeOf made
    have own : e.name = action := Option.some.inj (kept.name.symm.trans named)
    exact ⟨e, List.mem_filter.2 ⟨counted, decide_eq_true own⟩, kept.tags.symm ▸ holds⟩

theorem Tally.addTags_tags (t : Tally) (tags : List Tag) (tag : Tag) :
    tag ∈ (t.addTags tags).tags.tags ↔ tag ∈ t.tags.tags ∨ tag ∈ tags := by
  rw [TagSet.mem_tags_iff, TagSet.mem_tags_iff, Tally.addTags, TagSet.get?_insertAll]
  by_cases further : tag ∈ tags
  · simp only [further, ↓reduceIte, or_true]
  · simp only [further, ↓reduceIte, or_false]

/-- The actions of a block are those that have results, and each has the tags of its results and of
the actions that are stored under its name. -/
structure StageBlock.Tagged (b : StageBlock) (results : List Observation) (stored : List Action) :
    Prop where
  stage : ∀ m ∈ b.actions, m.stage = b.stage
  named (action : String) :
    (∃ m ∈ b.actions, m.name = action) ↔ ∃ o ∈ results, o.name = some action
  ascending : ∀ m ∈ b.actions, m.tags.Pairwise fun x y => compare x y = .lt
  tags : ∀ m ∈ b.actions, ∀ tag, tag ∈ m.tags ↔
    (∃ o ∈ results, o.name = some m.name ∧ tag ∈ o.tags) ∨ tag ∈ tagsFor m.name stored

theorem StageBlock.ofStage_tagged {stage : String} {facts : StageFacts} {stored : List Action}
    {workers : List WorkerOutput} {b : StageBlock} (fits : (resultsOf workers).length < 2 ^ 64)
    (made : ofStage stage facts stored workers = .ok b) :
    b.Tagged (resultsOf workers) stored := by
  obtain ⟨parts, each, written, -, rfl, -, -⟩ := ofStage_ok_iff.1 made
  obtain ⟨h, normalised, whole⟩ := tallyAll_complete each fits
  have length : (resultsOf workers).length = h.length := normalised.length_eq
  have told : ∀ m ∈ b.actions, m.stage = b.stage ∧ (∃ o ∈ resultsOf workers, o.name = some m.name) ∧
      m.tags.Pairwise (fun x y => compare x y = .lt) ∧
      ∀ tag, tag ∈ m.tags ↔ (∃ o ∈ resultsOf workers, o.name = some m.name ∧ tag ∈ o.tags) ∨
        tag ∈ tagsFor m.name stored := by
    intro m mem
    obtain ⟨action, t, rate, custom, bound, rfl⟩ := StageTally.exists_of_mem_parts written mem
    rw [get?_tagged, Option.map_eq_some_iff] at bound
    obtain ⟨before, bound, rfl⟩ := bound
    obtain ⟨stage, tagged, some_event⟩ := whole.keeps action before bound
    have name : before.name = action := (whole.counted bound).1
    have results := normalised.exists_eventsOf_iff action
    refine ⟨stage.trans whole.stage, ?_, List.pairwise_map.2 (before.addTags _).tags.ascending, ?_⟩
    · obtain ⟨e, own⟩ := List.exists_mem_of_ne_nil _ some_event
      obtain ⟨o, left, named, -⟩ := (results fun _ => True).1 ⟨e, own, trivial⟩
      exact ⟨o, left, named.trans (congrArg some name.symm)⟩
    · intro tag
      change tag ∈ (before.addTags _).tags.tags ↔
        (∃ o ∈ resultsOf workers, o.name = some before.name ∧ tag ∈ o.tags) ∨
          tag ∈ tagsFor before.name stored
      rw [Tally.addTags_tags, tagged, Tally.tagsOf, List.mem_flatMap, name]
      exact or_congr (results (tag ∈ ·)) Iff.rfl
  refine ⟨fun m mem => (told m mem).1, fun action => ⟨?_, ?_⟩, fun m mem => (told m mem).2.2.1,
    fun m mem => (told m mem).2.2.2⟩
  · rintro ⟨m, mem, name⟩
    rw [← name]
    exact (told m mem).2.1
  · rintro ⟨o, left, named⟩
    obtain ⟨e, own, -⟩ := (normalised.exists_eventsOf_iff action fun _ => True).2
      ⟨o, left, named, trivial⟩
    obtain ⟨counted, name⟩ := List.mem_filter.1 own
    have holds := tagged_holds whole.holds stored
    have known := holds.mem_keys counted
    rw [← (holds.parts_account (by omega) written).1, of_decide_eq_true name] at known
    exact List.mem_map.1 known

namespace RecordedStage

def ResultTag (s : RecordedStage) (action : String) (tag : Tag) : Prop :=
  ∃ o ∈ s.results, o.name = some action ∧ tag ∈ o.tags

def StoredTag (s : RecordedStage) (action : String) (tag : Tag) : Prop :=
  ∃ r ∈ s.actions, Action.storedName? r = some action ∧ tag ∈ Action.storedTags r

/-- A record that is filed under the name has the tag. -/
def FiledTag (s : RecordedStage) (action : String) (tag : Tag) : Prop :=
  ∃ r ∈ s.actions, ∃ name, Action.storedName? r = some name ∧ Text.trim name = action ∧
    tag ∈ Action.storedTags r

theorem mem_tagsFor_iff {s : RecordedStage} {stored : List Action}
    (read : Action.ofRecords s.actions = .ok stored) (action : String) (tag : Tag) :
    tag ∈ tagsFor action stored ↔ s.FiledTag action tag := by
  have records := Action.mem_ofRecords read fun name tags => name = action ∧ tag ∈ tags
  rw [tagsFor, List.mem_flatMap, FiledTag, ← records]
  constructor
  · rintro ⟨a, mem, tagged⟩
    obtain ⟨known, name⟩ := List.mem_filter.1 mem
    exact ⟨a, known, of_decide_eq_true name, tagged⟩
  · rintro ⟨a, known, name, tagged⟩
    exact ⟨a, List.mem_filter.2 ⟨known, decide_eq_true name⟩, tagged⟩

end RecordedStage

namespace RecordedSession

variable {session : RecordedSession}

theorem find?_of_distinct (distinct : (session.stages.map fun s => s.facts.stage).Nodup)
    {s s' : RecordedStage} (mem : s ∈ session.stages)
    (found : session.find? s.facts.stage = some s') : s' = s := by
  rw [find?_eq_head?] at found
  have entry : s' ∈ session.entries s.facts.stage := List.mem_of_mem_head? found
  have listed : s' ∈ session.stages := List.mem_of_mem_filter entry
  have name : s'.facts.stage = s.facts.stage := stage_of_mem_entries entry
  exact List.inj_on_of_nodup_map distinct listed mem name

/-- The metrics of each action have, in ascending order, the tags of its results and those that are
stored with its name. -/
structure Tagged (session : RecordedSession) (report : SessionReport) : Prop where
  ascending : ∀ m ∈ report.payload.actions, m.tags.Pairwise fun x y => compare x y = .lt
  tags : ∀ s ∈ session.stages, ∀ m ∈ report.payload.actions, m.stage = s.facts.stage →
    ∀ tag, tag ∈ m.tags ↔ s.ResultTag m.name tag ∨ s.StoredTag m.name tag

/-- For the actions that have results it makes no difference that blanks around a stored name are
dropped: what is stored with a name and what is filed under it has the same tags, those of the
results aside. -/
def FiledAlike (session : RecordedSession) : Prop :=
  ∀ s ∈ session.stages, ∀ action, (∃ o ∈ s.results, o.name = some action) →
    ∀ tag, ¬ s.ResultTag action tag → (s.FiledTag action tag ↔ s.StoredTag action tag)

/-- Actions are filed alike where no name is stored with blanks around it. -/
theorem filedAlike_of_trimmed (trimmed : ∀ s ∈ session.stages, ∀ r ∈ s.actions,
    ∀ name, Action.storedName? r = some name → Text.trim name = name) : FiledAlike session := by
  intro s mem action _ tag _
  constructor
  · intro ⟨r, stored, name, named, filed, tagged⟩
    rw [trimmed s mem r stored name named] at filed
    exact ⟨r, stored, filed ▸ named, tagged⟩
  · intro ⟨r, stored, named, tagged⟩
    exact ⟨r, stored, action, named, trimmed s mem r stored action named, tagged⟩

end RecordedSession

namespace Archive

open RecordedSession (Tagged FiledAlike)

variable {session : RecordedSession}

/-- A block of a name tells the tags of the entry that the name finds. -/
theorem Tells.tagged {name : String} {l : LoadedStage} {b : StageBlock}
    (tells : Tells session name l) (made : l.block = .ok b)
    (fits : ∀ s ∈ session.stages, s.results.length < 2 ^ 64) :
    ∃ entry stored, session.find? name = some entry ∧
      Action.ofRecords entry.actions = .ok stored ∧ b.stage = name ∧
      b.Tagged entry.results stored := by
  obtain ⟨entry, stored, found, read, rfl⟩ := tells
  have few := fits entry (List.mem_of_find?_eq_some found)
  obtain ⟨-, -, -, -, stage, -, -⟩ := StageBlock.ofStage_ok_iff.1 made
  exact ⟨entry, stored, found, read, stage, StageBlock.ofStage_tagged few made⟩

/-- What tags the metrics of an accepted session have, and which metrics there are. -/
theorem collect_filed {a t : Archive} {report : SessionReport} (loaded : a.load = .ok session)
    (collected : source.collect.run.run a = (.ok report, t))
    (distinct : (session.stages.map fun s => s.facts.stage).Nodup)
    (fits : ∀ s ∈ session.stages, s.results.length < 2 ^ 64) :
    (∀ m ∈ report.payload.actions, m.tags.Pairwise fun x y => compare x y = .lt) ∧
    ∀ s ∈ session.stages,
      (∀ m ∈ report.payload.actions, m.stage = s.facts.stage →
        (∃ o ∈ s.results, o.name = some m.name) ∧
          ∀ tag, tag ∈ m.tags ↔ s.ResultTag m.name tag ∨ s.FiledTag m.name tag) ∧
      ∀ action, (∃ o ∈ s.results, o.name = some action) →
        ∃ m ∈ report.payload.actions, m.stage = s.facts.stage ∧ m.name = action := by
  obtain ⟨told, blocks, ran, made, gathered⟩ := (source.collect_ok_iff report).1 collected
  obtain ⟨_, -, rfl⟩ := SessionReport.ofBlocks_ok_iff.1 gathered
  obtain ⟨session', loaded', tells⟩ := loadAll_ok ran
  obtain rfl := Except.ok.inj (loaded.symm.trans loaded')
  have of_block : ∀ m ∈ blocks.flatMap StageBlock.actions,
      ∃ (b : StageBlock) (entry : RecordedStage) (stored : List Action), m ∈ b.actions ∧
        session.find? b.stage = some entry ∧ Action.ofRecords entry.actions = .ok stored ∧
        b.Tagged entry.results stored := by
    intro m mem
    obtain ⟨b, listed, of_b⟩ := List.mem_flatMap.1 mem
    obtain ⟨l, heard, block⟩ := Outcome.exists_of_mem made listed
    obtain ⟨name, -, tells⟩ := Outcome.exists_of_mem tells heard
    obtain ⟨entry, stored, found, read, rfl, tagged⟩ := tells.tagged block fits
    exact ⟨b, entry, stored, of_b, found, read, tagged⟩
  constructor
  · intro m mem
    obtain ⟨b, _, _, of_b, -, -, tagged⟩ := of_block m mem
    exact tagged.ascending m of_b
  · intro s mem_s
    constructor
    · intro m mem stage
      obtain ⟨b, entry, stored, of_b, found, read, tagged⟩ := of_block m mem
      rw [← tagged.stage m of_b, stage] at found
      rw [RecordedSession.find?_of_distinct distinct mem_s found] at read tagged
      refine ⟨(tagged.named m.name).1 ⟨m, of_b, rfl⟩, fun tag => ?_⟩
      rw [tagged.tags m of_b tag, RecordedStage.mem_tagsFor_iff read]
      exact Iff.rfl
    · intro action named
      have name : s.facts.stage ∈ listed session := List.mem_map_of_mem mem_s
      obtain ⟨l, heard, tells⟩ := Outcome.exists_of_mem (List.Forall₂.flip tells) name
      obtain ⟨b, listed, block⟩ := Outcome.exists_of_mem (List.Forall₂.flip made) heard
      obtain ⟨entry, stored, found, read, stage, tagged⟩ := Tells.tagged tells block fits
      rw [RecordedSession.find?_of_distinct distinct mem_s found] at tagged
      obtain ⟨m, of_b, same⟩ := (tagged.named action).2 named
      exact ⟨m, List.mem_flatMap.2 ⟨b, listed, of_b⟩, (tagged.stage m of_b).trans stage, same⟩

/-- The metrics of an accepted session have the tags that are stored with their names exactly when
its actions are filed alike, in particular when no name is stored with blanks around it. A list in
memory is shorter than `2 ^ 64`. -/
theorem collect_tagged_iff {a t : Archive} {report : SessionReport} (loaded : a.load = .ok session)
    (collected : source.collect.run.run a = (.ok report, t))
    (distinct : (session.stages.map fun s => s.facts.stage).Nodup)
    (fits : ∀ s ∈ session.stages, s.results.length < 2 ^ 64) :
    Tagged session report ↔ FiledAlike session := by
  obtain ⟨ascending, stages⟩ := collect_filed loaded collected distinct fits
  constructor
  · intro tagged s mem action named tag unresulted
    obtain ⟨filed, covered⟩ := stages s mem
    obtain ⟨m, reported, stage, rfl⟩ := covered action named
    have by_file := (filed m reported stage).2 tag
    have by_store := tagged.tags s mem m reported stage tag
    rw [by_file] at by_store
    simpa only [unresulted, false_or] using by_store
  · intro alike
    refine ⟨ascending, fun s mem m reported stage tag => ?_⟩
    obtain ⟨named, filed⟩ := (stages s mem).1 m reported stage
    rw [filed tag]
    by_cases resulted : s.ResultTag m.name tag
    · simp only [resulted, true_or]
    · simp only [resulted, false_or]
      exact alike s mem m.name named tag resulted

/-- An archive of a session with a result and a stored action of the given names. -/
def ofNames (stored named : String) : Archive :=
  let summary := "\"summary\":\x7b\"stage\":\"a\",\"total_elapsed\":1\x7d"
  let tag := "\x7b\"name\":\"team\",\"value\":\"web\"\x7d"
  let action := "\x7b\"name\":\"" ++ stored ++ "\",\"engine\":\"task\",\"tags\":[" ++ tag ++ "]\x7d"
  let result := "\x7b\"name\":\"" ++ named ++ "\",\"type\":\"udp\"\x7d"
  let text := "\x7b\"stages\":[\x7b" ++ summary ++ ",\"actions\":[" ++ action ++
    "],\"workers\":[\x7b\"worker\":0,\"results\":[" ++ result ++ "]\x7d]\x7d]\x7d"
  ofPath (Files.ofList [("session.json", text.toUTF8)]) "session.json"

theorem collect_tagged_login :
    ∃ session report t, (ofNames "login" "login").load = .ok session ∧
      source.collect.run.run (ofNames "login" "login") = (.ok report, t) ∧
      (session.stages.map fun s => s.facts.stage).Nodup ∧
      (∀ s ∈ session.stages, s.results.length < 2 ^ 64) ∧ Tagged session report ∧
      report.payload.actions.map ActionMetrics.tags = [[⟨"team", "web"⟩]] := by
  have told : survey (fun session report => (session.stages.map fun s => s.facts.stage,
      (session.stages.flatMap RecordedStage.results).length,
      (session.stages.flatMap RecordedStage.actions).all fun r =>
        (Action.storedName? r).all fun name => Text.trim name = name,
      report.payload.actions.map ActionMetrics.tags)) (ofNames "login" "login") =
        some (["a"], 1, true, [[⟨"team", "web"⟩]]) := by decide +kernel
  obtain ⟨session, report, t, loaded, collected, same⟩ := survey_spec _ told
  simp only [Prod.mk.injEq] at same
  obtain ⟨names, stored, trimmed, tags⟩ := same
  have distinct : (session.stages.map fun s => s.facts.stage).Nodup := by
    rw [names]
    decide
  have fits : ∀ s ∈ session.stages, s.results.length < 2 ^ 64 := by
    intro s mem
    have few := results_length_le mem
    omega
  refine ⟨session, report, t, loaded, collected, distinct, fits, ?_, tags⟩
  apply (collect_tagged_iff loaded collected distinct fits).2
  apply RecordedSession.filedAlike_of_trimmed
  intro s mem r stored name named
  have all := List.all_eq_true.1 trimmed r (List.mem_flatMap.2 ⟨s, mem, stored⟩)
  rw [named] at all
  exact of_decide_eq_true all

/-- With blanks around both names the metrics lack the tag that is stored with their name. -/
theorem collect_not_tagged_blanks :
    ∃ session report t, (ofNames " login " " login ").load = .ok session ∧
      source.collect.run.run (ofNames " login " " login ") = (.ok report, t) ∧
      (session.stages.map fun s => s.facts.stage).Nodup ∧ ¬ Tagged session report := by
  have told : survey (fun session report => (session.stages.map fun s => s.facts.stage,
      session.stages.any fun s => s.actions.any fun r => report.payload.actions.any fun m =>
        m.stage = s.facts.stage ∧ Action.storedName? r = some m.name ∧
          ∃ tag ∈ Action.storedTags r, tag ∉ m.tags)) (ofNames " login " " login ") =
        some (["a"], true) := by decide +kernel
  obtain ⟨session, report, t, loaded, collected, same⟩ := survey_spec _ told
  simp only [Prod.mk.injEq, List.any_eq_true, decide_eq_true_eq] at same
  obtain ⟨names, s, mem, r, stored, m, reported, stage, named, tag, tagged, missing⟩ := same
  refine ⟨session, report, t, loaded, collected, ?_, fun told => missing ?_⟩
  · rw [names]
    decide
  · exact (told.tags s mem m reported stage tag).2 (.inr ⟨r, stored, named, tagged⟩)

end Archive

end BenchReport
