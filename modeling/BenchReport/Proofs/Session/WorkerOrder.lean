import BenchReport.Proofs.Session.Collecting
import BenchReport.Proofs.Session.Handover
set_option autoImplicit false

namespace BenchReport

open StageBlock (resultsOf)

/-- The entries differ in the order of their workers at most. -/
structure RecordedStage.Reordered (s s' : RecordedStage) : Prop where
  facts : s.facts = s'.facts
  actions : s.actions = s'.actions
  data : s.data = s'.data
  workers : s.workers.Perm s'.workers

/-- The entries of the sessions stand in one order and differ in the order of their workers at
most. -/
def RecordedSession.Reordered (session session' : RecordedSession) : Prop :=
  List.Forall₂ RecordedStage.Reordered session.stages session'.stages

structure LoadedStage.Reordered (l l' : LoadedStage) : Prop where
  stage : l.stage = l'.stage
  facts : l.facts = l'.facts
  actions : l.actions = l'.actions
  workers : l.workers.Perm l'.workers

namespace LoadedStage

theorem block_agrees {l l' : LoadedStage} {b : StageBlock} (reordered : l.Reordered l')
    (fits : (resultsOf l.workers).length < 2 ^ 64) (made : l.block = .ok b) :
    ∃ b', l'.block = .ok b' ∧ b.Agrees b' := by
  obtain ⟨stage, facts, stored, workers⟩ := l
  obtain ⟨stage', facts', stored', workers'⟩ := l'
  obtain ⟨rfl, rfl, rfl, perm⟩ := reordered
  exact StageBlock.ofStage_agrees perm fits made

end LoadedStage

namespace RecordedSession

variable {session session' : RecordedSession}

theorem Reordered.find? (reordered : session.Reordered session') {name : String}
    {entry : RecordedStage} (found : session.find? name = some entry) :
    ∃ entry', session'.find? name = some entry' ∧ entry.Reordered entry' := by
  rw [Reordered] at reordered
  simp only [RecordedSession.find?] at found ⊢
  generalize session.stages = stages, session'.stages = stages' at *
  induction reordered with
  | nil => cases found
  | @cons s s' _ _ first _ ih =>
      rw [List.find?_cons] at found ⊢
      rw [← first.facts]
      cases own : s.facts.stage == name with
      | true =>
          rw [own] at found
          cases found
          exact ⟨s', rfl, first⟩
      | false =>
          rw [own] at found
          exact ih found

theorem Reordered.listed (reordered : session.Reordered session') :
    Archive.listed session = Archive.listed session' := by
  rw [Archive.listed, Archive.listed, ← List.forall₂_eq_eq_eq]
  exact List.forall₂_map_left_iff.2 (List.forall₂_map_right_iff.2
    (reordered.imp fun _ _ same => congrArg StageFacts.stage same.facts))

theorem Reordered.tells (reordered : session.Reordered session') {name : String}
    {l : LoadedStage} (told : Archive.Tells session name l) :
    ∃ l', Archive.Tells session' name l' ∧ l.Reordered l' := by
  obtain ⟨entry, stored, found, parsed, rfl⟩ := told
  obtain ⟨entry', found', same⟩ := reordered.find? found
  rw [same.actions] at parsed
  exact ⟨_, ⟨entry', stored, found', parsed, rfl⟩, rfl, same.facts, rfl, same.workers⟩

end RecordedSession

namespace Archive

variable {session session' : RecordedSession}

theorem Tells.fits {name : String} {l : LoadedStage} (told : Tells session name l)
    (fits : ∀ s ∈ session.stages, (resultsOf s.workers).length < 2 ^ 64) :
    (resultsOf l.workers).length < 2 ^ 64 := by
  obtain ⟨entry, stored, found, -, rfl⟩ := told
  exact fits entry (List.mem_of_find?_eq_some found)

/-- The order of workers does not matter. A session that is accepted is accepted with the workers of
its stages in any order, and the reports agree: on streams, experiments and monitors, on all counts,
errors, tags, extremes and quantiles, and on the events but for their order. A list in memory is
shorter than `2 ^ 64`. -/
theorem collect_reordered {a a' t : Archive} {report : SessionReport} (read : a.load = .ok session)
    (read' : a'.load = .ok session') (reordered : session.Reordered session')
    (fits : ∀ s ∈ session.stages, (resultsOf s.workers).length < 2 ^ 64)
    (collected : source.collect.run.run a = (.ok report, t)) :
    ∃ report' t', source.collect.run.run a' = (.ok report', t') ∧ report.Agrees report' := by
  obtain ⟨loaded, blocks, told, made, gathered⟩ := (source.collect_ok_iff report).1 collected
  obtain ⟨session₀, read₀, told⟩ := loadAll_ok told
  rw [read] at read₀
  cases read₀
  have names : List.Forall₂ (· = ·) (listed session) (listed session') := by
    rw [List.forall₂_eq_eq_eq]
    exact reordered.listed
  have step (name name' : String) (l : LoadedStage) (same : name = name')
      (told : Tells session name l) : ∃ l', Tells session' name' l' ∧
        ((resultsOf l.workers).length < 2 ^ 64 ∧ l.Reordered l') := by
    obtain ⟨l', told', l_reordered⟩ := reordered.tells told
    exact ⟨l', same ▸ told', told.fits fits, l_reordered⟩
  obtain ⟨loaded', told', related⟩ := Outcome.forall₂_related names step told
  obtain ⟨blocks', made', agree⟩ := Outcome.forall₂_related related
    (fun l l' b same made => LoadedStage.block_agrees same.2 same.1 made) made
  obtain ⟨t', all⟩ := loadAll_of read' told'
  obtain ⟨report', gathered', report_agrees⟩ := SessionReport.ofBlocks_agrees agree gathered
  exact ⟨report', t', (source.collect_ok_iff _).2 ⟨loaded', blocks', all, made', gathered'⟩,
    report_agrees⟩

def ofWorkers (workers : String) : Archive :=
  let text := "\x7b\"stages\":[\x7b\"summary\":\x7b\"stage\":\"a\",\"total_elapsed\":1\x7d," ++
    "\"workers\":[" ++ workers ++ "]\x7d]\x7d"
  ofPath (Files.ofList [("session.json", text.toUTF8)]) "session.json"

def okWorker : String :=
  "\x7b\"worker\":0,\"results\":[\x7b\"name\":\"b\",\"type\":\"http\"\x7d]\x7d"

def failedWorker : String :=
  "\x7b\"worker\":1,\"results\":[\x7b\"name\":\"c\",\"type\":\"http\",\"error\":\"e\"\x7d]\x7d"

def single (a : Archive) : Option (StageFacts × List WorkerOutput) :=
  match a.load with
  | .ok ⟨[⟨facts, [], [], workers⟩]⟩ => some (facts, workers)
  | _ => none

theorem single_spec {a : Archive} {facts : StageFacts} {workers : List WorkerOutput}
    (told : a.single = some (facts, workers)) : a.load = .ok ⟨[⟨facts, [], [], workers⟩]⟩ := by
  rw [single] at told
  split at told
  case h_1 read =>
    cases told
    exact read
  case h_2 => cases told

theorem collect_reordered_failed_first :
    let stored := ofWorkers (okWorker ++ "," ++ failedWorker)
    let reordered := ofWorkers (failedWorker ++ "," ++ okWorker)
    ∃ report t report' t', source.collect.run.run stored = (.ok report, t) ∧
      source.collect.run.run reordered = (.ok report', t') ∧
      report.payload.events.length = 2 ∧ report.Agrees report' := by
  intro stored reordered
  let facts : StageFacts := ⟨"a", .execute, 1.0, none, [], [], none⟩
  let ok : WorkerOutput := ⟨0, [.timed "b" 0.0 none], []⟩
  let failed : WorkerOutput := ⟨1, [.timed "c" 0.0 (some "e")], []⟩
  have read : stored.single = some (facts, [ok, failed]) := by decide +kernel
  have read' : reordered.single = some (facts, [failed, ok]) := by decide +kernel
  have reported : (source.collect.run.run stored).1.toOption.map
      (fun report => report.payload.events.length) = some 2 := by decide +kernel
  have fits (s : RecordedStage) (mem : s ∈ [RecordedStage.mk facts [] [] [ok, failed]]) :
      (resultsOf s.workers).length < 2 ^ 64 := by
    cases List.mem_singleton.1 mem
    decide
  rcases collected : source.collect.run.run stored with ⟨outcome, t⟩
  rw [collected] at reported
  cases outcome with
  | error e => cases reported
  | ok report =>
      obtain ⟨report', t', collected', agrees⟩ := collect_reordered (single_spec read)
        (single_spec read') (.cons ⟨rfl, rfl, rfl, .swap failed ok []⟩ .nil) fits collected
      exact ⟨report, t, report', t', rfl, collected', Option.some.inj reported, agrees⟩

end Archive

end BenchReport
