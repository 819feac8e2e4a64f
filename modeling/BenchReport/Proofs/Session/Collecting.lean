import BenchReport.Proofs.Session.Loading
set_option autoImplicit false

namespace BenchReport

namespace Archive

variable {a t : Archive} {session : RecordedSession}

theorem connect_ok (ok : connect.run.run a = (.ok (), t)) :
    ∃ session, a.load = .ok session ∧ t = { a with session := some session } := by
  obtain ⟨a', _, got, ok⟩ := Call.bind_ok ok
  cases got
  obtain ⟨session, _, loaded, ok⟩ := Call.bind_ok ok
  obtain ⟨loaded, rfl⟩ := Call.lift_ok loaded
  cases ok
  exact ⟨session, loaded, rfl⟩

theorem connect_of (loaded : a.load = .ok session) :
    connect.run.run a = (.ok (), { a with session := some session }) := by
  have got : (get : Call Archive Archive).run.run a = (.ok a, a) := rfl
  refine Call.bind_of_ok got ?_
  rw [loaded]
  rfl

/-- An archive whose file cannot be read stays as it is. -/
theorem connect_failed {e : Error} (failed : a.load = .error e) :
    connect.run.run a = (.error e, a) := by
  have got : (get : Call Archive Archive).run.run a = (.ok a, a) := rfl
  refine Call.bind_of_ok got ?_
  rw [failed]
  rfl

theorem connected_run (holds : a.session = some session) :
    connected.run.run a = (.ok session, a) := by
  obtain ⟨path, files, stopped, _⟩ := a
  cases holds
  rfl

theorem stage_run {name : String} {entry : RecordedStage} (holds : a.session = some session)
    (found : session.find? name = some entry) : (stage name).run.run a = (.ok entry, a) := by
  refine Call.bind_of_ok (connected_run holds) ?_
  rw [found]
  rfl

/-- What is done with the entry of a name is done with the first one. -/
theorem stage_ok {α : Type} {name : String} {use : RecordedStage → Call Archive α} {x : α}
    (holds : a.session = some session)
    (ok : (stage name >>= use).run.run a = (.ok x, t)) :
    ∃ entry, session.find? name = some entry ∧ (use entry).run.run a = (.ok x, t) := by
  obtain ⟨entry, _, looked, used⟩ := Call.bind_ok ok
  obtain ⟨session', _, got, found⟩ := Call.bind_ok looked
  rw [connected_run holds] at got
  cases got
  cases entry_eq : session.find? name with
  | none =>
      rw [entry_eq] at found
      cases found
  | some entry' =>
      rw [entry_eq] at found
      cases found
      exact ⟨entry, rfl, used⟩

/-- What an archive tells of a name is the entry that the name finds, its actions read. -/
def Tells (session : RecordedSession) (name : String) (l : LoadedStage) : Prop :=
  ∃ entry stored, session.find? name = some entry ∧ Action.ofRecords entry.actions = .ok stored ∧
    l = ⟨name, entry.facts, stored, entry.workers⟩

theorem load_ok_iff {name : String} {l : LoadedStage} (holds : a.session = some session) :
    (source.load name).run.run a = (.ok l, t) ↔ Tells session name l ∧ t = a := by
  constructor
  · intro ok
    obtain ⟨facts, _, facts_ok, rest_ok⟩ := Call.bind_ok ok
    obtain ⟨entry, found, facts_eq⟩ := stage_ok holds facts_ok
    cases facts_eq
    obtain ⟨stored, _, actions_ok, last_ok⟩ := Call.bind_ok rest_ok
    obtain ⟨entry', found', read⟩ := stage_ok holds actions_ok
    rw [found] at found'
    cases found'
    obtain ⟨parsed, state_eq⟩ := Call.lift_ok read
    rw [state_eq] at last_ok
    obtain ⟨workers, _, workers_ok, loaded_ok⟩ := Call.bind_ok last_ok
    obtain ⟨entry'', found'', workers_eq⟩ := stage_ok holds workers_ok
    rw [found] at found''
    cases found''
    cases workers_eq
    obtain ⟨rfl, same⟩ := Call.pure_ok loaded_ok
    exact ⟨⟨entry, stored, found, parsed, rfl⟩, same.symm⟩
  · rintro ⟨⟨entry, stored, found, parsed, rfl⟩, rfl⟩
    have looked := stage_run holds found
    refine Call.bind_of_ok (Call.bind_of_ok looked rfl)
      (Call.bind_of_ok (Call.bind_of_ok looked ?_)
        (Call.bind_of_ok (Call.bind_of_ok looked rfl) rfl))
    rw [parsed]
    rfl

theorem loads_ok_iff {names : List String} {loaded : List LoadedStage}
    (holds : a.session = some session) :
    (source.loads names).run.run a = (.ok loaded, t) ↔
      List.Forall₂ (Tells session) names loaded ∧ t = a := by
  induction names generalizing loaded with
  | nil =>
      constructor
      · intro ok
        obtain ⟨rfl, rfl⟩ := Call.pure_ok ok
        exact ⟨.nil, rfl⟩
      · rintro ⟨told, rfl⟩
        cases told
        rfl
  | cons name rest ih =>
      constructor
      · intro ok
        obtain ⟨l, _, first, rest_ok⟩ := Call.bind_ok ok
        obtain ⟨told, state_eq⟩ := (load_ok_iff holds).1 first
        rw [state_eq] at rest_ok
        obtain ⟨ls, _, later, pair_ok⟩ := Call.bind_ok rest_ok
        obtain ⟨rfl, same⟩ := Call.pure_ok pair_ok
        rw [same] at later
        obtain ⟨told_later, state_eq'⟩ := ih.1 later
        exact ⟨.cons told told_later, state_eq'⟩
      · rintro ⟨told, rfl⟩
        obtain ⟨l, ls, first, later, rfl⟩ := List.forall₂_cons_left_iff.1 told
        exact Call.bind_of_ok ((load_ok_iff holds).2 ⟨first, rfl⟩)
          (Call.bind_of_ok (ih.2 ⟨later, rfl⟩) rfl)

def listed (session : RecordedSession) : List String := session.stages.map fun s => s.facts.stage

theorem loadAll_ok {loaded : List LoadedStage}
    (ok : source.loadAll.run.run a = (.ok loaded, t)) :
    ∃ session, a.load = .ok session ∧ List.Forall₂ (Tells session) (listed session) loaded := by
  obtain ⟨_, opened, connected_ok, rest_ok⟩ := Call.bind_ok ok
  obtain ⟨session, read, opened_eq⟩ := connect_ok connected_ok
  have holds : opened.session = some session := by rw [opened_eq]
  obtain ⟨names, _, names_ok, rest_ok⟩ := Call.bind_ok rest_ok
  obtain ⟨_, _, got, listed_ok⟩ := Call.bind_ok names_ok
  rw [connected_run holds] at got
  cases got
  obtain ⟨names_eq, state_eq⟩ := Call.pure_ok listed_ok
  obtain ⟨loaded', _, loads, last_ok⟩ := Call.bind_ok rest_ok
  obtain ⟨_, _, -, loaded_ok⟩ := Call.bind_ok last_ok
  obtain ⟨rfl, -⟩ := Call.pure_ok loaded_ok
  rw [← names_eq, ← state_eq] at loads
  exact ⟨session, read, ((loads_ok_iff holds).1 loads).1⟩

theorem loadAll_of {loaded : List LoadedStage} (read : a.load = .ok session)
    (told : List.Forall₂ (Tells session) (listed session) loaded) :
    ∃ t, source.loadAll.run.run a = (.ok loaded, t) := by
  have loads := (loads_ok_iff (a := { a with session := some session }) rfl).2 ⟨told, rfl⟩
  exact ⟨_, Call.bind_of_ok (connect_of read)
    (Call.bind_of_ok (Call.bind_of_ok (connected_run rfl) rfl)
      (Call.bind_of_ok loads (Call.bind_of_ok rfl rfl)))⟩

/-- The block of a name is made of the entry that the name finds. -/
def BlockOf (session : RecordedSession) (name : String) (block : StageBlock) : Prop :=
  ∃ entry stored, session.find? name = some entry ∧
    StageBlock.ofStage name entry.facts stored entry.workers = .ok block

theorem blocks_of_entries {names : List String} {loaded : List LoadedStage}
    {blocks : List StageBlock} (told : List.Forall₂ (Tells session) names loaded)
    (made : List.Forall₂ (fun l b => l.block = .ok b) loaded blocks) :
    List.Forall₂ (BlockOf session) names blocks := by
  induction told generalizing blocks with
  | nil =>
      cases made
      exact .nil
  | cons first _ ih =>
      obtain ⟨b, bs, made_first, made_later, rfl⟩ := List.forall₂_cons_left_iff.1 made
      obtain ⟨entry, stored, found, -, rfl⟩ := first
      exact .cons ⟨entry, stored, found, made_first⟩ (ih made_later)

/-- A successful collection reports on the session that the file holds. -/
theorem collect_ok {report : SessionReport} (ok : source.collect.run.run a = (.ok report, t)) :
    ∃ session blocks, a.load = .ok session ∧
      List.Forall₂ (BlockOf session) (session.stages.map fun s => s.facts.stage) blocks ∧
      SessionReport.ofBlocks blocks = .ok report := by
  obtain ⟨loaded, blocks, told, made, gathered⟩ := (source.collect_ok_iff report).1 ok
  obtain ⟨session, read, told⟩ := loadAll_ok told
  exact ⟨session, blocks, read, blocks_of_entries told made, gathered⟩

/-- Something told of the session that an archive holds and of its report, if both can be had. -/
def survey {α : Type} (tell : RecordedSession → SessionReport → α) (a : Archive) : Option α :=
  match a.load, (source.collect.run.run a).1 with
  | .ok session, .ok report => some (tell session report)
  | _, _ => none

theorem survey_spec {α : Type} (tell : RecordedSession → SessionReport → α) {x : α}
    (told : survey tell a = some x) :
    ∃ session report t, a.load = .ok session ∧ source.collect.run.run a = (.ok report, t) ∧
      tell session report = x := by
  unfold survey at told
  cases loaded : a.load with
  | error e =>
      rw [loaded] at told
      cases told
  | ok session =>
      rcases collected : source.collect.run.run a with ⟨outcome, t⟩
      rw [loaded, collected] at told
      cases outcome with
      | error e => cases told
      | ok report => exact ⟨session, report, t, rfl, rfl, Option.some.inj told⟩

end Archive

end BenchReport
