import BenchReport.Proofs.Outcome
import BenchReport.Session.Collect
set_option autoImplicit false

namespace BenchReport

namespace Call

variable {σ α β : Type} {s s' : σ}

theorem bind_ok {x : Call σ α} {f : α → Call σ β} {b : β}
    (ok : (x >>= f).run.run s = (.ok b, s')) :
    ∃ a t, x.run.run s = (.ok a, t) ∧ (f a).run.run t = (.ok b, s') := by
  rw [ExceptT.run_bind, StateT.run_bind] at ok
  rcases ran : x.run.run s with ⟨result, t⟩
  rw [ran] at ok
  cases result with
  | error e => cases ok
  | ok a => exact ⟨a, t, rfl, ok⟩

/-- A decision that is not a call leaves the state. -/
theorem lift_ok {x : Except Error α} {a : α}
    (ok : (liftM x : Call σ α).run.run s = (.ok a, s')) : x = .ok a ∧ s' = s := by
  cases x with
  | error e => cases ok
  | ok a' =>
      cases ok
      exact ⟨rfl, rfl⟩

theorem bind_of_ok {x : Call σ α} {f : α → Call σ β} {a : α} {r : Except Error β × σ}
    (ran : x.run.run s = (.ok a, s')) (next : (f a).run.run s' = r) :
    (x >>= f).run.run s = r := by
  rw [ExceptT.run_bind, StateT.run_bind, ran]
  exact next

theorem bind_of_error {x : Call σ α} {f : α → Call σ β} {e : Error}
    (failed : x.run.run s = (.error e, s')) : (x >>= f).run.run s = (.error e, s') := by
  rw [ExceptT.run_bind, StateT.run_bind, failed]
  rfl

theorem lift_run (x : Except Error α) : (liftM x : Call σ α).run.run s = (x, s) := by
  cases x <;> rfl

theorem pure_ok {a b : α} (ok : (pure a : Call σ α).run.run s = (.ok b, s')) : a = b ∧ s = s' := by
  cases ok
  exact ⟨rfl, rfl⟩

end Call

/-- What a source tells of a stage. -/
structure LoadedStage where
  stage : String
  facts : StageFacts
  actions : List Action
  workers : List WorkerOutput

def LoadedStage.block (l : LoadedStage) : Except Error StageBlock :=
  StageBlock.ofStage l.stage l.facts l.actions l.workers

namespace Source

variable {σ : Type} {s : Source σ} {a t : σ}

def load (s : Source σ) (stage : String) : Call σ LoadedStage := do
  let facts ← s.facts stage
  let actions ← s.actions stage
  let workers ← s.results stage
  return ⟨stage, facts, actions, workers⟩

def loads (s : Source σ) : List String → Call σ (List LoadedStage)
  | [] => return []
  | stage :: rest => do
    let l ← s.load stage
    let ls ← s.loads rest
    return l :: ls

/-- All that a source tells of its stages from being connected until it is closed, in the order in
which it lists them. -/
def loadAll (s : Source σ) : Call σ (List LoadedStage) := do
  s.connect
  let stages ← s.stages
  let loaded ← s.loads stages
  s.close
  return loaded

/-- A stage that the source tells is summed up where the source is then. -/
theorem block_run {stage : String} {l : LoadedStage}
    (told : (s.load stage).run.run a = (.ok l, t)) :
    (s.block stage).run.run a = (l.block, t) := by
  obtain ⟨facts, _, told_facts, told⟩ := Call.bind_ok told
  obtain ⟨actions, _, told_actions, told⟩ := Call.bind_ok told
  obtain ⟨workers, _, told_results, told⟩ := Call.bind_ok told
  obtain ⟨rfl, rfl⟩ := Call.pure_ok told
  exact Call.bind_of_ok told_facts (Call.bind_of_ok told_actions
    (Call.bind_of_ok told_results (Call.lift_run _)))

theorem block_ok_iff (s : Source σ) (stage : String) (b : StageBlock) :
    (s.block stage).run.run a = (.ok b, t) ↔
      ∃ l, (s.load stage).run.run a = (.ok l, t) ∧ l.block = .ok b := by
  constructor
  · intro ok
    obtain ⟨facts, _, told_facts, ok⟩ := Call.bind_ok ok
    obtain ⟨actions, _, told_actions, ok⟩ := Call.bind_ok ok
    obtain ⟨workers, _, told_results, ok⟩ := Call.bind_ok ok
    obtain ⟨made, rfl⟩ := Call.lift_ok ok
    exact ⟨⟨stage, facts, actions, workers⟩, Call.bind_of_ok told_facts
      (Call.bind_of_ok told_actions (Call.bind_of_ok told_results rfl)), made⟩
  · rintro ⟨l, told, made⟩
    rw [block_run told, made]

theorem blocks_ok_iff (s : Source σ) (names : List String) (blocks : List StageBlock) :
    (s.blocks names).run.run a = (.ok blocks, t) ↔
      ∃ loaded, (s.loads names).run.run a = (.ok loaded, t) ∧
        List.Forall₂ (fun l b => l.block = .ok b) loaded blocks := by
  induction names generalizing a blocks with
  | nil =>
      constructor
      · intro ok
        obtain ⟨rfl, rfl⟩ := Call.pure_ok ok
        exact ⟨[], rfl, .nil⟩
      · rintro ⟨loaded, ok, made⟩
        obtain ⟨rfl, rfl⟩ := Call.pure_ok ok
        cases made
        rfl
  | cons name rest ih =>
      constructor
      · intro ok
        obtain ⟨b, _, first, ok⟩ := Call.bind_ok ok
        obtain ⟨bs, _, later, ok⟩ := Call.bind_ok ok
        obtain ⟨rfl, rfl⟩ := Call.pure_ok ok
        obtain ⟨l, told, made⟩ := (s.block_ok_iff name b).1 first
        obtain ⟨ls, told_later, made_later⟩ := (ih bs).1 later
        exact ⟨l :: ls, Call.bind_of_ok told (Call.bind_of_ok told_later rfl),
          .cons made made_later⟩
      · rintro ⟨loaded, ok, made⟩
        obtain ⟨l, _, told, ok⟩ := Call.bind_ok ok
        obtain ⟨ls, _, told_later, ok⟩ := Call.bind_ok ok
        obtain ⟨rfl, rfl⟩ := Call.pure_ok ok
        obtain ⟨b, bs, made_first, made_later, rfl⟩ := List.forall₂_cons_left_iff.1 made
        exact Call.bind_of_ok ((s.block_ok_iff name b).2 ⟨l, told, made_first⟩)
          (Call.bind_of_ok ((ih bs).2 ⟨ls, told_later, made_later⟩) rfl)

/-- The first stage that is refused ends the summing up; the source is asked no further. -/
theorem blocks_refused {names : List String} {loaded : List LoadedStage} {e : Error}
    (told : (s.loads names).run.run a = (.ok loaded, t))
    (refused : loaded.mapM LoadedStage.block = .error e) :
    ∃ u, (s.blocks names).run.run a = (.error e, u) := by
  induction names generalizing a loaded with
  | nil =>
      obtain ⟨rfl, -⟩ := Call.pure_ok told
      cases refused
  | cons name rest ih =>
      obtain ⟨l, b, told_first, told⟩ := Call.bind_ok told
      obtain ⟨ls, _, told_later, told⟩ := Call.bind_ok told
      obtain ⟨rfl, rfl⟩ := Call.pure_ok told
      have first := block_run told_first
      rw [List.mapM_cons] at refused
      rcases Outcome.bind_error refused with own | ⟨block, made, refused⟩
      · rw [own] at first
        exact ⟨b, Call.bind_of_error first⟩
      · rw [made] at first
        rcases Outcome.bind_error refused with later | ⟨_, -, last⟩
        · obtain ⟨u, ended⟩ := ih told_later later
          exact ⟨u, Call.bind_of_ok first (Call.bind_of_error ended)⟩
        · cases last

/-- What a collection tells of how reporting ended and of how the source was closed. -/
def verdict : Except Error SessionReport → Except Error Unit → Except Error SessionReport
  | .error e, _ => .error e
  | .ok _, .error e => .error e
  | .ok report, .ok () => .ok report

theorem verdict_ok_iff {outcome : Except Error SessionReport} {last : Except Error Unit}
    {report : SessionReport} :
    verdict outcome last = .ok report ↔ outcome = .ok report ∧ last = .ok () := by
  cases outcome with
  | error e => simp [verdict]
  | ok report' => cases last <;> simp [verdict]

theorem collect_unconnected {e : Error} {b : σ} (refused : s.connect.run.run a = (.error e, b)) :
    s.collect.run.run a = (.error e, b) := by
  rw [Source.collect, ExceptT.run_mk, StateT.run_bind, refused]
  rfl

/-- The source is closed after a failure too: how reporting ended is only looked at after that. -/
theorem collect_connected {b c d : σ} {outcome : Except Error SessionReport}
    {last : Except Error Unit} (connected : s.connect.run.run a = (.ok (), b))
    (reported : s.report.run.run b = (outcome, c)) (closed : s.close.run.run c = (last, d)) :
    s.collect.run.run a = (verdict outcome last, d) := by
  rw [Source.collect, ExceptT.run_mk, StateT.run_bind, connected]
  change StateT.run (s.report.run >>= _) b = _
  rw [StateT.run_bind, reported]
  change StateT.run (s.close.run >>= _) c = _
  rw [StateT.run_bind, closed]
  cases outcome <;> cases last <;> rfl

/-- A report that was made succeeded in all of its steps. -/
theorem collect_steps_iff (s : Source σ) (report : SessionReport) :
    s.collect.run.run a = (.ok report, t) ↔
      ∃ b c, s.connect.run.run a = (.ok (), b) ∧ s.report.run.run b = (.ok report, c) ∧
        s.close.run.run c = (.ok (), t) := by
  rcases opened : s.connect.run.run a with ⟨answer, b⟩
  cases answer with
  | error e =>
      rw [collect_unconnected opened]
      constructor
      · intro ok
        cases ok
      · rintro ⟨_, _, connected, -⟩
        cases connected
  | ok _ =>
      rcases reported : s.report.run.run b with ⟨outcome, c⟩
      rcases closed : s.close.run.run c with ⟨last, d⟩
      rw [collect_connected opened reported closed]
      constructor
      · intro ok
        obtain ⟨judged, rfl⟩ := Prod.mk.inj ok
        obtain ⟨rfl, rfl⟩ := verdict_ok_iff.1 judged
        exact ⟨b, c, rfl, reported, closed⟩
      · rintro ⟨_, _, connected, made, ended⟩
        cases connected
        rw [reported] at made
        cases made
        rw [closed] at ended
        cases ended
        rfl

/-- A collection succeeds when the source tells all that it knows of its stages and each stage comes
to something. The report is made of that. -/
theorem collect_ok_iff (s : Source σ) (report : SessionReport) :
    s.collect.run.run a = (.ok report, t) ↔
      ∃ loaded blocks, s.loadAll.run.run a = (.ok loaded, t) ∧
        List.Forall₂ (fun l b => l.block = .ok b) loaded blocks ∧
        SessionReport.ofBlocks blocks = .ok report := by
  rw [collect_steps_iff]
  constructor
  · rintro ⟨b, c, connected, reported, closed⟩
    obtain ⟨names, _, listed, reported⟩ := Call.bind_ok reported
    obtain ⟨blocks, _, summed, reported⟩ := Call.bind_ok reported
    obtain ⟨gathered, rfl⟩ := Call.lift_ok reported
    obtain ⟨loaded, told, made⟩ := (s.blocks_ok_iff names blocks).1 summed
    exact ⟨loaded, blocks, Call.bind_of_ok connected (Call.bind_of_ok listed
      (Call.bind_of_ok told (Call.bind_of_ok closed rfl))), made, gathered⟩
  · rintro ⟨loaded, blocks, told_all, made, gathered⟩
    obtain ⟨_, b, connected, told_all⟩ := Call.bind_ok told_all
    obtain ⟨names, _, listed, told_all⟩ := Call.bind_ok told_all
    obtain ⟨loaded', c, told, told_all⟩ := Call.bind_ok told_all
    obtain ⟨_, _, closed, told_all⟩ := Call.bind_ok told_all
    obtain ⟨rfl, rfl⟩ := Call.pure_ok told_all
    refine ⟨b, c, connected, Call.bind_of_ok listed
      (Call.bind_of_ok ((s.blocks_ok_iff names blocks).2 ⟨_, told, made⟩) ?_), closed⟩
    rw [gathered]
    rfl

theorem report_run {names : List String} {loaded : List LoadedStage} {b c : σ}
    (listed : s.stages.run.run a = (.ok names, b))
    (told : (s.loads names).run.run b = (.ok loaded, c)) :
    ∃ d, s.report.run.run a = (loaded.mapM LoadedStage.block >>= SessionReport.ofBlocks, d) := by
  cases through : loaded.mapM LoadedStage.block with
  | error e =>
      obtain ⟨d, refused⟩ := blocks_refused told through
      exact ⟨d, Call.bind_of_ok listed (Call.bind_of_error refused)⟩
  | ok blocks =>
      have made := (s.blocks_ok_iff names blocks).2 ⟨loaded, told, Outcome.mapM_ok_iff.1 through⟩
      exact ⟨c, Call.bind_of_ok listed (Call.bind_of_ok made (Call.lift_run _))⟩

/-- What a collection comes to, when the source tells all that it knows: the stages are summed up
one after another, and the report is made of that. -/
theorem collect_of_loadAll {loaded : List LoadedStage}
    (told : s.loadAll.run.run a = (.ok loaded, t)) :
    (s.collect.run.run a).1 = loaded.mapM LoadedStage.block >>= SessionReport.ofBlocks := by
  obtain ⟨_, b, connected, told_rest⟩ := Call.bind_ok told
  obtain ⟨names, _, listed, told_rest⟩ := Call.bind_ok told_rest
  obtain ⟨loaded', c, told_stages, told_rest⟩ := Call.bind_ok told_rest
  obtain ⟨_, _, -, told_rest⟩ := Call.bind_ok told_rest
  obtain ⟨rfl, rfl⟩ := Call.pure_ok told_rest
  cases through : loaded'.mapM LoadedStage.block >>= SessionReport.ofBlocks with
  | error e =>
      -- The source is closed elsewhere than it was told to be, and that is not looked at.
      obtain ⟨d, reported⟩ := report_run listed told_stages
      rw [through] at reported
      rcases closed : s.close.run.run d with ⟨last, u⟩
      rw [collect_connected connected reported closed]
      rfl
  | ok report =>
      obtain ⟨blocks, made, gathered⟩ := Outcome.bind_ok through
      rw [(s.collect_ok_iff report).2 ⟨_, blocks, told, Outcome.mapM_ok_iff.1 made, gathered⟩]

theorem load_stage {stage : String} {l : LoadedStage}
    (ok : (s.load stage).run.run a = (.ok l, t)) : l.stage = stage := by
  obtain ⟨facts, _, -, ok⟩ := Call.bind_ok ok
  obtain ⟨actions, _, -, ok⟩ := Call.bind_ok ok
  obtain ⟨workers, _, -, ok⟩ := Call.bind_ok ok
  obtain ⟨rfl, -⟩ := Call.pure_ok ok
  rfl

theorem loads_stages {names : List String} {loaded : List LoadedStage}
    (ok : (s.loads names).run.run a = (.ok loaded, t)) :
    loaded.map LoadedStage.stage = names := by
  induction names generalizing a t loaded with
  | nil =>
      obtain ⟨rfl, -⟩ := Call.pure_ok ok
      rfl
  | cons name rest ih =>
      obtain ⟨l, _, told, ok⟩ := Call.bind_ok ok
      obtain ⟨ls, _, told_later, ok⟩ := Call.bind_ok ok
      obtain ⟨rfl, -⟩ := Call.pure_ok ok
      rw [List.map_cons, load_stage told, ih told_later]

/-- The stages are those that the source lists, in that order. -/
theorem loadAll_stages {loaded : List LoadedStage}
    (ok : s.loadAll.run.run a = (.ok loaded, t)) :
    ∃ opened listed, s.connect.run.run a = (.ok (), opened) ∧
      s.stages.run.run opened = (.ok (loaded.map LoadedStage.stage), listed) := by
  obtain ⟨_, opened, connected, ok⟩ := Call.bind_ok ok
  obtain ⟨names, listed, named, ok⟩ := Call.bind_ok ok
  obtain ⟨loaded', _, told, ok⟩ := Call.bind_ok ok
  obtain ⟨_, _, -, ok⟩ := Call.bind_ok ok
  obtain ⟨rfl, -⟩ := Call.pure_ok ok
  rw [loads_stages told]
  exact ⟨opened, listed, connected, named⟩

end Source

end BenchReport
