import BenchReport.Proofs.Session.ReadOnly
set_option autoImplicit false

namespace BenchReport

inductive SourceCall where
  | connect
  | stages
  | actions (name : String)
  | data (name : String)
  | results (name : String)
  | facts (name : String)
  | close

namespace SourceCall

def ofStage (name : String) : List SourceCall := [.facts name, .actions name, .results name]

def loading (names : List String) : List SourceCall := .stages :: names.flatMap ofStage

end SourceCall

namespace Call

variable {σ α β : Type}

/-- A call that is recorded as soon as it is made, whatever becomes of it. -/
def noted (k : SourceCall) (c : Call σ α) : Call (σ × List SourceCall) α :=
  ExceptT.mk fun t => ((c.run.run t.1).1, ((c.run.run t.1).2, t.2 ++ [k]))

/-- In a state, the one does as the other does and records the calls of a plan: all of them if it
succeeds, else the first few. -/
def Records (plan : List SourceCall) (c : Call σ α) (c' : Call (σ × List SourceCall) α) (a : σ) :
    Prop :=
  ∀ log, ∃ made, made <+: plan ∧ (∀ r b, c.run.run a = (.ok r, b) → made = plan) ∧
    c'.run.run (a, log) = ((c.run.run a).1, (c.run.run a).2, log ++ made)

theorem noted_records (k : SourceCall) (c : Call σ α) (a : σ) : Records [k] c (c.noted k) a :=
  fun _ => ⟨[k], List.prefix_refl _, fun _ _ _ => rfl, rfl⟩

theorem lift_records (x : Except Error α) (a : σ) : Records [] (liftM x) (liftM x) a := by
  intro log
  refine ⟨[], List.prefix_refl _, fun _ _ _ => rfl, ?_⟩
  rw [List.append_nil]
  cases x <;> rfl

theorem pure_records (r : α) (a : σ) : Records [] (pure r) (pure r) a := lift_records (.ok r) a

theorem Records.bind {plan plan' : List SourceCall} {x : Call σ α} {f : α → Call σ β}
    {x' : Call (σ × List SourceCall) α} {f' : α → Call (σ × List SourceCall) β} {a : σ}
    (first : Records plan x x' a)
    (next : ∀ r b, x.run.run a = (.ok r, b) → Records plan' (f r) (f' r) b) :
    Records (plan ++ plan') (x >>= f) (x' >>= f') a := by
  intro log
  obtain ⟨made, fewer, whole, run⟩ := first log
  simp only [ExceptT.run_bind, StateT.run_bind, run]
  rcases ran : x.run.run a with ⟨result, b⟩
  cases result with
  | error e => exact ⟨made, fewer.trans (List.prefix_append _ _), nofun, rfl⟩
  | ok r =>
      obtain rfl := whole r b ran
      obtain ⟨made', fewer', whole', run'⟩ := next r b ran (log ++ made)
      rw [List.append_assoc] at run'
      refine ⟨made ++ made', (List.prefix_append_right_inj made).2 fewer', ?_, run'⟩
      intro r' b' ok
      rw [whole' r' b' ok]

/-- A decision that follows is not recorded. -/
theorem Records.decides {plan : List SourceCall} {x : Call σ α}
    {x' : Call (σ × List SourceCall) α} {a : σ} (records : Records plan x x' a)
    (g : α → Except Error β) :
    Records plan (x >>= fun r => liftM (g r)) (x' >>= fun r => liftM (g r)) a := by
  have both := records.bind fun r b _ => lift_records (g r) b
  rw [List.append_nil] at both
  exact both

theorem Records.returns {plan : List SourceCall} {x : Call σ α}
    {x' : Call (σ × List SourceCall) α} {a : σ} (records : Records plan x x' a) (g : α → β) :
    Records plan (x >>= fun r => pure (g r)) (x' >>= fun r => pure (g r)) a :=
  records.decides fun r => .ok (g r)

end Call

namespace Source

variable {σ : Type} {s : Source σ} {a b c d : σ}

def recorded (s : Source σ) : Source (σ × List SourceCall) where
  tag := s.tag
  connect := s.connect.noted .connect
  stages := s.stages.noted .stages
  actions name := (s.actions name).noted (.actions name)
  data name := (s.data name).noted (.data name)
  results name := (s.results name).noted (.results name)
  facts name := (s.facts name).noted (.facts name)
  close := s.close.noted .close

/-- The calls that a collection makes to a source in a given state. -/
def calls (s : Source σ) (a : σ) : List SourceCall := (s.recorded.collect.run.run (a, [])).2.2

def listed (s : Source σ) (a : σ) : List String :=
  match (s.stages.run.run a).1 with
  | .ok names => names
  | .error _ => []

theorem block_records (s : Source σ) (name : String) (a : σ) :
    Call.Records (SourceCall.ofStage name) (s.block name) (s.recorded.block name) a :=
  (Call.noted_records _ _ a).bind fun _ b _ => (Call.noted_records _ _ b).bind fun _ c _ =>
    (Call.noted_records _ _ c).bind fun _ d _ => Call.lift_records _ d

theorem blocks_record (s : Source σ) (names : List String) (a : σ) :
    Call.Records (names.flatMap SourceCall.ofStage) (s.blocks names) (s.recorded.blocks names)
      a := by
  induction names generalizing a with
  | nil => exact Call.pure_records _ a
  | cons name rest ih => exact (s.block_records name a).bind fun _ b _ => (ih b).returns _

/-- While the report is made the stages are listed and then loaded one after another. -/
theorem report_records (s : Source σ) (a : σ) :
    Call.Records (SourceCall.loading (s.listed a)) s.report s.recorded.report a := by
  refine (Call.noted_records .stages s.stages a).bind fun names b told => ?_
  have same : s.listed a = names := by
    rw [listed, told]
  rw [same]
  exact (s.blocks_record names b).decides _

/-- Once connected, a source is closed after all loads. -/
theorem calls_connected {outcome : Except Error SessionReport} {last : Except Error Unit}
    (connected : s.connect.run.run a = (.ok (), b)) (reported : s.report.run.run b = (outcome, c))
    (closed : s.close.run.run c = (last, d)) :
    ∃ loads, loads <+: SourceCall.loading (s.listed b) ∧
      (outcome.isOk = true → loads = SourceCall.loading (s.listed b)) ∧
      s.recorded.collect.run.run (a, []) =
        (verdict outcome last, d, .connect :: loads ++ [.close]) := by
  obtain ⟨loads, fewer, whole, run⟩ := s.report_records b [.connect]
  rw [reported] at run
  refine ⟨loads, fewer, ?_, ?_⟩
  · intro succeeded
    cases outcome with
    | error e => cases succeeded
    | ok report => exact whole report c reported
  · refine collect_connected (b := (b, [.connect])) (c := (c, .connect :: loads)) ?_ run ?_
    · show ((s.connect.run.run a).1, (s.connect.run.run a).2, [SourceCall.connect]) = _
      rw [connected]
    · show ((s.close.run.run c).1, (s.close.run.run c).2, _) = _
      rw [closed]

end Source

namespace Source

variable {σ : Type}

def failing : Source Unit where
  tag := "json"
  connect := pure ()
  stages := pure ["execute"]
  actions name := throw (.unknownStage name)
  data name := throw (.unknownStage name)
  results name := throw (.unknownStage name)
  facts name := throw (.unknownStage name)
  close := throw (.backend "json" "not connected")

end Source

end BenchReport
