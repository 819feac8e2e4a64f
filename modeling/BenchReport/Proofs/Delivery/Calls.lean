import BenchReport.Report.Delivery
set_option autoImplicit false

namespace BenchReport

inductive BackendCall where
  | connect
  | submit (c : Category)
  | close
  deriving DecidableEq

namespace Backend

variable {σ : Type}

/-- A call that is recorded as soon as it is made, whatever becomes of it. -/
def noted (call : BackendCall) (m : StateM σ Reply) : StateM (σ × List BackendCall) Reply :=
  fun state => ((m.run state.1).1, ((m.run state.1).2, state.2 ++ [call]))

def recorded (b : Backend σ) : Backend (σ × List BackendCall) where
  name := b.name
  categories := b.categories
  connect := noted .connect b.connect
  submit c p := noted (.submit c) (b.submit c p)
  close := noted .close b.close

/-- The calls that a delivery makes to a backend in a given state. -/
def calls (b : Backend σ) (p : Payload) (cancelled : Bool) (s : σ) : List BackendCall :=
  ((b.recorded.deliver p cancelled).run (s, [])).2.2

/-- The categories that have rows and that the backend takes. -/
def due (b : Backend σ) (p : Payload) (cs : List Category) : List Category :=
  cs.filter fun c => p.has c && b.supports c

/-- How a step judges the answer to its call. -/
def judge (title : String) : Reply → Except Error Unit × Bool
  | .done result cancelled => (result, cancelled)
  | .dropped => (.error (.abandoned title), true)

theorem step_cancelled (title : String) (call : StateM σ Reply) (s : σ) :
    (step title call true).run s = ((.error (.abandoned title), true), s) := rfl

theorem step_run (title : String) (call : StateM σ Reply) (s : σ) :
    (step title call false).run s = (judge title (call.run s).1, (call.run s).2) := by
  simp only [step, Bool.false_eq_true, ↓reduceIte, StateT.run_bind]
  generalize call.run s = answered
  obtain ⟨reply, t⟩ := answered
  cases reply <;> rfl

theorem step_noted (title : String) (call : BackendCall) (m : StateM σ Reply) (cancelled : Bool)
    (s : σ) (log : List BackendCall) :
    (step title (noted call m) cancelled).run (s, log) =
      (((step title m cancelled).run s).1, ((step title m cancelled).run s).2,
        log ++ if cancelled then [] else [call]) := by
  cases cancelled with
  | true => simp only [step_cancelled, ↓reduceIte, List.append_nil]
  | false =>
      rw [step_run, step_run]
      rfl

def file (d : Delivery) (c : Category) : Except Error Unit → Delivery
  | .ok () => d.submit c
  | .error _ => d.skip c

/-- Success or refusal: what does not end the submissions. -/
def Passed (result : Except Error Unit) : Prop := ∀ e, result = .error e → e.kind = .unsupported

theorem passed_or_failed (result : Except Error Unit) :
    Passed result ∨ ∃ e, result = .error e ∧ e.kind ≠ .unsupported := by
  cases result with
  | ok _ => exact .inl fun _ failed => nomatch failed
  | error e =>
      by_cases refused : e.kind = .unsupported
      · refine .inl fun e' same => ?_
        cases same
        exact refused
      · exact .inr ⟨e, rfl, refused⟩

/-- Giving a call up ends the submissions. -/
theorem not_passed_abandoned (title : String) : ¬ Passed (.error (.abandoned title)) := by
  intro passed
  have refused : (Error.abandoned title).kind = .unsupported := passed _ rfl
  cases refused

/-- A call whose outcome passes was made, and came to its end. -/
theorem step_passed {title : String} {call : StateM σ Reply} {cancelled now : Bool} {s t : σ}
    {result : Except Error Unit} (answered : (step title call cancelled).run s = ((result, now), t))
    (passed : Passed result) : cancelled = false ∧ call.run s = (.done result now, t) := by
  cases cancelled with
  | true =>
      cases answered
      exact absurd passed (not_passed_abandoned title)
  | false =>
      refine ⟨rfl, ?_⟩
      rw [step_run] at answered
      rcases replied : call.run s with ⟨reply, t'⟩
      rw [replied] at answered
      cases reply with
      | done result' now' =>
          cases answered
          rfl
      | dropped =>
          cases answered
          exact absurd passed (not_passed_abandoned title)

section Submissions

variable {b : Backend σ} {p : Payload} {c : Category} {rest : List Category} {cancelled now : Bool}
  {d : Delivery} {s t : σ}

theorem submitAll_not_due (skipped : (p.has c && b.supports c) = false) :
    (b.submitAll p (c :: rest) cancelled d).run s =
      (b.submitAll p rest cancelled (d.skip c)).run s := by
  simp only [submitAll, skipped, Bool.false_eq_true, ↓reduceIte]

theorem submitAll_passed {result : Except Error Unit} (handed : (p.has c && b.supports c) = true)
    (answered : (step c.step (b.submit c p) cancelled).run s = ((result, now), t))
    (passed : Passed result) :
    (b.submitAll p (c :: rest) cancelled d).run s =
      (b.submitAll p rest now (file d c result)).run t := by
  simp only [submitAll, handed, ↓reduceIte, StateT.run_bind, answered]
  cases result with
  | ok _ => rfl
  | error e =>
      change StateT.run (if e.kind = .unsupported then _ else _) t = _
      rw [if_pos (passed e rfl)]
      rfl

theorem submitAll_failed {e : Error} (handed : (p.has c && b.supports c) = true)
    (answered : (step c.step (b.submit c p) cancelled).run s = ((.error e, now), t))
    (failed : e.kind ≠ .unsupported) :
    (b.submitAll p (c :: rest) cancelled d).run s = ((.error e, now), t) := by
  simp only [submitAll, handed, ↓reduceIte, StateT.run_bind, answered]
  change StateT.run (if e.kind = .unsupported then _ else _) t = _
  rw [if_neg failed]
  rfl

end Submissions

section Deliveries

variable {b : Backend σ} {p : Payload} {cancelled now ended : Bool} {d : Delivery} {s t u : σ}
  {e : Error}

/-- After a failure the backend is closed, and only its state tells of that. -/
theorem deliver_failed
    (connected : (step "connect" b.connect cancelled).run s = ((.ok (), now), t))
    (failed : (b.submitAll p Category.all now .none).run t = ((.error e, ended), u)) :
    (b.deliver p cancelled).run s = (.error e, (b.close.run u).2) := by
  simp only [deliver, StateT.run_bind, connected]
  change StateT.run (do match ← b.submitAll p Category.all now .none with | _ => _) t = _
  simp only [StateT.run_bind, failed]
  rfl

theorem deliver_submitted
    (connected : (step "connect" b.connect cancelled).run s = ((.ok (), now), t))
    (submitted : (b.submitAll p Category.all now .none).run t = ((.ok d, ended), u)) :
    (b.deliver p cancelled).run s =
      (((step "close" b.close ended).run u).1.1.map fun _ => d,
        ((step "close" b.close ended).run u).2) := by
  simp only [deliver, StateT.run_bind, connected]
  change StateT.run (do match ← b.submitAll p Category.all now .none with | _ => _) t = _
  simp only [StateT.run_bind, submitted]
  change StateT.run (do match ← step "close" b.close ended with | _ => _) u = _
  simp only [StateT.run_bind]
  generalize (step "close" b.close ended).run u = closed
  obtain ⟨⟨result, late⟩, v⟩ := closed
  cases result <;> rfl

/-- A delivery that succeeds has connected, submitted and closed. -/
theorem deliver_ok {v : σ} (run : (b.deliver p cancelled).run s = (.ok d, v)) :
    ∃ now t ended u late, (step "connect" b.connect cancelled).run s = ((.ok (), now), t) ∧
      (b.submitAll p Category.all now .none).run t = ((.ok d, ended), u) ∧
      (step "close" b.close ended).run u = ((.ok (), late), v) := by
  rcases connected : (step "connect" b.connect cancelled).run s with ⟨⟨opened, now⟩, t⟩
  cases opened with
  | error e =>
      simp only [deliver, StateT.run_bind, connected] at run
      cases run
  | ok _ =>
      rcases submitted : (b.submitAll p Category.all now .none).run t with ⟨⟨outcome, ended⟩, u⟩
      cases outcome with
      | error e =>
          rw [deliver_failed connected submitted] at run
          cases run
      | ok d' =>
          rw [deliver_submitted connected submitted] at run
          rcases closed : (step "close" b.close ended).run u with ⟨⟨answer, late⟩, w⟩
          rw [closed] at run
          cases answer with
          | error e => cases run
          | ok _ =>
              cases run
              exact ⟨now, t, ended, u, late, rfl, submitted, closed⟩

end Deliveries

end Backend

end BenchReport
