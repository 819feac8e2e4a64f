import BenchReport.Proofs.Delivery.Calls
set_option autoImplicit false

namespace BenchReport

/-- What becomes of the run while a backend is called. -/
inductive Moment (σ : Type) where
  | calm
  /-- It is cancelled, but the call comes to its end. -/
  | late
  /-- It is cancelled and the call is given up, which leaves the backend in some state. -/
  | lost (left : σ)

/-- How a call is answered if the run is cancelled meanwhile. -/
def Moment.strike {σ : Type} : Moment σ → Reply × σ → Reply × σ
  | .late, (.done result _, t) => (.done result true, t)
  | .lost left, _ => (.dropped, left)
  | _, answered => answered

namespace Backend

variable {σ : Type}

/-- A call that meets the first of the moments to come; beyond the last of them all is calm. -/
def struck (call : StateM σ Reply) : StateM (σ × List (Moment σ)) Reply :=
  fun state =>
    let answered := (state.2.headD .calm).strike (call.run state.1)
    (answered.1, answered.2, state.2.tail)

def interrupted (b : Backend σ) : Backend (σ × List (Moment σ)) where
  name := b.name
  categories := b.categories
  connect := struck b.connect
  submit c p := struck (b.submit c p)
  close := struck b.close

section Steps

variable {b : Backend σ} {p : Payload} {cs : List Category} {d d' : Delivery} {s t : σ}
  {coming left : List (Moment σ)} {cancelled ended now : Bool} {result : Except Error Unit}

/-- A call that comes to its end is answered as ever; only a cancellation is told that was not. -/
theorem struck_done {call : StateM σ Reply}
    (replied : (struck call).run (s, coming) = (.done result now, t, left)) :
    ∃ before, call.run s = (.done result before, t) ∧ (now = false → before = false) := by
  change (((coming.headD .calm).strike (call.run s)).1,
    ((coming.headD .calm).strike (call.run s)).2, coming.tail) = _ at replied
  rcases alone : call.run s with ⟨reply, u⟩
  rw [alone] at replied
  cases moment : coming.headD .calm with
  | calm =>
      rw [moment] at replied
      cases replied
      exact ⟨now, rfl, id⟩
  | late =>
      rw [moment] at replied
      cases reply with
      | done result' before =>
          cases replied
          exact ⟨before, rfl, nofun⟩
      | dropped => cases replied
  | lost state =>
      rw [moment] at replied
      cases replied

theorem step_struck {title : String} {call : StateM σ Reply}
    (answered : (step title (struck call) cancelled).run (s, coming) = ((result, now), t, left))
    (passed : Passed result) :
    cancelled = false ∧
      ∃ before, (step title call false).run s = ((result, before), t) ∧
        (now = false → before = false) := by
  obtain ⟨uncancelled, replied⟩ := step_passed answered passed
  obtain ⟨before, alone, unheard⟩ := struck_done replied
  refine ⟨uncancelled, before, ?_, unheard⟩
  rw [step_run, alone]
  rfl

/-- Submissions that all pass, after which the run is not cancelled, were never struck. -/
theorem submitAll_interrupted
    (run : (b.interrupted.submitAll p cs cancelled d).run (s, coming) =
      ((.ok d', false), t, left)) :
    cancelled = false ∧ (b.submitAll p cs false d).run s = ((.ok d', false), t) := by
  induction cs generalizing cancelled d s coming with
  | nil =>
      cases run
      exact ⟨rfl, rfl⟩
  | cons c rest ih =>
      cases handed : p.has c && b.supports c with
      | false =>
          rw [submitAll_not_due (b := b.interrupted) handed] at run
          rw [submitAll_not_due handed]
          exact ih run
      | true =>
          rcases answered : (step c.step (b.interrupted.submit c p) cancelled).run (s, coming) with
            ⟨⟨result, now⟩, u, later⟩
          rcases passed_or_failed result with passed | ⟨e, rfl, failed⟩
          · rw [submitAll_passed (b := b.interrupted) handed answered passed] at run
            obtain ⟨still_running, others⟩ := ih run
            obtain ⟨uncancelled, before, alone, unheard⟩ := step_struck answered passed
            rw [unheard still_running] at alone
            exact ⟨uncancelled, (submitAll_passed handed alone passed).trans others⟩
          · rw [submitAll_failed (b := b.interrupted) handed answered failed] at run
            cases run

end Steps

/-- A delivery that succeeds while the run may be cancelled started in a run that was not, and is
the delivery that nobody disturbs. -/
theorem deliver_interrupted {b : Backend σ} {p : Payload} {cancelled : Bool} {d : Delivery}
    {s v : σ} {coming left : List (Moment σ)}
    (run : (b.interrupted.deliver p cancelled).run (s, coming) = (.ok d, v, left)) :
    cancelled = false ∧ (b.deliver p false).run s = (.ok d, v) := by
  have passes : Passed (.ok ()) := fun _ failed => nomatch failed
  obtain ⟨now, ⟨t, _⟩, ended, ⟨u, _⟩, late, connected, submitted, closed⟩ := deliver_ok run
  obtain ⟨uncancelled, opened, connected, heard_first⟩ := step_struck connected passes
  obtain ⟨still_running, last, closed, -⟩ := step_struck closed passes
  rw [still_running] at submitted
  obtain ⟨first_calm, submitted⟩ := submitAll_interrupted submitted
  rw [heard_first first_calm] at connected
  refine ⟨uncancelled, ?_⟩
  rw [deliver_submitted connected submitted, closed]
  rfl

end Backend

end BenchReport
