import BenchReport.Proofs.Acceptance
import BenchReport.Session.Source
set_option autoImplicit false

namespace BenchReport

namespace Call

variable {σ β : Type}

theorem run_get_bind (next : σ → Call σ β) (s : σ) :
    (get >>= next).run.run s = (next s).run.run s := rfl

/-- How a call ends that leaves its state when it fails. -/
def answer (before : σ) : Except Error σ → Except Error Unit × σ
  | .ok after => (.ok (), after)
  | .error e => (.error e, before)

theorem answer_eq_ok_iff {before after : σ} {made : Except Error σ} :
    answer before made = (.ok (), after) ↔ made = .ok after := by
  cases made <;> simp [answer]

theorem answer_eq_error_iff {before after : σ} {made : Except Error σ} {e : Error} :
    answer before made = (.error e, after) ↔ made = .error e ∧ after = before := by
  cases made <;> simp [answer, eq_comm]

end Call

namespace Tally

def settleHere : Option String → Call Tally Unit
  | none => modify fun t => { t with succeeded := t.succeeded + 1 }
  | some message => do
    modify fun t => { t with failed := t.failed + 1 }
    modify fun t => { t with errors := countError t.errors message }

/-- Counts an event of the action in the tally that is there. -/
def ingestHere (e : Event) : Call Tally Unit := do
  let t ← get
  if e.name ≠ t.name then throw (.misrouted e.name t.name)
  else
    modify fun t => { t with source := if t.source = "" then e.header.source else t.source }
    modify fun t => { t with tags := t.tags.insertAll e.header.tags }
    modify fun t => { t with total := t.total + 1 }
    settleHere e.header.error
    Phase.all.forM fun p =>
      modify fun t => { t with timings := pushTiming t.timings p (e.header.timings.get p) }
    modify fun t => { t with events := t.events ++ [e] }

/-- Makes an event of an observation in a stage and counts it in the tally that is there. -/
def addHere (o : Observation) (stage : String) : Call Tally Unit := do
  let e ← (Event.ofObservation o stage : Except Error Event)
  ingestHere e

theorem ingestHere_run (t : Tally) (e : Event) :
    (ingestHere e).run.run t = Call.answer t (t.ingest e) := by
  rw [ingestHere, Call.run_get_bind]
  by_cases same : e.name = t.name
  · simp only [Tally.ingest, same, ne_eq, not_true_eq_false, ↓reduceIte]
    rw [count]
    cases error : e.header.error <;> rfl
  · simp only [Tally.ingest, same, ne_eq, not_false_eq_true, ↓reduceIte]
    rfl

theorem addHere_run (t : Tally) (o : Observation) (stage : String) :
    (addHere o stage).run.run t = Call.answer t (t.add o stage) := by
  rw [addHere, Tally.add]
  cases made : Event.ofObservation o stage with
  | error e => rfl
  | ok e => exact ingestHere_run t e

/-- A call made in place comes to what a function makes of the tally. It succeeds exactly when a
condition holds, and when it fails the tally is as it was. -/
structure InPlace (t : Tally) (call : Call Tally Unit) (made : Except Error Tally)
    (taken : Prop) : Prop where
  ok (t' : Tally) : call.run.run t = (.ok (), t') ↔ made = .ok t'
  error (e : Error) (t' : Tally) : call.run.run t = (.error e, t') ↔ made = .error e ∧ t' = t
  taken : (∃ t', call.run.run t = (.ok (), t')) ↔ taken

theorem inPlace_of_answer {t : Tally} {call : Call Tally Unit} {made : Except Error Tally}
    {taken : Prop} (run : call.run.run t = Call.answer t made)
    (accepted : (∃ t', made = .ok t') ↔ taken) : InPlace t call made taken := by
  have ok (t' : Tally) : call.run.run t = (.ok (), t') ↔ made = .ok t' := by
    rw [run]
    exact Call.answer_eq_ok_iff
  refine ⟨ok, fun e t' => ?_, (exists_congr ok).trans accepted⟩
  rw [run]
  exact Call.answer_eq_error_iff

theorem ingestHere_inPlace (t : Tally) (e : Event) :
    InPlace t (ingestHere e) (t.ingest e) (e.name = t.name) :=
  inPlace_of_answer (ingestHere_run t e) (t.ingest_ok_iff e)

theorem addHere_inPlace (t : Tally) (o : Observation) (stage : String) :
    InPlace t (addHere o stage) (t.add o stage) (o.Tells t.name) :=
  inPlace_of_answer (addHere_run t o stage) (t.add_ok_iff o stage)

end Tally

end BenchReport
