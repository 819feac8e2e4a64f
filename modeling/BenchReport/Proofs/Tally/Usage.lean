import BenchReport.Proofs.Outcome
import BenchReport.Proofs.Tally.Aggregation
import BenchReport.Proofs.Tally.Faithful
import BenchReport.Proofs.Tally.InPlace
set_option autoImplicit false

namespace BenchReport

/-- A way of using a tally. Calls that fail count as uses too. -/
inductive Usage where
  | start (name stage : String)
  | add (before : Usage) (o : Observation) (stage : String)
  | ingest (before : Usage) (e : Event)
  | takeMoments (before : Usage)
  | takeQuantiles (before : Usage)
  | takeEvents (before : Usage)
  | merge (before other : Usage)

namespace Usage

def tally : Usage → Tally
  | start name stage => Tally.empty name stage
  | add before o stage => (before.tally.add o stage).toOption.getD before.tally
  | ingest before e => (before.tally.ingest e).toOption.getD before.tally
  | takeMoments before => before.tally.takeMoments
  | takeQuantiles before => before.tally.takeQuantiles
  | takeEvents before => before.tally.takeEvents.2
  | merge before other => before.tally.merge other.tally

/-- The events whose calls succeeded, those of a merged tally behind the own ones. -/
def history : Usage → List Event
  | start _ _ => []
  | add before o stage =>
    match before.tally.add o stage with
    | .ok _ => before.history ++ (Event.ofObservation o stage).toOption.toList
    | .error _ => before.history
  | ingest before e =>
    match before.tally.ingest e with
    | .ok _ => before.history ++ [e]
    | .error _ => before.history
  | takeMoments before => before.history
  | takeQuantiles before => before.history
  | takeEvents before => before.history
  | merge before other => before.history ++ other.history

theorem fits_of_append {h k : List Event} (fits : (h ++ k).length < 2 ^ 64) :
    h.length < 2 ^ 64 ∧ k.length < 2 ^ 64 := by
  rw [List.length_append] at fits
  omega

theorem untaken (u : Usage) (fits : u.history.length < 2 ^ 64) : u.tally.Untaken u.history := by
  -- The events of a tally may be gone, so the invariant has its history put in their place.
  induction u with
  | start name stage => exact Tally.untaken_empty name stage
  | add before o stage ih =>
      rw [history] at fits
      rw [tally, history]
      cases added : before.tally.add o stage with
      | error err =>
          rw [added] at fits
          exact ih fits
      | ok t =>
          obtain ⟨e, made, ingested⟩ := Outcome.bind_ok added
          rw [added, made] at fits
          rw [made]
          exact (ih (fits_of_append fits).1).ingest ingested
  | ingest before e ih =>
      rw [history] at fits
      rw [tally, history]
      cases ingested : before.tally.ingest e with
      | error err =>
          rw [ingested] at fits
          exact ih fits
      | ok t =>
          rw [ingested] at fits
          exact (ih (fits_of_append fits).1).ingest ingested
  | takeMoments before ih => exact (ih fits).takeMoments
  | takeQuantiles before ih => exact (ih fits).takeQuantiles
  | takeEvents before ih => exact (ih fits).takeEvents
  | merge before other before_ih other_ih =>
      have both := fits_of_append fits
      exact (before_ih both.1).merge (other_ih both.2) fits

/-- However a tally was used, its messages account for all its failures. -/
theorem addsUp (u : Usage) : u.tally.AddsUp := by
  induction u with
  | start name stage => rfl
  | add before o stage ih =>
      rw [tally]
      cases added : before.tally.add o stage with
      | error err => exact ih
      | ok t =>
          obtain ⟨e, -, ingested⟩ := Outcome.bind_ok added
          exact ih.ingest ingested
  | ingest before e ih =>
      rw [tally]
      cases ingested : before.tally.ingest e with
      | error err => exact ih
      | ok t => exact ih.ingest ingested
  | takeMoments before ih => exact ih
  | takeQuantiles before ih => exact ih
  | takeEvents before ih => exact ih
  | merge before other before_ih other_ih => exact before_ih.merge other_ih

/-- A tally is a faithful account of its history, as long as the history has fewer than `2 ^ 64`
events. An event or an observation that is not taken in leaves the tally as it was, although a call
writes to it field by field. -/
theorem tally_faithful (u : Usage) (fits : u.history.length < 2 ^ 64) :
    Tally.Faithful u.tally u.history ∧
      (∀ e, Tally.InPlace u.tally (Tally.ingestHere e) (u.tally.ingest e)
        (e.name = u.tally.name)) ∧
      (∀ o stage, Tally.InPlace u.tally (Tally.addHere o stage) (u.tally.add o stage)
        (o.Tells u.tally.name)) :=
  ⟨(u.untaken fits).faithful fits, u.tally.ingestHere_inPlace, u.tally.addHere_inPlace⟩

/-- The second tally was merged after its events had been taken; what came before was a merge with a
tally of nothing and a call for another action, which failed. -/
theorem tally_faithful_after_failure :
    let slow := ((start "login" "peak").add (.timed "login" 0.5 (some "timeout")) "peak").takeEvents
    let fast := (start "login" "ramp").add (.timed "login" 0.25 none) "ramp"
    let refused := (fast.merge (start "login" "idle")).add (.timed "logout" 1.0 none) "ramp"
    let u := refused.takeMoments.merge slow
    u.history.length = 2 ∧ u.history.length < 2 ^ 64 ∧ Tally.Faithful u.tally u.history ∧
      u.tally.events.length = 1 := by
  intro slow fast refused u
  have length : u.history.length = 2 := by decide +kernel
  have fits : u.history.length < 2 ^ 64 := by omega
  exact ⟨length, fits, (u.tally_faithful fits).1, by decide +kernel⟩

end Usage

end BenchReport
