import BenchReport.Event
import BenchReport.Tally
import Mathlib
set_option autoImplicit false

namespace BenchReport

theorem Timings.fault?_eq_none_iff (t : Timings) :
    t.fault? = none ↔ ∀ p, (t.get p).isFinite = true ∧ ¬ t.get p < 0.0 := by
  rw [fault?, List.find?_eq_none]
  constructor
  · intro sound p
    have of_p := sound (p, t.get p) (List.mem_map.2 ⟨p, p.mem_all, rfl⟩)
    simpa only [Bool.or_eq_true, Bool.not_eq_true', decide_eq_true_eq, not_or,
      Bool.not_eq_false] using of_p
  · intro sound e mem
    obtain ⟨p, -, rfl⟩ := List.mem_map.1 mem
    simpa only [Bool.or_eq_true, Bool.not_eq_true', decide_eq_true_eq, not_or,
      Bool.not_eq_false] using sound p

/-- What an event of an action needs: an engine, a name that is not blank, and timings that are
finite and not negative. -/
structure Observation.Tells (o : Observation) (action : String) : Prop where
  engine : o.engine ≠ none
  name : o.name = some action
  notBlank : Text.isBlankText action = false
  timings : ∀ p, (o.timings.get p).isFinite = true ∧ ¬ o.timings.get p < 0.0

/-- What an event keeps of the observation that it was made of. -/
structure Event.MadeOf (e : Event) (o : Observation) (stage : String) : Prop where
  engine : o.engine = some e.engine
  name : o.name = some e.name
  notBlank : Text.isBlankText e.name = false
  sound : o.timings.fault? = none
  stage : e.stage = stage
  timings : e.header.timings = o.timings
  tags : e.header.tags = o.tags
  detail : e.detail = Detail.ofObservation o e.engine

theorem Detail.engine_ofObservation (o : Observation) (engine : Engine) :
    (Detail.ofObservation o engine).engine = engine := by
  cases engine <;> rfl

theorem Event.madeOf {o : Observation} {stage : String} {e : Event}
    (made : Event.ofObservation o stage = .ok e) : e.MadeOf o stage := by
  simp only [ofObservation] at made
  split at made
  · cases made
  · next engine known =>
      split at made
      · cases made
      · next name named =>
          split at made
          · cases made
          · next sound =>
              cases made
              have same := Detail.engine_ofObservation o engine
              obtain ⟨told, notBlank⟩ := Option.filter_eq_some_iff.1 named
              rw [Bool.not_eq_true'] at notBlank
              exact ⟨known.trans (congrArg some same.symm), told, notBlank, sound, rfl, rfl, rfl,
                congrArg (Detail.ofObservation o) same.symm⟩

/-- An observation makes an event of an action exactly when it tells what that needs. -/
theorem Event.ofObservation_ok_iff (o : Observation) (stage action : String) :
    (∃ e, Event.ofObservation o stage = .ok e ∧ e.name = action) ↔ o.Tells action := by
  constructor
  · rintro ⟨e, made, rfl⟩
    have kept := madeOf made
    refine ⟨?_, kept.name, kept.notBlank, (Timings.fault?_eq_none_iff _).1 kept.sound⟩
    rw [kept.engine]
    exact Option.some_ne_none _
  · rintro ⟨engine, name, notBlank, timings⟩
    obtain ⟨engine, known⟩ := Option.ne_none_iff_exists'.1 engine
    have named : o.name.filter (fun n => !Text.isBlankText n) = some action := by
      rw [name, Option.filter_some, notBlank]
      rfl
    have sound := (Timings.fault?_eq_none_iff _).2 timings
    rw [Event.ofObservation, known, named, sound]
    exact ⟨_, rfl, rfl⟩

namespace Tally

/-- The tally of another action refuses an event, and nothing else does. -/
theorem ingest_ok_iff (t : Tally) (e : Event) :
    (∃ t', t.ingest e = .ok t') ↔ e.name = t.name := by
  unfold Tally.ingest
  split <;> simp [*]

theorem add_ok_iff (t : Tally) (o : Observation) (stage : String) :
    (∃ t', t.add o stage = .ok t') ↔ o.Tells t.name := by
  rw [← Event.ofObservation_ok_iff o stage, Tally.add]
  cases made : Event.ofObservation o stage with
  | error e =>
      constructor
      · rintro ⟨t', refused⟩
        cases refused
      · rintro ⟨e', made', -⟩
        cases made'
  | ok e =>
      refine (ingest_ok_iff t e).trans ⟨fun same => ⟨e, rfl, same⟩, ?_⟩
      rintro ⟨e', made', same⟩
      cases made'
      exact same

end Tally

end BenchReport
