import BenchReport.Proofs.Session.Agreement
set_option autoImplicit false

namespace BenchReport

open Double (Positive)

namespace StageTally

/-- An action has a tally when it has events: their tags, in their stage. -/
def Keeps (s : StageTally) (h : List Event) : Prop :=
  ∀ action t, s.tallies.get? action = some t →
    t.stage = s.stage ∧ t.Tagged (eventsOf action h) ∧ eventsOf action h ≠ []

theorem keeps_empty (stage : String) : Keeps (empty stage) [] := by
  intro action t bound
  cases bound

section Steps

variable {s : StageTally} {h : List Event}

theorem Holds.tagged_tallyOf (holds : Holds s h) (keeps : Keeps s h) (action : String) :
    (s.tallyOf action).stage = s.stage ∧ (s.tallyOf action).Tagged (eventsOf action h) := by
  rw [tallyOf]
  cases bound : s.tallies.get? action with
  | none =>
      rw [holds.eventsOf_eq_nil bound]
      exact ⟨rfl, Tally.tagged_empty action s.stage⟩
  | some t => exact ⟨(keeps action t bound).1, (keeps action t bound).2.1⟩

theorem Keeps.count (holds : Holds s h) (keeps : Keeps s h) (e : Event) :
    Keeps (s.count e) (h ++ [e]) := by
  intro action t bound
  rw [eventsOf_append]
  by_cases same : action = e.name
  · subst same
    rw [StageTally.count, Table.insert, Table.get?_alter_self] at bound
    cases bound
    obtain ⟨stage, tagged⟩ := holds.tagged_tallyOf keeps e.name
    rw [eventsOf_self]
    exact ⟨stage, tagged.count, List.append_ne_nil_of_right_ne_nil _ (List.cons_ne_nil _ _)⟩
  · rw [StageTally.count, Table.insert, Table.get?_alter_of_ne _ _ same] at bound
    rw [eventsOf_of_ne same, List.append_nil]
    exact keeps action t bound

theorem Keeps.countAll (holds : Holds s h) (keeps : Keeps s h) (es : List Event) :
    (es.foldl StageTally.count s).stage = s.stage ∧
      Keeps (es.foldl StageTally.count s) (h ++ es) := by
  induction es generalizing s h with
  | nil =>
      rw [List.append_nil]
      exact ⟨rfl, keeps⟩
  | cons e rest ih =>
      rw [← List.singleton_append, ← List.append_assoc]
      exact ih (holds.count e) (keeps.count holds e)

end Steps

/-- What a worker hands over of its events, or what comes of merging such: frozen tallies, one for
each action that has events. -/
structure Complete (stage : String) (s : StageTally) (h : List Event) : Prop where
  stage : s.stage = stage
  holds : Holds s h
  keeps : Keeps s h
  frozen : ∀ action t, s.tallies.get? action = some t → t.Frozen
  accepted : ∀ e ∈ h, e.Accepted

theorem complete_empty (stage : String) : Complete stage (empty stage) [] where
  stage := rfl
  holds := holds_empty stage
  keeps := keeps_empty stage
  frozen _ _ bound := nomatch bound
  accepted _ mem := nomatch mem

section Merges

variable {stage : String} {s u : StageTally} {h k : List Event}

theorem complete_freeze (holds : Holds s h) (keeps : Keeps s h)
    (accepted : ∀ e ∈ h, e.Accepted) : Complete s.stage s.freeze h where
  stage := rfl
  holds := holds.freeze
  keeps action t bound := by
    rw [StageTally.freeze, Table.get?_map] at bound
    obtain ⟨before, held, rfl⟩ := Option.map_eq_some_iff.1 bound
    exact keeps action before held
  frozen action t bound := by
    rw [StageTally.freeze, Table.get?_map] at bound
    obtain ⟨before, -, rfl⟩ := Option.map_eq_some_iff.1 bound
    exact before.frozen_takeMoments.takeQuantiles
  accepted := accepted

theorem Complete.counted (complete : Complete stage s h) {action : String} {t : Tally}
    (bound : s.tallies.get? action = some t) :
    t.name = action ∧ t.Counted (eventsOf action h) := by
  have own := complete.holds action
  rw [tallyOf, bound] at own
  exact own

/-- Samples of an action are positive, since its events were accepted. -/
theorem Complete.positive (s_complete : Complete stage s h) (u_complete : Complete stage u k)
    {action : String} {ours theirs : Tally} (in_s : s.tallies.get? action = some ours)
    (in_u : u.tallies.get? action = some theirs) (p : Phase) :
    ∀ x ∈ ours.samples p ++ theirs.samples p, Positive x := by
  have accepted : ∀ e ∈ eventsOf action h ++ eventsOf action k, e.Accepted := by
    intro e mem
    rcases List.mem_append.1 mem with mem | mem
    · exact s_complete.accepted e (List.mem_filter.1 mem).1
    · exact u_complete.accepted e (List.mem_filter.1 mem).1
  rw [(s_complete.counted in_s).2.samples, (u_complete.counted in_u).2.samples,
    ← Tally.sampled_append]
  exact Event.sampled_positive accepted p

theorem merge_stage (t u : Tally) : (t.merge u).stage = t.stage := by
  rcases Tally.merge_cases t u with ⟨-, merged⟩ | ⟨-, merged⟩ | merged <;> rw [merged]
  rfl

theorem Complete.merge (s_complete : Complete stage s h) (u_complete : Complete stage u k)
    (fits : (h ++ k).length < 2 ^ 64) : Complete stage (s.merge u) (h ++ k) where
  stage := s_complete.stage
  holds := s_complete.holds.merge u_complete.holds fits
  keeps action t bound := by
    rw [get?_merge] at bound
    rw [eventsOf_append]
    change t.stage = s.stage ∧ _
    cases in_u : u.tallies.get? action with
    | none =>
        rw [in_u] at bound
        rw [u_complete.holds.eventsOf_eq_nil in_u, List.append_nil]
        exact s_complete.keeps action t bound
    | some theirs =>
        have of_u := u_complete.keeps action theirs in_u
        rw [in_u] at bound
        cases in_s : s.tallies.get? action with
        | none =>
            rw [in_s] at bound
            cases bound
            rw [s_complete.holds.eventsOf_eq_nil in_s, List.nil_append, s_complete.stage,
              ← u_complete.stage]
            exact of_u
        | some ours =>
            have of_s := s_complete.keeps action ours in_s
            rw [in_s] at bound
            cases bound
            have fits_action : (eventsOf action h ++ eventsOf action k).length < 2 ^ 64 := by
              rw [← eventsOf_append]
              exact Nat.lt_of_le_of_lt (length_eventsOf_le action _) fits
            exact ⟨(merge_stage ours theirs).trans of_s.1,
              of_s.2.1.merge (s_complete.counted in_s).2 (u_complete.counted in_u).2 of_u.2.1
                fits_action,
              List.append_ne_nil_of_left_ne_nil of_s.2.2 _⟩
  frozen action t bound := by
    rw [get?_merge] at bound
    cases in_u : u.tallies.get? action with
    | none =>
        rw [in_u] at bound
        exact s_complete.frozen action t bound
    | some theirs =>
        rw [in_u] at bound
        cases in_s : s.tallies.get? action with
        | none =>
            rw [in_s] at bound
            cases bound
            exact u_complete.frozen action theirs in_u
        | some ours =>
            rw [in_s] at bound
            cases bound
            exact (s_complete.frozen action ours in_s).merge (u_complete.frozen action theirs in_u)
              (s_complete.positive u_complete in_s in_u)
  accepted e mem := (List.mem_append.1 mem).elim (s_complete.accepted e) (u_complete.accepted e)

theorem Complete.bound_iff (complete : Complete stage s h) (action : String) :
    s.tallies.get? action = none ↔ eventsOf action h = [] := by
  constructor
  · exact complete.holds.eventsOf_eq_nil
  · intro none
    cases bound : s.tallies.get? action with
    | none => rfl
    | some t => exact absurd none (complete.keeps action t bound).2.2

/-- Complete tallies of the same events in different orders agree, action by action. -/
theorem Complete.alike (s_complete : Complete stage s h) (u_complete : Complete stage u k)
    (perm : h.Perm k) (action : String) :
    Option.Rel Tally.Alike (s.tallies.get? action) (u.tallies.get? action) := by
  have perm_action : (eventsOf action h).Perm (eventsOf action k) := perm.filter _
  cases in_s : s.tallies.get? action with
  | none =>
      have none := perm_action.symm
      rw [(s_complete.bound_iff action).1 in_s] at none
      rw [(u_complete.bound_iff action).2 none.eq_nil]
      exact .none
  | some t =>
      obtain ⟨t_stage, t_tagged, some⟩ := s_complete.keeps action t in_s
      cases in_u : u.tallies.get? action with
      | none =>
          have none := perm_action
          rw [(u_complete.bound_iff action).1 in_u] at none
          exact absurd none.eq_nil some
      | some t' =>
          obtain ⟨u_stage, u_tagged, -⟩ := u_complete.keeps action t' in_u
          obtain ⟨t_name, t_counted⟩ := s_complete.counted in_s
          obtain ⟨u_name, u_counted⟩ := u_complete.counted in_u
          refine .some ⟨Tally.agrees_of_perm perm_action (t_name.trans u_name.symm) t_counted
            u_counted t_tagged u_tagged (s_complete.frozen action t in_s)
            (u_complete.frozen action t' in_u), ?_⟩
          rw [t_stage, u_stage, s_complete.stage, u_complete.stage]

end Merges

end StageTally

namespace StageBlock

open StageTally (Complete)

/-- What the workers of a stage hand over, with the events of each. -/
theorem works_complete {stage : String} {workers : List WorkerOutput}
    {parts : List (StageTally × StreamSeries)}
    (each : List.Forall₂ (Works stage) workers parts) :
    ∃ histories, List.Forall₂ (fun p h => Complete stage p.1 h) parts histories ∧
      Normalised stage (resultsOf workers) histories.flatten := by
  induction each with
  | nil => exact ⟨[], .nil, .nil⟩
  | @cons w p _ _ works _ ih =>
      obtain ⟨histories, complete, normalised_rest⟩ := ih
      obtain ⟨s, ingested, tallied⟩ := Outcome.map_ok works.1
      obtain ⟨es, normalised, rfl, holds⟩ := (StageTally.holds_empty stage).ingestAll _ ingested
      obtain ⟨stage_eq, keeps⟩ :=
        (StageTally.keeps_empty stage).countAll (StageTally.holds_empty stage) es
      rw [List.nil_append] at holds keeps
      have accepted : ∀ e ∈ es, e.Accepted := by
        intro e mem
        obtain ⟨o, -, made⟩ := Outcome.exists_of_mem normalised mem
        exact ⟨o, _, made⟩
      have first := StageTally.complete_freeze holds keeps accepted
      rw [stage_eq, tallied] at first
      exact ⟨es :: histories, .cons first complete, Outcome.append_ok normalised normalised_rest⟩

theorem foldl_merge_complete {stage : String} {parts : List (StageTally × StreamSeries)}
    {histories : List (List Event)} {s : StageTally} {h : List Event} (before : Complete stage s h)
    (each : List.Forall₂ (fun p h => Complete stage p.1 h) parts histories)
    (fits : (h ++ histories.flatten).length < 2 ^ 64) :
    Complete stage ((parts.map (·.1)).foldl StageTally.merge s) (h ++ histories.flatten) := by
  induction each generalizing s h with
  | nil =>
      rw [List.flatten_nil, List.append_nil]
      exact before
  | @cons p k _ histories first _ ih =>
      rw [List.flatten_cons, ← List.append_assoc] at fits ⊢
      have front : (h ++ k).length < 2 ^ 64 := by
        rw [List.length_append] at fits
        omega
      exact ih (before.merge first front) fits

/-- The tallies of all workers merged are complete for the events of all their results. -/
theorem tallyAll_complete {stage : String} {workers : List WorkerOutput}
    {parts : List (StageTally × StreamSeries)} (each : List.Forall₂ (Works stage) workers parts)
    (fits : (resultsOf workers).length < 2 ^ 64) :
    ∃ h, Normalised stage (resultsOf workers) h ∧ Complete stage (tallyAll stage parts) h := by
  obtain ⟨histories, complete, normalised⟩ := works_complete each
  have length : (resultsOf workers).length = histories.flatten.length := normalised.length_eq
  have whole := foldl_merge_complete (StageTally.complete_empty stage) complete (by
    rw [List.nil_append]
    omega)
  rw [List.nil_append] at whole
  exact ⟨histories.flatten, normalised, whole⟩

theorem tagged_alike {s u : StageTally}
    (alike : ∀ action, Option.Rel Tally.Alike (s.tallies.get? action) (u.tallies.get? action))
    (stored : List Action) (action : String) :
    Option.Rel Tally.Alike ((tagged s stored).tallies.get? action)
      ((tagged u stored).tallies.get? action) := by
  have own := alike action
  rw [get?_tagged, get?_tagged]
  generalize s.tallies.get? action = x, u.tallies.get? action = y at own ⊢
  cases own with
  | none => exact .none
  | some same => exact .some (same.addTags _)

/-- A stage comes to blocks that agree, whatever the order of its workers. -/
theorem ofStage_agrees {stage : String} {facts : StageFacts} {stored : List Action}
    {workers workers' : List WorkerOutput} {b : StageBlock} (perm : workers.Perm workers')
    (fits : (resultsOf workers).length < 2 ^ 64)
    (made : ofStage stage facts stored workers = .ok b) :
    ∃ b', ofStage stage facts stored workers' = .ok b' ∧ b.Agrees b' := by
  obtain ⟨parts, each, written, viewed, rfl, rfl, streams⟩ := ofStage_ok_iff.1 made
  -- Merging does not commute, so the parts are not compared with each other but with the events
  -- that they hold, and these are moved along with their workers.
  obtain ⟨parts', each', perm_parts⟩ := List.perm_comp_forall₂ perm.symm each
  obtain ⟨histories, complete, normalised⟩ := works_complete each
  have length := normalised.length_eq
  obtain ⟨histories', complete', perm_histories⟩ := List.perm_comp_forall₂ perm_parts complete
  have fits_all : histories.flatten.length < 2 ^ 64 := by omega
  have fits_all' : histories'.flatten.length < 2 ^ 64 := by
    rw [perm_histories.flatten.length_eq]
    exact fits_all
  have whole := foldl_merge_complete (StageTally.complete_empty b.stage) complete fits_all
  have whole' := foldl_merge_complete (StageTally.complete_empty b.stage) complete' fits_all'
  have alike := tagged_alike (whole.alike whole' perm_histories.symm.flatten) stored
  have values := List.forall₂_map_left_iff.2
    (List.forall₂_map_right_iff.2 ((Table.forall₂_entries alike).imp fun _ _ same => same.2))
  obtain ⟨actions', events', written', agree, perm_events⟩ :=
    StageTally.parts_agree values written
  have perm_streams : (seriesAll parts).Perm (seriesAll parts') :=
    (perm_parts.symm.map _).filter _
  obtain ⟨overview', viewed', overview_agrees⟩ :=
    StageOverview.ofStage_agrees agree perm_streams viewed
  refine ⟨⟨b.stage, b.facts, actions', events', seriesAll parts', overview'⟩,
    ofStage_ok_iff.2 ⟨parts', each', written', viewed', rfl, rfl, rfl⟩, rfl, rfl, agree,
    perm_events, ?_, overview_agrees⟩
  rw [streams]
  exact perm_streams

end StageBlock

end BenchReport
