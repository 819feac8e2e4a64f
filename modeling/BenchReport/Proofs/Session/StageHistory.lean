import BenchReport.Proofs.Acceptance
import BenchReport.Proofs.Outcome
import BenchReport.Proofs.Tally.History
import BenchReport.Session.StageTally
set_option autoImplicit false

namespace BenchReport

/-- The events of a stage's observations, one for each, in the same order. -/
def Normalised (stage : String) : List Observation → List Event → Prop :=
  List.Forall₂ fun o e => Event.ofObservation o stage = .ok e

theorem Normalised.stage {stage : String} {os : List Observation} {es : List Event}
    (normalised : Normalised stage os es) {e : Event} (mem : e ∈ es) : e.stage = stage := by
  obtain ⟨o, -, made⟩ := Outcome.exists_of_mem normalised mem
  exact (Event.madeOf made).stage

def eventsOf (action : String) (h : List Event) : List Event := h.filter fun e => e.name = action

theorem eventsOf_append (action : String) (h k : List Event) :
    eventsOf action (h ++ k) = eventsOf action h ++ eventsOf action k :=
  List.filter_append ..

theorem length_eventsOf_le (action : String) (h : List Event) :
    (eventsOf action h).length ≤ h.length :=
  List.length_filter_le ..

/-- Events sorted into the actions of a list, which has all of theirs, are the same events. -/
theorem flatMap_eventsOf_perm (actions : List String) (h : List Event) (distinct : actions.Nodup)
    (covered : ∀ e ∈ h, e.name ∈ actions) :
    (actions.flatMap fun action => eventsOf action h).Perm h := by
  induction actions generalizing h with
  | nil =>
      have none : h = [] := List.eq_nil_iff_forall_not_mem.2 fun e mem => nomatch covered e mem
      rw [none]
      exact .nil
  | cons action rest ih =>
      obtain ⟨fresh, distinct_rest⟩ := List.nodup_cons.1 distinct
      rw [List.flatMap_cons]
      refine List.Perm.trans (List.Perm.append_left _ ?_)
        (List.filter_append_perm (fun e => e.name = action) h)
      refine List.Perm.trans (List.Perm.of_eq ?_) (ih (h.filter fun e => !decide (e.name = action))
        distinct_rest ?_)
      · -- what another action was given does not have this name
        refine List.flatMap_congr fun other mem => ?_
        rw [eventsOf, eventsOf, List.filter_filter]
        refine List.filter_congr fun e _ => ?_
        by_cases same : e.name = other
        · have differs : other ≠ action := fun eq => fresh (eq ▸ mem)
          simp [same, differs]
        · simp [same]
      · intro e mem
        obtain ⟨mem, differs⟩ := List.mem_filter.1 mem
        exact (List.mem_cons.1 (covered e mem)).resolve_left (by simpa using differs)

def ActionMetrics.written (t : Tally) (rate : Float) (custom : Table String CustomMetric) :
    ActionMetrics where
  name := t.name
  source := t.source
  stage := t.stage
  counts := ⟨t.total, t.succeeded, t.failed, rate⟩
  phases := PerPhase.ofFn fun p =>
    some ⟨p, ((t.summaries.get p).getD .zero).sanitized, customOf custom p⟩
  custom
  errors := t.errors.entries.map fun e => ⟨e.1, e.2⟩
  tags := t.tags.tags
  quantiles := Stats.levelNames

namespace ActionMetrics

/-- Metrics are made of a tally as soon as the stage has a rate and the custom metrics are sound. -/
theorem ofTally_ok_iff {t : Tally} {elapsed : Float} {declared : List CustomMetric}
    {m : ActionMetrics} :
    ofTally t elapsed declared = .ok m ↔
      ∃ rate custom, actionsPerSecond t.total elapsed = .ok rate ∧
        collectCustom declared = .ok custom ∧
        m = written t rate (Table.ofList custom) := by
  constructor
  · intro made
    obtain ⟨rate, rated, made⟩ := Outcome.bind_ok made
    obtain ⟨custom, collected, made⟩ := Outcome.bind_ok made
    exact ⟨rate, custom, rated, collected, (Except.ok.inj made).symm⟩
  · rintro ⟨rate, custom, rated, collected, rfl⟩
    rw [ofTally, rated, collected]
    rfl

/-- Every phase has its row. -/
theorem phaseRows_written (t : Tally) (rate : Float) (custom : Table String CustomMetric) :
    (written t rate custom).phaseRows = Phase.all.map fun p =>
      ⟨t.name, t.stage, p.name, ((t.summaries.get p).getD .zero).sanitized, customOf custom p⟩ :=
  rfl

end ActionMetrics

namespace StageTally

/-- The tallies hold the events of a list, each in the tally of its action. -/
def Holds (s : StageTally) (h : List Event) : Prop :=
  ∀ action, (s.tallyOf action).name = action ∧ (s.tallyOf action).Counted (eventsOf action h)

def count (s : StageTally) (e : Event) : StageTally :=
  { s with tallies := s.tallies.insert e.name ((s.tallyOf e.name).count e) }

theorem holds_empty (stage : String) : Holds (empty stage) [] :=
  fun action => ⟨rfl, Tally.counted_empty action stage⟩

section Steps

variable {s s' u : StageTally} {h k : List Event} {o : Observation} {e : Event}

theorem tallyOf_insert_self (s : StageTally) (action : String) (t : Tally) :
    tallyOf { s with tallies := s.tallies.insert action t } action = t := by
  rw [tallyOf, Table.insert, Table.get?_alter_self, Option.getD_some]

theorem tallyOf_insert_of_ne (s : StageTally) {action other : String} (t : Tally)
    (differs : other ≠ action) :
    tallyOf { s with tallies := s.tallies.insert action t } other = s.tallyOf other := by
  rw [tallyOf, Table.insert, Table.get?_alter_of_ne _ _ differs]
  rfl

/-- An observation that is taken is made an event, which the tally of its action counts. -/
theorem Holds.ingest_count (holds : Holds s h) (taken : s.ingest o = .ok s') :
    ∃ e, Event.ofObservation o s.stage = .ok e ∧ s' = s.count e := by
  obtain ⟨e, made, taken⟩ := Outcome.bind_ok taken
  obtain ⟨t, counted, taken⟩ := Outcome.bind_ok taken
  cases taken
  have right_name : e.name = (s.tallyOf e.name).name := (holds e.name).1.symm
  rw [Tally.ingest, if_pos right_name] at counted
  cases counted
  exact ⟨e, made, rfl⟩

theorem eventsOf_self (e : Event) : eventsOf e.name [e] = [e] := by simp [eventsOf]

theorem eventsOf_of_ne {action : String} (differs : action ≠ e.name) :
    eventsOf action [e] = [] := by simp [eventsOf, Ne.symm differs]

theorem Holds.count (holds : Holds s h) (e : Event) : Holds (s.count e) (h ++ [e]) := by
  intro action
  rw [eventsOf_append]
  by_cases same : action = e.name
  · subst same
    rw [StageTally.count, tallyOf_insert_self, eventsOf_self]
    exact ⟨(holds e.name).1, (holds e.name).2.count⟩
  · rw [StageTally.count, tallyOf_insert_of_ne s _ same, eventsOf_of_ne same, List.append_nil]
    exact holds action

/-- Observations that are all taken are made events, which are counted one after another. -/
theorem Holds.ingestAll (holds : Holds s h) (os : List Observation)
    (taken : os.foldlM StageTally.ingest s = .ok s') :
    ∃ es, Normalised s.stage os es ∧ s' = es.foldl StageTally.count s ∧ Holds s' (h ++ es) := by
  induction os generalizing s h with
  | nil =>
      cases taken
      exact ⟨[], .nil, rfl, by rwa [List.append_nil]⟩
  | cons o rest ih =>
      rw [List.foldlM_cons] at taken
      obtain ⟨next, first, later⟩ := Outcome.bind_ok taken
      obtain ⟨e, made, rfl⟩ := holds.ingest_count first
      obtain ⟨es, normalised, counted, holds'⟩ := ih (holds.count e) later
      rw [List.append_assoc, List.singleton_append] at holds'
      exact ⟨e :: es, .cons made normalised, counted, holds'⟩

theorem Holds.freeze (holds : Holds s h) : Holds s.freeze h := by
  intro action
  have before := holds action
  rw [tallyOf] at before ⊢
  rw [StageTally.freeze, Table.get?_map]
  cases bound : s.tallies.get? action with
  | none =>
      rw [bound] at before
      exact before
  | some t =>
      rw [bound] at before
      exact ⟨before.1, before.2.freeze⟩

theorem Holds.addTags (holds : Holds s h) (action : String) (tags : List Tag) :
    Holds (s.addTags action tags) h := by
  intro other
  simp only [StageTally.addTags, Table.modify]
  cases bound : s.tallies.get? action with
  | none => exact holds other
  | some t =>
      by_cases same : other = action
      · subst same
        rw [tallyOf_insert_self]
        have before := holds other
        rw [tallyOf, bound] at before
        exact ⟨before.1, before.2.addTags tags⟩
      · rw [tallyOf_insert_of_ne s _ same]
        exact holds other

/-- An action that has no tally was handed no event. -/
theorem Holds.eventsOf_eq_nil (holds : Holds s h) {action : String}
    (missing : s.tallies.get? action = none) : eventsOf action h = [] := by
  have events := (holds action).2.events
  rw [tallyOf, missing] at events
  exact events.symm

theorem get?_merge (s u : StageTally) (action : String) :
    (s.merge u).tallies.get? action =
      (u.tallies.get? action).elim (s.tallies.get? action) fun theirs =>
        some ((s.tallies.get? action).elim theirs fun ours => ours.merge theirs) := by
  have folded : (s.merge u).tallies =
      u.tallies.entries.foldl
        (fun tallies e => tallies.alter e.1 fun ours => ours.elim e.2 fun t => t.merge e.2)
        s.tallies := by
    refine congrArg (fun f => List.foldl f s.tallies u.tallies.entries) ?_
    funext tallies e
    refine congrArg (tallies.alter e.1) ?_
    funext ours
    cases ours <;> rfl
  rw [folded]
  exact Table.get?_foldl_alter (fun theirs ours => ours.elim theirs fun t => t.merge theirs) _ _ _
    u.tallies.nodup_keys

theorem Holds.merge (s_holds : Holds s h) (u_holds : Holds u k)
    (fits : (h ++ k).length < 2 ^ 64) : Holds (s.merge u) (h ++ k) := by
  intro action
  have of_s := s_holds action
  have of_u := u_holds action
  have fits_action : (eventsOf action h ++ eventsOf action k).length < 2 ^ 64 := by
    rw [← eventsOf_append]
    exact Nat.lt_of_le_of_lt (length_eventsOf_le action _) fits
  have bound := get?_merge s u action
  rw [eventsOf_append]
  rw [tallyOf] at of_s of_u ⊢
  rw [bound]
  cases in_u : u.tallies.get? action with
  | none =>
      rw [u_holds.eventsOf_eq_nil in_u, List.append_nil]
      exact of_s
  | some theirs =>
      rw [in_u] at of_u
      cases in_s : s.tallies.get? action with
      | none =>
          rw [s_holds.eventsOf_eq_nil in_s, List.nil_append]
          exact of_u
      | some ours =>
          rw [in_s] at of_s
          exact ⟨(ours.merge_name theirs).trans of_s.1, of_s.2.merge of_u.2 fits_action⟩

/-- An action with an event is one of those that have a tally. -/
theorem Holds.mem_keys (holds : Holds s h) {e : Event} (mem : e ∈ h) : e.name ∈ s.tallies.keys := by
  apply Decidable.byContradiction
  intro unknown
  have none := holds.eventsOf_eq_nil ((Table.get?_eq_none_iff _ _).2 unknown)
  have own : e ∈ eventsOf e.name h := List.mem_filter.2 ⟨mem, decide_eq_true rfl⟩
  rw [none] at own
  cases own

/-- The tallies of a stage together hold each event once. -/
theorem Holds.entries_perm (holds : Holds s h) :
    (s.tallies.entries.flatMap fun e => eventsOf e.1 h).Perm h := by
  have sorted := flatMap_eventsOf_perm s.tallies.keys h s.tallies.nodup_keys
    fun _ mem => holds.mem_keys mem
  rw [Table.keys, List.flatMap_map] at sorted
  exact sorted

theorem Holds.entry (holds : Holds s h) {action : String} {t : Tally}
    (mem : (action, t) ∈ s.tallies.entries) : t.Counted (eventsOf action h) := by
  have counted := (holds action).2
  rw [tallyOf, (Table.mem_entries_iff _ _ _).1 mem] at counted
  exact counted

end Steps

def totalOf (actions : List ActionMetrics) : Nat :=
  (actions.map fun a => a.counts.total.toNat).sum

/-- A part holds the metrics of a tally with its quantiles taken anew. -/
theorem part_ok_iff {t : Tally} {elapsed : Float} {declared : List CustomMetric}
    {p : ActionMetrics × List Event} :
    part t elapsed declared = .ok p ↔
      ∃ rate custom, actionsPerSecond t.total elapsed = .ok rate ∧
        ActionMetrics.collectCustom declared = .ok custom ∧
        p = (ActionMetrics.written t.takeQuantiles rate (Table.ofList custom), t.events) := by
  constructor
  · intro made
    obtain ⟨m, figured, made⟩ := Outcome.bind_ok made
    obtain ⟨rate, custom, rated, collected, rfl⟩ := ActionMetrics.ofTally_ok_iff.1 figured
    exact ⟨rate, custom, rated, collected, (Except.ok.inj made).symm⟩
  · rintro ⟨rate, custom, rated, collected, rfl⟩
    have figured : ActionMetrics.ofTally t.takeQuantiles elapsed declared = .ok _ :=
      ActionMetrics.ofTally_ok_iff.2 ⟨rate, custom, rated, collected, rfl⟩
    rw [part, figured]
    rfl

theorem part_ok {t : Tally} {elapsed : Float} {custom : List CustomMetric}
    {p : ActionMetrics × List Event} (made : part t elapsed custom = .ok p) :
    p.1.counts.total = t.total ∧ p.2 = t.events := by
  obtain ⟨rate, declared, -, -, rfl⟩ := part_ok_iff.1 made
  exact ⟨rfl, rfl⟩

/-- The metrics of an action are written of a tally that is bound. -/
theorem exists_of_mem_parts {s : StageTally} {elapsed : Float} {declared : List CustomMetric}
    {actions : List ActionMetrics} {events : List Event}
    (made : s.parts elapsed declared = .ok (actions, events)) {m : ActionMetrics}
    (mem : m ∈ actions) :
    ∃ action t rate custom, s.tallies.get? action = some t ∧
      m = ActionMetrics.written t.takeQuantiles rate custom := by
  obtain ⟨parts, each, made⟩ := Outcome.bind_ok made
  cases made
  obtain ⟨p, listed, rfl⟩ := List.mem_map.1 mem
  obtain ⟨t, value, made⟩ := Outcome.exists_of_mem (Outcome.mapM_ok_iff.1 each) listed
  obtain ⟨⟨action, _⟩, entry, rfl⟩ := List.mem_map.1 value
  obtain ⟨rate, custom, -, -, rfl⟩ := part_ok_iff.1 made
  exact ⟨action, _, rate, Table.ofList custom, (Table.mem_entries_iff _ _ _).1 entry, rfl⟩

theorem parts_of_entries {h : List Event} {elapsed : Float} {custom : List CustomMetric}
    {entries : List (String × Tally)} {parts : List (ActionMetrics × List Event)}
    (fits : h.length < 2 ^ 64) (counted : ∀ e ∈ entries, e.2.Counted (eventsOf e.1 h))
    (made : List.Forall₂ (fun t p => part t elapsed custom = .ok p) (entries.map (·.2)) parts) :
    parts.flatMap (·.2) = entries.flatMap (fun e => eventsOf e.1 h) ∧
      totalOf (parts.map (·.1)) = (entries.flatMap fun e => eventsOf e.1 h).length := by
  induction entries generalizing parts with
  | nil =>
      cases made
      exact ⟨rfl, rfl⟩
  | cons e rest ih =>
      cases made with
      | cons first later =>
          obtain ⟨total, events⟩ := part_ok first
          obtain ⟨events_rest, total_rest⟩ :=
            ih (fun e' mem => counted e' (List.mem_cons_of_mem _ mem)) later
          have own := counted e List.mem_cons_self
          have bounded := Nat.lt_of_le_of_lt (length_eventsOf_le e.1 h) fits
          have exact_total : (UInt64.ofNat (eventsOf e.1 h).length).toNat =
              (eventsOf e.1 h).length := UInt64.toNat_ofNat_of_lt bounded
          constructor
          · rw [List.flatMap_cons, List.flatMap_cons, events, own.events, events_rest]
          · rw [List.flatMap_cons, List.length_append, ← total_rest]
            simp only [totalOf, List.map_cons, List.sum_cons, total, own.total, exact_total]

/-- A report has each event once, and its totals are their number. -/
theorem Holds.parts {s : StageTally} {h : List Event} {elapsed : Float}
    {custom : List CustomMetric} {actions : List ActionMetrics} {events : List Event}
    (holds : Holds s h) (fits : h.length < 2 ^ 64)
    (made : s.parts elapsed custom = .ok (actions, events)) :
    events.Perm h ∧ totalOf actions = h.length := by
  obtain ⟨parts, each, made⟩ := Outcome.bind_ok made
  cases made
  obtain ⟨events_eq, total_eq⟩ :=
    parts_of_entries fits (fun e mem => holds.entry mem) (Outcome.mapM_ok_iff.1 each)
  rw [events_eq, total_eq]
  exact ⟨holds.entries_perm, holds.entries_perm.length_eq⟩

end StageTally

end BenchReport
