import BenchReport.Proofs.Acceptance
import BenchReport.Proofs.Stats.Ordered
import BenchReport.Proofs.Tally.History
set_option autoImplicit false

namespace BenchReport

open Double (Positive)

namespace Event

/-- An event that was made of an observation. -/
def Accepted (e : Event) : Prop := ∃ o stage, Event.ofObservation o stage = .ok e

theorem Accepted.finite {e : Event} (accepted : Accepted e) (p : Phase) :
    (e.header.timings.get p).isFinite = true := by
  obtain ⟨o, stage, made⟩ := accepted
  have kept := madeOf made
  rw [kept.timings]
  exact ((Timings.fault?_eq_none_iff _).1 kept.sound p).1

theorem sampled_positive {h : List Event} (accepted : ∀ e ∈ h, Accepted e) (p : Phase) :
    ∀ x ∈ Tally.sampled p h, Positive x := by
  intro x mem
  obtain ⟨mem, above⟩ := List.mem_filter.1 mem
  obtain ⟨e, counted, rfl⟩ := List.mem_map.1 mem
  exact ⟨(accepted e counted).finite p, of_decide_eq_true above⟩

end Event

namespace Tally

/-- Every phase is summarised, and its extremes are those of its samples. -/
def Frozen (t : Tally) : Prop :=
  ∀ p, ∃ s, t.summaries.get p = some s ∧
    s.minimum = Stats.least (t.samples p) ∧ s.maximum = Stats.greatest (t.samples p)

theorem frozen_takeMoments (t : Tally) : Frozen t.takeMoments := by
  intro p
  exact ⟨_, PerPhase.get_ofFn _ p, rfl, rfl⟩

theorem Frozen.takeQuantiles {t : Tally} (frozen : Frozen t) : Frozen t.takeQuantiles := by
  intro p
  obtain ⟨s, summarised, minimum, maximum⟩ := frozen p
  refine ⟨s.withQuantiles (t.samples p), ?_, minimum, maximum⟩
  simp only [Tally.takeQuantiles, PerPhase.get_ofFn, summarised, Option.getD_some]

/-- The quantiles are those of the samples, whatever was summarised before. -/
theorem takeQuantiles_quantiles {t : Tally} {p : Phase} {s : Summary Float}
    (summarised : t.takeQuantiles.summaries.get p = some s) :
    s.quantiles = (Summary.zero.withQuantiles (t.samples p)).quantiles := by
  simp only [Tally.takeQuantiles, PerPhase.get_ofFn, Option.some_inj] at summarised
  rw [← summarised]
  rfl

/-- A merge of figures keeps the extremes exact: a stand-in for missing figures never counts. -/
theorem Frozen.mergePhase {t u : Tally} (t_frozen : Frozen t) (u_frozen : Frozen u) (p : Phase)
    (positive : ∀ x ∈ t.samples p ++ u.samples p, Positive x) :
    ∃ s, (Tally.mergePhase t u p).1 = some s ∧
      s.minimum = Stats.least (t.samples p ++ u.samples p) ∧
      s.maximum = Stats.greatest (t.samples p ++ u.samples p) := by
  obtain ⟨ours, t_summarised, t_minimum, t_maximum⟩ := t_frozen p
  obtain ⟨theirs, u_summarised, u_minimum, u_maximum⟩ := u_frozen p
  simp only [Tally.mergePhase, t_summarised, u_summarised]
  by_cases u_none : u.samples p = []
  · refine ⟨ours, ?_, ?_, ?_⟩
    · simp only [u_none, List.isEmpty_nil, ↓reduceIte]
    · rw [u_none, List.append_nil, t_minimum]
    · rw [u_none, List.append_nil, t_maximum]
  · have u_sampled : (u.samples p).isEmpty = false := by
      simpa only [Bool.eq_false_iff, ne_eq, List.isEmpty_iff] using u_none
    simp only [u_sampled, Bool.false_eq_true, ↓reduceIte]
    by_cases t_none : t.samples p = []
    · refine ⟨theirs, ?_, ?_, ?_⟩
      · simp only [t_none, List.isEmpty_nil, ↓reduceIte]
      · rw [t_none, List.nil_append, u_minimum]
      · rw [t_none, List.nil_append, u_maximum]
    · have t_sampled : (t.samples p).isEmpty = false := by
        simpa only [Bool.eq_false_iff, ne_eq, List.isEmpty_iff] using t_none
      refine ⟨combine (t.estimates.get p) ours theirs, ?_, ?_, ?_⟩
      · simp only [t_sampled, Bool.false_eq_true, ↓reduceIte]
      · rw [Stats.least_append t_none u_none positive, ← t_minimum, ← u_minimum]
        rfl
      · rw [Stats.greatest_append t_none u_none positive, ← t_maximum, ← u_maximum]
        rfl

theorem Frozen.merge {t u : Tally} (t_frozen : Frozen t) (u_frozen : Frozen u)
    (positive : ∀ p, ∀ x ∈ t.samples p ++ u.samples p, Positive x) :
    Frozen (t.merge u) := by
  rcases merge_cases t u with ⟨-, merged⟩ | ⟨-, merged⟩ | merged <;> rw [merged]
  · exact t_frozen
  · exact u_frozen
  · intro p
    rw [samples_joined]
    simp only [joined, PerPhase.get_ofFn]
    exact t_frozen.mergePhase u_frozen p (positive p)

theorem ingest_of_name {t : Tally} {e : Event} (same : e.name = t.name) :
    t.ingest e = .ok (t.count e) := if_pos same

/-- A worker's tally of events of its action. -/
theorem foldlM_ingest {t : Tally} {h : List Event} (counted : Counted t h) (tagged : Tagged t h)
    (results : List Event) (same : ∀ e ∈ results, e.name = t.name) :
    ∃ t', results.foldlM Tally.ingest t = .ok t' ∧ t'.name = t.name ∧
      Counted t' (h ++ results) ∧ Tagged t' (h ++ results) := by
  induction results generalizing t h with
  | nil =>
      rw [List.append_nil]
      exact ⟨t, rfl, rfl, counted, tagged⟩
  | cons e rest ih =>
      have first := ingest_of_name (same e List.mem_cons_self)
      obtain ⟨t', run, name, counted', tagged'⟩ := ih (t := t.count e) counted.count tagged.count
        fun e' mem => same e' (List.mem_cons_of_mem _ mem)
      rw [List.append_assoc, List.singleton_append] at counted' tagged'
      refine ⟨t', ?_, name, counted', tagged'⟩
      rw [List.foldlM_cons, first]
      exact run

end Tally

/-- A way of tallying an action: workers count events, each in its stage, and their tallies are
merged two by two. -/
inductive MergePlan where
  | worker (stage : String) (results : List Event)
  | merge (left right : MergePlan)

namespace MergePlan

def results : MergePlan → List Event
  | worker _ results => results
  | merge left right => left.results ++ right.results

/-- The merged tally. Each worker's tally is frozen once, before it is merged. -/
def run (action : String) : MergePlan → Except Error Tally
  | worker stage results => Tally.freeze <$> results.foldlM Tally.ingest (Tally.empty action stage)
  | merge left right => do
    let t ← left.run action
    let u ← right.run action
    return t.merge u

end MergePlan

namespace Tally

/-- The tallies are the same but for the order of samples and events, the names of stages and
sources, and central figures. -/
structure Agrees (t u : Tally) : Prop where
  name : t.name = u.name
  total : t.total = u.total
  succeeded : t.succeeded = u.succeeded
  failed : t.failed = u.failed
  errors : t.errors = u.errors
  tags : t.tags = u.tags
  samples (p : Phase) : (t.samples p).Perm (u.samples p)
  figures (p : Phase) : ∃ s s', t.summaries.get p = some s ∧ u.summaries.get p = some s' ∧
    s.minimum = s'.minimum ∧ s.maximum = s'.maximum ∧ s.quantiles = s'.quantiles
  events : t.events.Perm u.events

/-- Tallies of the same events in different orders agree once their quantiles are taken. -/
theorem agrees_of_perm {t u : Tally} {h k : List Event} (perm : h.Perm k)
    (name : t.name = u.name) (t_counted : Counted t h) (u_counted : Counted u k)
    (t_tagged : Tagged t h) (u_tagged : Tagged u k) (t_frozen : Frozen t) (u_frozen : Frozen u) :
    t.takeQuantiles.Agrees u.takeQuantiles where
  name := name
  total := t_counted.total.trans (by rw [perm.length_eq]; exact u_counted.total.symm)
  succeeded := t_counted.succeeded.trans (by rw [perm.countP_eq]; exact u_counted.succeeded.symm)
  failed := t_counted.failed.trans (by rw [perm.countP_eq]; exact u_counted.failed.symm)
  errors := by
    apply Table.ext_get?
    intro m
    exact (t_counted.errors m).trans (by rw [perm.countP_eq]; exact (u_counted.errors m).symm)
  tags := by
    apply TagSet.ext_tags
    intro tag
    refine (t_tagged tag).trans (Iff.trans ?_ (u_tagged tag).symm)
    exact (perm.flatMap_right _).mem_iff
  samples p := by
    change (t.samples p).Perm (u.samples p)
    rw [t_counted.samples, u_counted.samples]
    exact (perm.map _).filter _
  figures p := by
    have perm_samples : (t.samples p).Perm (u.samples p) := by
      rw [t_counted.samples, u_counted.samples]
      exact (perm.map _).filter _
    obtain ⟨s, t_summarised, t_minimum, t_maximum⟩ := t_frozen.takeQuantiles p
    obtain ⟨s', u_summarised, u_minimum, u_maximum⟩ := u_frozen.takeQuantiles p
    refine ⟨s, s', t_summarised, u_summarised, ?_, ?_, ?_⟩
    · rw [t_minimum, u_minimum]
      exact Stats.least_perm perm_samples
    · rw [t_maximum, u_maximum]
      exact Stats.greatest_perm perm_samples
    · rw [takeQuantiles_quantiles t_summarised, takeQuantiles_quantiles u_summarised]
      simp only [Summary.withQuantiles, Stats.ordered_perm perm_samples]
  events := by
    change t.events.Perm u.events
    rw [t_counted.events, u_counted.events]
    exact perm

end Tally

namespace MergePlan

/-- Every merge of frozen worker tallies is a frozen tally of the events of all workers. -/
theorem run_spec (plan : MergePlan) (action : String) (accepted : ∀ e ∈ plan.results, e.Accepted)
    (same : ∀ e ∈ plan.results, e.name = action) (fits : plan.results.length < 2 ^ 64) :
    ∃ t, plan.run action = .ok t ∧ t.name = action ∧ t.Counted plan.results ∧
      t.Tagged plan.results ∧ t.Frozen := by
  induction plan with
  | worker stage results =>
      obtain ⟨t, run, name, counted, tagged⟩ :=
        Tally.foldlM_ingest (Tally.counted_empty action stage) (Tally.tagged_empty action stage)
          results same
      refine ⟨t.freeze, ?_, name, counted.freeze, tagged, (t.frozen_takeMoments).takeQuantiles⟩
      rw [MergePlan.run, run]
      rfl
  | merge left right left_ih right_ih =>
      simp only [results, List.mem_append, List.length_append] at accepted same fits
      obtain ⟨t, left_run, t_name, t_counted, t_tagged, t_frozen⟩ :=
        left_ih (fun e mem => accepted e (.inl mem)) (fun e mem => same e (.inl mem)) (by omega)
      obtain ⟨u, right_run, u_name, u_counted, u_tagged, u_frozen⟩ :=
        right_ih (fun e mem => accepted e (.inr mem)) (fun e mem => same e (.inr mem)) (by omega)
      have both : (left.results ++ right.results).length < 2 ^ 64 := by
        rw [List.length_append]
        exact fits
      have positive (p : Phase) : ∀ x ∈ t.samples p ++ u.samples p, Positive x := by
        rw [t_counted.samples, u_counted.samples, ← Tally.sampled_append]
        exact Event.sampled_positive (fun e mem => accepted e (List.mem_append.1 mem)) p
      refine ⟨t.merge u, ?_, (t.merge_name u).trans t_name, t_counted.merge u_counted both,
        t_tagged.merge t_counted u_counted u_tagged both, t_frozen.merge u_frozen positive⟩
      rw [MergePlan.run, left_run, right_run]
      rfl

/-- Distributed tallies agree with the central one. However the results of an action are split over
workers, however their frozen tallies are merged: with its quantiles taken at last, the merged tally
agrees with the one tally that counted all results itself and was then frozen. A list in memory is
shorter than `2 ^ 64`. -/
theorem run_agrees (plan : MergePlan) (results : List Event) (action stage : String)
    (accepted : ∀ e ∈ results, e.Accepted) (same : ∀ e ∈ results, e.name = action)
    (split : plan.results.Perm results) (fits : results.length < 2 ^ 64) :
    ∃ merged whole, plan.run action = .ok merged ∧
      results.foldlM Tally.ingest (Tally.empty action stage) = .ok whole ∧
      merged.takeQuantiles.Agrees whole.freeze := by
  obtain ⟨merged, run, name, counted, tagged, frozen⟩ := plan.run_spec action
    (fun e mem => accepted e (split.mem_iff.1 mem)) (fun e mem => same e (split.mem_iff.1 mem))
    (by rw [split.length_eq]; exact fits)
  obtain ⟨whole, whole_run, whole_name, whole_counted, whole_tagged⟩ :=
    Tally.foldlM_ingest (Tally.counted_empty action stage) (Tally.tagged_empty action stage)
      results same
  rw [List.nil_append] at whole_counted whole_tagged
  refine ⟨merged, whole, run, whole_run, ?_⟩
  have whole_moments : whole.takeMoments.Counted results :=
    ⟨whole_counted.total, whole_counted.succeeded, whole_counted.failed, whole_counted.errors,
      whole_counted.timings, whole_counted.events⟩
  exact Tally.agrees_of_perm split (name.trans whole_name.symm) counted whole_moments tagged
    whole_tagged frozen whole.frozen_takeMoments

end MergePlan

def Observation.timed (name : String) (seconds : Float) (error : Option String) : Observation where
  eventId := none
  actionId := none
  name := some name
  shortName := none
  source := none
  engine := some (.request .http)
  error
  checks := []
  timings := { Timings.zero with total := seconds }
  tags := []
  timestamp := none
  url := none
  ipAddr := none
  method := none
  path := none
  params := none
  hostname := none
  status := none
  headers := Table.empty
  data := none
  command := none
  selector := none
  x := none
  y := none
  frame := none

/-- The worker in the middle saw nothing, and the slower result was counted first. -/
theorem MergePlan.run_agrees_idle_worker :
    ∃ fast slow, Event.ofObservation (.timed "login" 0.25 none) "ramp" = .ok fast ∧
      Event.ofObservation (.timed "login" 0.5 (some "timeout")) "ramp" = .ok slow ∧
      ∃ merged whole,
        (merge (worker "ramp" [slow]) (merge (worker "ramp" []) (worker "ramp" [fast]))).run
          "login" = .ok merged ∧
        [fast, slow].foldlM Tally.ingest (Tally.empty "login" "ramp") = .ok whole ∧
        merged.takeQuantiles.Agrees whole.freeze := by
  refine ⟨_, _, rfl, rfl, run_agrees _ [_, _] "login" "ramp" ?_ ?_ ?_ (by decide)⟩
  · intro e mem
    rcases List.mem_cons.1 mem with rfl | mem
    · exact ⟨.timed "login" 0.25 none, "ramp", rfl⟩
    · rcases List.mem_singleton.1 mem with rfl
      exact ⟨.timed "login" 0.5 (some "timeout"), "ramp", rfl⟩
  · intro e mem
    rcases List.mem_cons.1 mem with rfl | mem
    · rfl
    · rcases List.mem_singleton.1 mem with rfl
      rfl
  · exact List.Perm.swap _ _ []

end BenchReport
