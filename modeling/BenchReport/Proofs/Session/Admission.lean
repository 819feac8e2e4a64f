import BenchReport.Proofs.Session.Consistency
import BenchReport.Proofs.Session.Handover
import BenchReport.Proofs.Session.WorkerCounts
import BenchReport.Proofs.Stats.DoubleOrder
set_option autoImplicit false

namespace BenchReport

open Double (Positive)
open StageBlock (resultsOf seriesOf Works tallyAll seriesAll tagged)
open StageTally (Holds Complete)

theorem actionsPerSecond_ok (total : UInt64) {elapsed : Float} (positive : Positive elapsed) :
    ∃ rate, actionsPerSecond total elapsed = .ok rate := by
  have admitted := (Double.positive_iff elapsed).1 positive
  unfold actionsPerSecond
  rw [if_neg (by simp [admitted])]
  exact ⟨_, rfl⟩

theorem actionsPerSecond_error {total : UInt64} {elapsed : Float}
    (refused : ¬ Positive elapsed) : actionsPerSecond total elapsed = .error (.elapsed elapsed) := by
  have flawed := (Double.positive_iff elapsed).not.1 refused
  unfold actionsPerSecond
  rw [if_pos (by simpa only [Bool.not_eq_false] using flawed)]

namespace CustomMetric

inductive Flaw (m : CustomMetric) : Error → Prop where
  | blank (blank : Text.isBlankText m.name = true) : Flaw m .blankMetric
  | reserved (reserved : m.name ∈ reservedNames) : Flaw m (.reservedMetric m.name)

theorem validate_error {m : CustomMetric} {e : Error} (refused : m.validate = .error e) :
    m.Flaw e := by
  unfold validate at refused
  split at refused
  · rename_i blank
    cases refused
    exact .blank blank
  · split at refused
    · rename_i reserved
      cases refused
      exact .reserved (List.contains_iff_mem.1 reserved)
    · cases refused

theorem not_flaw_of_validate {m : CustomMetric} (admitted : m.validate = .ok ()) (e : Error) :
    ¬ m.Flaw e := by
  unfold validate at admitted
  intro flaw
  cases flaw with
  | blank blank =>
      rw [if_pos blank] at admitted
      cases admitted
  | reserved reserved =>
      rw [if_pos (List.contains_iff_mem.2 reserved)] at admitted
      split at admitted <;> cases admitted

end CustomMetric

namespace ActionMetrics

theorem collectCustom_error {declared : List CustomMetric} {e : Error}
    (refused : collectCustom declared = .error e) : ∃ m ∈ declared, m.Flaw e := by
  induction declared with
  | nil => cases refused
  | cons m rest ih =>
      rcases Outcome.bind_error refused with first | ⟨_, -, later⟩
      · exact ⟨m, List.mem_cons_self, CustomMetric.validate_error first⟩
      · rcases Outcome.bind_error later with later | ⟨_, -, last⟩
        · obtain ⟨m', mem, flaw⟩ := ih later
          exact ⟨m', List.mem_cons_of_mem _ mem, flaw⟩
        · cases last

theorem not_flaw_of_collectCustom {declared : List CustomMetric}
    {custom : List (String × CustomMetric)} (collected : collectCustom declared = .ok custom)
    {m : CustomMetric} (mem : m ∈ declared) (e : Error) : ¬ m.Flaw e := by
  induction declared generalizing custom with
  | nil => cases mem
  | cons m' rest ih =>
      obtain ⟨_, admitted, collected⟩ := Outcome.bind_ok collected
      obtain ⟨_, later, -⟩ := Outcome.bind_ok collected
      rcases List.mem_cons.1 mem with rfl | mem_rest
      · exact CustomMetric.not_flaw_of_validate admitted e
      · exact ih later mem_rest

end ActionMetrics

/-- Why a stage is refused, and the error that tells it. -/
inductive LoadedStage.Flaw (l : LoadedStage) : Error → Prop where
  /-- A result makes no event. -/
  | result {w : WorkerOutput} {o : Observation} {e : Error} (worker : w ∈ l.workers)
      (result : o ∈ w.results) (refused : Event.ofObservation o l.stage = .error e) : Flaw l e
  | interval {w : WorkerOutput} {b : StreamInterval} (worker : w ∈ l.workers)
      (interval : b ∈ w.streams) (refused : ¬ Positive b.elapsed) : Flaw l (.interval b.elapsed)
  /-- A stage with results needs a duration. -/
  | elapsed (some : resultsOf l.workers ≠ []) (refused : ¬ Positive l.facts.elapsed) :
      Flaw l (.elapsed l.facts.elapsed)
  | metric {m : CustomMetric} {e : Error} (some : resultsOf l.workers ≠ [])
      (declared : m ∈ l.facts.custom) (refused : m.Flaw e) : Flaw l e

/-- The workers of a stage report more than a counter holds. -/
def LoadedStage.Overflows (l : LoadedStage) : Prop :=
  ∃ c : StreamCount, 2 ^ 64 ≤ c.reported l.workers

namespace StageBlock

variable {stage : String} {workers : List WorkerOutput} {w : WorkerOutput} {e : Error}

theorem tallyOf_error (refused : tallyOf stage w = .error e) :
    ∃ o ∈ w.results, Event.ofObservation o stage = .error e := by
  obtain ⟨front, o, back, s, listed, before, refused⟩ :=
    Outcome.foldlM_error (Outcome.map_error refused)
  obtain ⟨es, -, counted, holds⟩ := (StageTally.holds_empty stage).ingestAll front before
  have same_stage : s.stage = stage := by
    rw [counted]
    exact (StageTally.keeps_empty stage |>.countAll (StageTally.holds_empty stage) es).1
  have mem : o ∈ w.results := by
    rw [listed]
    exact List.mem_append_right _ List.mem_cons_self
  rcases Outcome.bind_error refused with made | ⟨e', -, misrouted⟩
  · rw [same_stage] at made
    exact ⟨o, mem, made⟩
  · -- An event is only handed to the tally of its action.
    have right_name : e'.name = (s.tallyOf e'.name).name := (holds e'.name).1.symm
    rw [Tally.ingest, if_pos right_name] at misrouted
    cases misrouted

theorem seriesOf_error (refused : seriesOf w = .error e) :
    ∃ b ∈ w.streams, ¬ Positive b.elapsed ∧ e = .interval b.elapsed := by
  obtain ⟨front, b, back, s, listed, -, refused⟩ := Outcome.foldlM_error refused
  have mem : b ∈ w.streams := by
    rw [listed]
    exact List.mem_append_right _ List.mem_cons_self
  exact ⟨b, mem, StreamSeries.add_error refused⟩

theorem mergeWorkers_error (refused : mergeWorkers stage workers = .error e) :
    ∃ w ∈ workers, tallyOf stage w = .error e ∨ seriesOf w = .error e := by
  obtain ⟨front, w, back, _, listed, -, refused⟩ := Outcome.foldlM_error refused
  refine ⟨w, by rw [listed]; exact List.mem_append_right _ List.mem_cons_self, ?_⟩
  rcases Outcome.bind_error refused with tallied | ⟨_, -, refused⟩
  · exact .inl tallied
  · rcases Outcome.bind_error refused with streamed | ⟨_, -, last⟩
    · exact .inr streamed
    · cases last

theorem tagged_get?_eq_none_iff (s : StageTally) (stored : List Action) (action : String) :
    (tagged s stored).tallies.get? action = none ↔ s.tallies.get? action = none := by
  rw [get?_tagged, Option.map_eq_none_iff]

theorem merge_get?_eq_none_iff (s u : StageTally) (action : String) :
    (s.merge u).tallies.get? action = none ↔
      s.tallies.get? action = none ∧ u.tallies.get? action = none := by
  rw [StageTally.get?_merge]
  cases u.tallies.get? action with
  | none => exact (and_iff_left rfl).symm
  | some theirs => simp

theorem foldl_merge_get?_eq_none_iff (tallies : List StageTally) (s : StageTally)
    (action : String) :
    (tallies.foldl StageTally.merge s).tallies.get? action = none ↔
      s.tallies.get? action = none ∧ ∀ u ∈ tallies, u.tallies.get? action = none := by
  induction tallies generalizing s with
  | nil => exact (and_iff_left fun _ mem => nomatch mem).symm
  | cons u rest ih =>
      rw [List.foldl_cons, ih, merge_get?_eq_none_iff, List.forall_mem_cons, and_assoc]

/-- A result is in the tallies of its stage, however many there are. -/
theorem tagged_ne_empty {parts : List (StageTally × StreamSeries)}
    (each : List.Forall₂ (Works stage) workers parts) (stored : List Action)
    (some : resultsOf workers ≠ []) : (tagged (tallyAll stage parts) stored).isEmpty ≠ true := by
  intro nothing
  obtain ⟨o, mem⟩ := List.exists_mem_of_ne_nil _ some
  obtain ⟨w, worker, mem⟩ := List.mem_flatMap.1 mem
  obtain ⟨p, listed, works⟩ := Outcome.exists_of_mem each.flip worker
  obtain ⟨es, normalised, holds⟩ := tallyOf_ok works.1
  obtain ⟨e, counted, -⟩ := Outcome.exists_of_mem normalised.flip mem
  have missing := (tagged_get?_eq_none_iff _ stored e.name).1
    ((Table.isEmpty_iff _).1 nothing e.name)
  have none := holds.eventsOf_eq_nil
    (((foldl_merge_get?_eq_none_iff _ _ e.name).1 missing).2 p.1 (List.mem_map_of_mem listed))
  have own : e ∈ eventsOf e.name es := List.mem_filter.2 ⟨counted, decide_eq_true rfl⟩
  rw [none] at own
  cases own

/-- A stage has tallies when it has results. -/
theorem tagged_isEmpty_iff {parts : List (StageTally × StreamSeries)}
    (each : List.Forall₂ (Works stage) workers parts) (stored : List Action)
    (fits : (resultsOf workers).length < 2 ^ 64) :
    (tagged (tallyAll stage parts) stored).isEmpty = true ↔ resultsOf workers = [] := by
  constructor
  · intro nothing
    by_contra some
    exact tagged_ne_empty each stored some nothing
  · intro none
    obtain ⟨h, normalised, whole⟩ := tallyAll_complete each fits
    rw [none] at normalised
    cases normalised
    refine (Table.isEmpty_iff _).2 fun action => ?_
    exact (tagged_get?_eq_none_iff _ stored action).2 ((whole.bound_iff action).2 rfl)

end StageBlock

theorem StageTally.parts_error {s : StageTally} {elapsed : Float} {custom : List CustomMetric}
    {e : Error} (refused : s.parts elapsed custom = .error e) :
    (¬ Positive elapsed ∧ e = .elapsed elapsed) ∨ ∃ m ∈ custom, m.Flaw e := by
  rcases Outcome.bind_error refused with refused | ⟨_, -, last⟩
  · obtain ⟨t, -, refused⟩ := Outcome.mapM_error refused
    rcases Outcome.bind_error refused with figured | ⟨_, -, last⟩
    · rcases Outcome.bind_error figured with rated | ⟨_, -, refused⟩
      · by_cases positive : Positive elapsed
        · obtain ⟨rate, admitted⟩ := actionsPerSecond_ok t.takeQuantiles.total positive
          rw [admitted] at rated
          cases rated
        · rw [actionsPerSecond_error positive] at rated
          cases rated
          exact .inl ⟨positive, rfl⟩
      · rcases Outcome.bind_error refused with collected | ⟨_, -, last⟩
        · exact .inr (ActionMetrics.collectCustom_error collected)
        · cases last
    · cases last
  · cases last

/-- What is written out of tallies has a duration and admissible metrics. -/
theorem StageTally.parts_admits {s : StageTally} {elapsed : Float} {custom : List CustomMetric}
    {written : List ActionMetrics × List Event} (some : s.isEmpty ≠ true)
    (made : s.parts elapsed custom = .ok written) :
    Positive elapsed ∧ ∀ m ∈ custom, ∀ e, ¬ m.Flaw e := by
  obtain ⟨parts, each, -⟩ := Outcome.bind_ok made
  have each := Outcome.mapM_ok_iff.1 each
  cases entries : s.tallies.entries with
  | nil => exact absurd (List.isEmpty_iff.2 entries) some
  | cons entry rest =>
      rw [Table.values, entries, List.map_cons] at each
      obtain ⟨p, _, first, -, -⟩ := List.forall₂_cons_left_iff.1 each
      obtain ⟨rate, collected, rated, admitted, -⟩ := StageTally.part_ok_iff.1 first
      constructor
      · by_contra refused
        rw [actionsPerSecond_error refused] at rated
        cases rated
      · exact fun m mem e => ActionMetrics.not_flaw_of_collectCustom admitted mem e

namespace LoadedStage

variable {l : LoadedStage} {e : Error}

/-- A stage whose tallies are written out has no flaw, unless it has results that none of them
counts. -/
theorem not_flaw_of_parts {parts : List (StageTally × StreamSeries)}
    {written : List ActionMetrics × List Event}
    (each : List.Forall₂ (Works l.stage) l.workers parts)
    (made : (tagged (tallyAll l.stage parts) l.actions).parts l.facts.elapsed l.facts.custom =
      .ok written)
    (counted : resultsOf l.workers ≠ [] →
      (tagged (tallyAll l.stage parts) l.actions).isEmpty ≠ true) (e : Error) : ¬ l.Flaw e := by
  have works (w : WorkerOutput) (worker : w ∈ l.workers) : ∃ p, Works l.stage w p := by
    obtain ⟨p, -, works⟩ := Outcome.exists_of_mem each.flip worker
    exact ⟨p, works⟩
  have admits (some : resultsOf l.workers ≠ []) := StageTally.parts_admits (counted some) made
  intro flaw
  cases flaw with
  | @result w o _ worker mem refused =>
      obtain ⟨p, tallied, -⟩ := works w worker
      obtain ⟨es, normalised, -⟩ := StageBlock.tallyOf_ok tallied
      obtain ⟨ev, -, accepted⟩ := Outcome.exists_of_mem normalised.flip mem
      change Event.ofObservation o l.stage = .ok ev at accepted
      rw [accepted] at refused
      cases refused
  | @interval w b worker mem refused =>
      obtain ⟨p, -, streamed⟩ := works w worker
      exact refused (StreamSeries.positive_of_foldlM_add streamed b mem)
  | elapsed some refused => exact refused (admits some).1
  | @metric m _ some declared refused => exact (admits some).2 m declared e refused

/-- A stage that is refused has a flaw that the error tells, or its only fault is that its workers
report more than can be counted. -/
theorem block_error (fits : (resultsOf l.workers).length < 2 ^ 64)
    (short : ∀ w ∈ l.workers, w.streams.length < 2 ^ 64) (refused : l.block = .error e) :
    l.Flaw e ∨ e = .overflow ∧ l.Overflows ∧ ∀ e', ¬ l.Flaw e' := by
  unfold block at refused
  cases merged : StageBlock.mergeWorkers l.stage l.workers with
  | error e' =>
      rw [StageBlock.ofStage, merged] at refused
      cases refused
      obtain ⟨w, worker, tallied | streamed⟩ := StageBlock.mergeWorkers_error merged
      · obtain ⟨o, mem, made⟩ := StageBlock.tallyOf_error tallied
        exact .inl (.result worker mem made)
      · obtain ⟨b, mem, flawed, rfl⟩ := StageBlock.seriesOf_error streamed
        exact .inl (.interval worker mem flawed)
  | ok sofar =>
      obtain ⟨parts, each, rfl⟩ := StageBlock.mergeWorkers_ok_iff.1 merged
      have empty_iff := StageBlock.tagged_isEmpty_iff each l.actions fits
      rw [StageBlock.ofStage_of_merged merged] at refused
      rcases Outcome.bind_error refused with unwritten | ⟨written, made, refused⟩
      · have some : resultsOf l.workers ≠ [] := by
          intro none
          rw [StageTally.parts_of_isEmpty (empty_iff.2 none)] at unwritten
          cases unwritten
        rcases StageTally.parts_error unwritten with ⟨flawed, rfl⟩ | ⟨m, declared, flaw⟩
        · exact .inl (.elapsed some flawed)
        · exact .inl (.metric some declared flaw)
      · rcases Outcome.bind_error refused with unviewed | ⟨_, -, last⟩
        · obtain ⟨rfl, wide⟩ := (StageBlock.overview_error_iff each fits short made e).1 unviewed
          exact .inr ⟨rfl, wide,
            not_flaw_of_parts each made fun some nothing => some (empty_iff.1 nothing)⟩
        · cases last

/-- A stage that comes to something has no flaw. -/
theorem not_flaw_of_block {b : StageBlock} (fits : (resultsOf l.workers).length < 2 ^ 64)
    (made : l.block = .ok b) (e : Error) : ¬ l.Flaw e := by
  obtain ⟨parts, each, written, -⟩ := StageBlock.ofStage_ok_iff.1 made
  exact not_flaw_of_parts each written
    (fun some nothing => some ((StageBlock.tagged_isEmpty_iff each l.actions fits).1 nothing)) e

theorem not_overflows_of_block {b : StageBlock} (fits : (resultsOf l.workers).length < 2 ^ 64)
    (short : ∀ w ∈ l.workers, w.streams.length < 2 ^ 64) (made : l.block = .ok b) :
    ¬ l.Overflows := by
  intro wide
  obtain ⟨parts, each, written, viewed, -⟩ := StageBlock.ofStage_ok_iff.1 made
  have unviewed := (StageBlock.overview_error_iff each fits short written .overflow).2 ⟨rfl, wide⟩
  rw [viewed] at unviewed
  cases unviewed

/-- A stage with a flaw is refused, however many results it has. -/
theorem Flaw.refused (flaw : l.Flaw e) : ∃ e', l.block = .error e' := by
  cases made : l.block with
  | error e' => exact ⟨e', rfl⟩
  | ok b =>
      obtain ⟨parts, each, written, -⟩ := StageBlock.ofStage_ok_iff.1 made
      exact absurd flaw
        (not_flaw_of_parts each written (StageBlock.tagged_ne_empty each l.actions) e)

/-- A stage comes to something exactly when it has no flaw and its workers report no more than can
be counted. -/
theorem exists_block_iff (fits : (resultsOf l.workers).length < 2 ^ 64)
    (short : ∀ w ∈ l.workers, w.streams.length < 2 ^ 64) :
    (∃ b, l.block = .ok b) ↔ (∀ e, ¬ l.Flaw e) ∧ ¬ l.Overflows := by
  constructor
  · rintro ⟨b, made⟩
    exact ⟨not_flaw_of_block fits made, not_overflows_of_block fits short made⟩
  · rintro ⟨unflawed, narrow⟩
    cases made : l.block with
    | ok b => exact ⟨b, rfl⟩
    | error e =>
        rcases block_error fits short made with flaw | ⟨-, wide, -⟩
        · exact absurd flaw (unflawed e)
        · exact absurd wide narrow

end LoadedStage

theorem Event.ofObservation_error {o : Observation} {stage : String} {e : Error}
    (refused : Event.ofObservation o stage = .error e) :
    e = .noEngine ∨ (∃ engine, e = .noAction engine) ∨ ∃ phase value, e = .timing phase value := by
  simp only [ofObservation] at refused
  split at refused
  · cases refused
    exact .inl rfl
  · split at refused
    · cases refused
      exact .inr (.inl ⟨_, rfl⟩)
    · split at refused
      · cases refused
        exact .inr (.inr ⟨_, _, rfl⟩)
      · cases refused

/-- The error of a flaw is never one of the checks that a stage's own counts go through. -/
theorem LoadedStage.Flaw.input {l : LoadedStage} {e : Error} (flaw : l.Flaw e) :
    (∀ stage total succeeded failed, e ≠ .counts stage total succeeded failed) ∧
      (∀ outstanding, e ≠ .exhausted outstanding) ∧ e ≠ .overflow := by
  cases flaw with
  | result _ _ refused =>
      rcases Event.ofObservation_error refused with rfl | ⟨_, rfl⟩ | ⟨_, _, rfl⟩
      · exact ⟨nofun, nofun, nofun⟩
      · exact ⟨nofun, nofun, nofun⟩
      · exact ⟨nofun, nofun, nofun⟩
  | interval => exact ⟨nofun, nofun, nofun⟩
  | elapsed => exact ⟨nofun, nofun, nofun⟩
  | metric _ _ refused =>
      cases refused with
      | blank => exact ⟨nofun, nofun, nofun⟩
      | reserved => exact ⟨nofun, nofun, nofun⟩

theorem LoadedStage.block_overflows_iff {l : LoadedStage}
    (fits : (resultsOf l.workers).length < 2 ^ 64)
    (short : ∀ w ∈ l.workers, w.streams.length < 2 ^ 64) :
    l.block = .error .overflow ↔ (∀ e, ¬ l.Flaw e) ∧ l.Overflows := by
  constructor
  · intro refused
    rcases block_error fits short refused with flaw | ⟨-, wide, unflawed⟩
    · exact absurd rfl flaw.input.2.2
    · exact ⟨unflawed, wide⟩
  · rintro ⟨unflawed, wide⟩
    cases made : l.block with
    | ok b => exact absurd wide (not_overflows_of_block fits short made)
    | error e =>
        rcases block_error fits short made with flaw | ⟨rfl, -⟩
        · exact absurd flaw (unflawed e)
        · rfl

namespace Source

variable {σ : Type} {s : Source σ} {a t : σ}

theorem fits_of_mem {loaded : List LoadedStage}
    (fits : (loaded.flatMap fun l => resultsOf l.workers).length < 2 ^ 64) :
    ∀ l ∈ loaded, (resultsOf l.workers).length < 2 ^ 64 := by
  intro l mem
  rw [List.length_flatMap] at fits
  have own := List.le_sum_of_mem (List.mem_map_of_mem (f := fun l => (resultsOf l.workers).length) mem)
  exact Nat.lt_of_le_of_lt own fits

/-- Results that a counter can count leave the counters of all experiments room. -/
theorem exists_ofBlocks {loaded : List LoadedStage} {blocks : List StageBlock}
    (made : List.Forall₂ (fun l b => l.block = .ok b) loaded blocks)
    (fits : (loaded.flatMap fun l => resultsOf l.workers).length < 2 ^ 64) :
    ∃ r, SessionReport.ofBlocks blocks = .ok r := by
  have few := fits_of_mem fits
  apply SessionReport.exists_ofBlocks (blocks_consistent made few).2
  have events : (blocks.flatMap StageBlock.events).length =
      (loaded.flatMap fun l => resultsOf l.workers).length := by
    rw [List.length_flatMap, List.length_flatMap, eq_comm]
    apply congrArg List.sum
    rw [← List.forall₂_eq_eq_eq, List.forall₂_map_left_iff, List.forall₂_map_right_iff]
    have listed := (List.forall₂_and_left _ _).2 ⟨few, made⟩
    exact listed.imp fun l b own => (StageBlock.length_events own.1 own.2).symm
  rw [events]
  exact fits

/-- A collection fails at a stage that is refused, when the source tells all that it knows. -/
theorem collect_error {loaded : List LoadedStage} {e : Error}
    (told : s.loadAll.run.run a = (.ok loaded, t))
    (fits : (loaded.flatMap fun l => resultsOf l.workers).length < 2 ^ 64)
    (refused : (s.collect.run.run a).1 = .error e) : ∃ l ∈ loaded, l.block = .error e := by
  rw [collect_of_loadAll told] at refused
  rcases Outcome.bind_error refused with refused | ⟨blocks, made, refused⟩
  · exact Outcome.mapM_error refused
  · obtain ⟨r, gathered⟩ := exists_ofBlocks (Outcome.mapM_ok_iff.1 made) fits
    rw [gathered] at refused
    cases refused

theorem collect_error_of_block {loaded : List LoadedStage} {l : LoadedStage} {e : Error}
    (told : s.loadAll.run.run a = (.ok loaded, t)) (mem : l ∈ loaded)
    (refused : l.block = .error e) : ∃ e', (s.collect.run.run a).1 = .error e' := by
  rw [collect_of_loadAll told]
  cases through : loaded.mapM LoadedStage.block with
  | error e' => exact ⟨e', rfl⟩
  | ok blocks =>
      obtain ⟨b, -, made⟩ := Outcome.exists_of_mem (Outcome.mapM_ok_iff.1 through).flip mem
      rw [refused] at made
      cases made

/-- A collection from a source that tells all it knows fails exactly when a stage has a flaw, as far
as counters hold what the workers report: a result that makes no event, an interval that took no
positive time, or beside results a duration that is not positive or a metric without a name of its
own. Whatever they report, the error is that of a flaw or of an overflow; counters that do not add
up and exhausted bins are never reported. Lists in memory are shorter than `2 ^ 64`. -/
theorem collect_fails_iff (s : Source σ) {a t : σ} {loaded : List LoadedStage}
    (told : s.loadAll.run.run a = (.ok loaded, t))
    (fits : (loaded.flatMap fun l => resultsOf l.workers).length < 2 ^ 64)
    (short : ∀ l ∈ loaded, ∀ w ∈ l.workers, w.streams.length < 2 ^ 64) :
    ((∀ l ∈ loaded, ∀ c : StreamCount, c.reported l.workers < 2 ^ 64) →
      ((∃ e, (s.collect.run.run a).1 = .error e) ↔ ∃ l ∈ loaded, ∃ e, l.Flaw e)) ∧
    ∀ e, (s.collect.run.run a).1 = .error e →
      ((∃ l ∈ loaded, l.Flaw e) ∨ e = .overflow ∧ ∃ l ∈ loaded, l.Overflows) ∧
        (∀ stage total succeeded failed, e ≠ .counts stage total succeeded failed) ∧
        ∀ outstanding, e ≠ .exhausted outstanding := by
  have cause {e : Error} (refused : (s.collect.run.run a).1 = .error e) :
      ∃ l ∈ loaded, l.Flaw e ∨ e = .overflow ∧ l.Overflows := by
    obtain ⟨l, mem, refused⟩ := collect_error told fits refused
    rcases LoadedStage.block_error (fits_of_mem fits l mem) (short l mem) refused with
      flaw | ⟨overflow, wide, -⟩
    · exact ⟨l, mem, .inl flaw⟩
    · exact ⟨l, mem, .inr ⟨overflow, wide⟩⟩
  constructor
  · intro counted
    constructor
    · rintro ⟨e, refused⟩
      obtain ⟨l, mem, flaw | ⟨-, c, wide⟩⟩ := cause refused
      · exact ⟨l, mem, e, flaw⟩
      · exact absurd (counted l mem c) (Nat.not_lt.2 wide)
    · rintro ⟨l, mem, e, flaw⟩
      obtain ⟨e', refused⟩ := flaw.refused
      exact collect_error_of_block told mem refused
  · intro e refused
    obtain ⟨l, mem, flaw | ⟨overflow, wide⟩⟩ := cause refused
    · obtain ⟨not_counts, not_exhausted, -⟩ := flaw.input
      exact ⟨.inl ⟨l, mem, flaw⟩, not_counts, not_exhausted⟩
    · subst overflow
      exact ⟨.inr ⟨rfl, l, mem, wide⟩, nofun, nofun⟩

/-- The stage that a source which hands out its stages one after another is at. -/
def current (name : String) : Call (List LoadedStage) LoadedStage := do
  match ← get with
  | l :: _ => return l
  | [] => throw (.unknownStage name)

/-- A source that hands out its stages one after another; the workers of a stage come last. -/
def handingOut : Source (List LoadedStage) where
  tag := "queue"
  connect := return ()
  stages := do return (← get).map LoadedStage.stage
  actions name := do return (← current name).actions
  data _ := return []
  results name := do
    let l ← current name
    modify List.tail
    return l.workers
  facts name := do return (← current name).facts
  close := return ()

/-- Two stages of which the second is at fault: it has a result and a metric that would shadow a
column. The first has neither a duration nor results, its metric has no name, and its stream counts
what never happened. -/
def idleThenShadowed : List LoadedStage :=
  let facts (stage : String) (elapsed : Float) (metric : String) : StageFacts :=
    ⟨stage, .execute, elapsed, none, [⟨metric, "", .integer 1, "custom", .count⟩], [], none⟩
  let stream : List StreamInterval := [⟨⟨7, 2, 1, []⟩, 0.5⟩]
  [⟨"idle", facts "idle" 0.0 "", [], [⟨0, [], stream⟩]⟩,
    ⟨"peak", facts "peak" 1.0 "stage", [], [⟨0, [.timed "login" 0.25 none], []⟩]⟩]

theorem collect_fails_shadowed :
    ∃ e, (handingOut.collect.run.run idleThenShadowed).1 = .error e ∧
      ∃ l ∈ idleThenShadowed, l.Flaw e := by
  have told : handingOut.loadAll.run.run idleThenShadowed = (.ok idleThenShadowed, []) := rfl
  have counted : ∀ l ∈ idleThenShadowed, ∀ c : StreamCount, c.reported l.workers < 2 ^ 64 := by
    intro l mem c
    cases c <;> revert l <;> decide
  obtain ⟨fails_iff, cause⟩ := collect_fails_iff handingOut told (by decide) (by decide)
  have shadowed : ∃ l ∈ idleThenShadowed, ∃ e, l.Flaw e :=
    ⟨_, List.mem_cons_of_mem _ List.mem_cons_self, _,
      .metric (by decide) List.mem_cons_self (.reserved (by decide))⟩
  obtain ⟨e, refused⟩ := (fails_iff counted).2 shadowed
  obtain ⟨flaw | ⟨-, l, mem, c, wide⟩, -⟩ := cause e refused
  · exact ⟨e, refused, flaw⟩
  · exact absurd (counted l mem c) (Nat.not_lt.2 wide)

end Source

end BenchReport
