import BenchReport.Proofs.Experiments
import BenchReport.Proofs.Session.Levels
import BenchReport.Proofs.Session.Loading
import BenchReport.Proofs.Tally.Aggregation
set_option autoImplicit false

namespace BenchReport

open StageBlock (resultsOf)

def StageBlock.experiment? (b : StageBlock) : Option String :=
  b.facts.experiment.map fun a => a.experiment.name

def StageBlock.assigned (name : String) (blocks : List StageBlock) : List StageBlock :=
  blocks.filter fun b => b.experiment? = some name

/-- The report is put together from blocks whose levels agree, and counts for each experiment what
the overviews of its stages count. -/
structure SessionReport.Consistent (r : SessionReport) (blocks : List StageBlock) : Prop where
  events : r.payload.events = blocks.flatMap StageBlock.events
  actions : r.payload.actions = blocks.flatMap StageBlock.actions
  overviews : r.overviews = blocks.map StageBlock.overview
  levels : ∀ b ∈ blocks, b.Consistent
  distinct : (r.payload.experiments.map fun x => x.experiment.name).Nodup
  assigned (name : String) :
    name ∈ r.payload.experiments.map (fun x => x.experiment.name) ↔
      ∃ b ∈ blocks, b.experiment? = some name
  completed : ∀ x ∈ r.payload.experiments, x.experiment.completed.toNat =
    ((StageBlock.assigned x.experiment.name blocks).map fun b => b.overview.total.toNat).sum
  succeeded : ∀ x ∈ r.payload.experiments, x.experiment.succeeded.toNat =
    ((StageBlock.assigned x.experiment.name blocks).map fun b => b.overview.succeeded.toNat).sum
  failed : ∀ x ∈ r.payload.experiments, x.experiment.failed.toNat =
    ((StageBlock.assigned x.experiment.name blocks).map fun b => b.overview.failed.toNat).sum

namespace StageBlock

def turnout (b : StageBlock) : Turnout Float :=
  ⟨b.overview.total, b.overview.succeeded, b.overview.failed, b.overview.rate⟩

theorem mem_outcomes_iff (blocks : List StageBlock) (name : String) :
    (∃ o ∈ blocks.filterMap outcome?, o.1.name = name) ↔
      ∃ b ∈ blocks, b.experiment? = some name := by
  constructor
  · rintro ⟨o, mem, rfl⟩
    obtain ⟨b, listed, outcome⟩ := List.mem_filterMap.1 mem
    obtain ⟨a, assigned, rfl⟩ := Option.map_eq_some_iff.1 outcome
    exact ⟨b, listed, by rw [experiment?, assigned]; rfl⟩
  · rintro ⟨b, mem, experiment⟩
    obtain ⟨a, assigned, rfl⟩ := Option.map_eq_some_iff.1 experiment
    exact ⟨_, List.mem_filterMap.2 ⟨b, mem, by rw [outcome?, assigned]; rfl⟩, rfl⟩

/-- The outcomes of an experiment are those of the stages assigned to it. -/
theorem turnoutsOf_outcomes (name : String) (blocks : List StageBlock) :
    ExperimentReport.turnoutsOf name (blocks.filterMap outcome?) =
      (assigned name blocks).map turnout := by
  induction blocks with
  | nil => rfl
  | cons b rest ih =>
      rw [assigned, List.filter_cons, experiment?]
      cases experiment : b.facts.experiment with
      | none =>
          rw [List.filterMap_cons_none (by rw [outcome?, experiment]; rfl), ih]
          rfl
      | some a =>
          have outcome :
              b.outcome? = some (a.experiment, Outcome.ofStage a.variant b.overview) := by
            rw [outcome?, experiment]
            rfl
          rw [List.filterMap_cons_some outcome, ExperimentReport.turnoutsOf, List.filter_cons]
          by_cases own : a.experiment.name = name
          · rw [if_pos (decide_eq_true own), if_pos (by simp [own]), List.map_cons, List.map_cons]
            exact congrArg _ ih
          · rw [if_neg (by simpa using own), if_neg (by simpa using own)]
            exact ih

/-- Counts of the stages of one experiment cannot exceed the events of all stages. -/
theorem sum_assigned_le {blocks : List StageBlock} (name : String) (get : Turnout Float → UInt64)
    (counted : ∀ b ∈ blocks, (get b.turnout).toNat ≤ b.events.length) :
    Turnout.sumNat get ((assigned name blocks).map turnout) ≤
      (blocks.flatMap StageBlock.events).length := by
  rw [Turnout.sumNat, List.map_map, List.length_flatMap]
  calc ((assigned name blocks).map fun b => (get b.turnout).toNat).sum
      ≤ (blocks.map fun b => (get b.turnout).toNat).sum :=
        (List.filter_sublist.map _).sum_le_sum fun _ _ => Nat.zero_le _
    _ ≤ (blocks.map fun b => b.events.length).sum := List.sum_le_sum counted

theorem Consistent.turnout_le {b : StageBlock} (consistent : b.Consistent) (c : StreamCount) :
    (c.ofTurnout b.turnout).toNat ≤ b.events.length := by
  cases c with
  | completed => exact Nat.le_of_eq consistent.total_eq
  | succeeded =>
      have counted := consistent.succeeded_eq
      exact counted ▸ List.countP_le_length
  | failed =>
      have counted := consistent.failed_eq
      exact counted ▸ List.countP_le_length

end StageBlock

namespace SessionReport

variable {blocks : List StageBlock} {r : SessionReport}

/-- Events that a counter can count leave the counters of all experiments room. -/
theorem exists_ofBlocks (consistent : ∀ b ∈ blocks, b.Consistent)
    (fits : (blocks.flatMap StageBlock.events).length < 2 ^ 64) :
    ∃ r, ofBlocks blocks = .ok r := by
  have experiments := (ExperimentReport.exists_ofAll_iff (blocks.filterMap StageBlock.outcome?)).2
    fun name c => by
      have few := StageBlock.sum_assigned_le name c.ofTurnout fun b mem =>
        (consistent b mem).turnout_le c
      rw [StageBlock.turnoutsOf_outcomes]
      exact Nat.lt_of_le_of_lt few fits
  obtain ⟨experiments, gathered⟩ := experiments
  exact ⟨_, ofBlocks_ok_iff.2 ⟨experiments, gathered, rfl⟩⟩

theorem ofBlocks_consistent (made : ofBlocks blocks = .ok r)
    (consistent : ∀ b ∈ blocks, b.Consistent) : r.Consistent blocks := by
  obtain ⟨experiments, gathered, rfl⟩ := ofBlocks_ok_iff.1 made
  have counted {x : ExperimentReport Float} (mem : x ∈ experiments) (c : StreamCount) :
      (c.ofExperiment x.experiment).toNat =
        ((StageBlock.assigned x.experiment.name blocks).map
          fun b => (c.ofTurnout b.turnout).toNat).sum := by
    rw [ExperimentReport.counters_ofAll gathered mem c, StageBlock.turnoutsOf_outcomes,
      Turnout.sumNat, List.map_map]
    rfl
  constructor
  case events => rfl
  case actions => rfl
  case overviews => rfl
  case levels => exact consistent
  case distinct => exact ExperimentReport.nodup_names_ofAll gathered
  case assigned =>
    intro name
    exact (ExperimentReport.mem_names_ofAll gathered name).trans
      (StageBlock.mem_outcomes_iff blocks name)
  case completed => exact fun x mem => counted mem .completed
  case succeeded => exact fun x mem => counted mem .succeeded
  case failed => exact fun x mem => counted mem .failed

end SessionReport

namespace Source

variable {σ : Type}

theorem blocks_consistent {loaded : List LoadedStage} {blocks : List StageBlock}
    (made : List.Forall₂ (fun l b => l.block = .ok b) loaded blocks)
    (fits : ∀ l ∈ loaded, (resultsOf l.workers).length < 2 ^ 64) :
    List.Forall₂ (fun l b => b.stage = l.stage ∧ b.facts = l.facts) loaded blocks ∧
      ∀ b ∈ blocks, b.Consistent := by
  constructor
  · refine made.imp fun l b made => ?_
    obtain ⟨-, -, -, -, stage, facts, -⟩ := StageBlock.ofStage_ok_iff.1 made
    exact ⟨stage, facts⟩
  · intro b mem
    obtain ⟨l, mem, made⟩ := Outcome.exists_of_mem made mem
    exact StageBlock.ofStage_consistent (fits l mem) made

/-- A session that is accepted has a block for each stage that the source lists, in that order, and
all levels of its report count the same. A list in memory is shorter than `2 ^ 64`. -/
theorem collect_consistent (s : Source σ) {a t : σ} {report : SessionReport}
    (collected : s.collect.run.run a = (.ok report, t))
    (fits : ∀ loaded, s.loadAll.run.run a = (.ok loaded, t) →
      ∀ l ∈ loaded, (resultsOf l.workers).length < 2 ^ 64) :
    ∃ opened listed blocks, s.connect.run.run a = (.ok (), opened) ∧
      s.stages.run.run opened = (.ok (blocks.map StageBlock.stage), listed) ∧
      (∃ loaded, s.loadAll.run.run a = (.ok loaded, t) ∧
        List.Forall₂ (fun l b => b.stage = l.stage ∧ b.facts = l.facts) loaded blocks) ∧
      report.Consistent blocks := by
  obtain ⟨loaded, blocks, told, made, gathered⟩ := (s.collect_ok_iff report).1 collected
  obtain ⟨stages, consistent⟩ := blocks_consistent made (fits loaded told)
  obtain ⟨opened, listed, connected, named⟩ := loadAll_stages told
  have names : loaded.map LoadedStage.stage = blocks.map StageBlock.stage := by
    rw [← List.forall₂_eq_eq_eq]
    exact List.forall₂_map_left_iff.2
      (List.forall₂_map_right_iff.2 (stages.imp fun l b same => same.1.symm))
  rw [names] at named
  exact ⟨opened, listed, blocks, connected, named, ⟨loaded, told, stages⟩,
    SessionReport.ofBlocks_consistent gathered consistent⟩

/-- The numbers of results that a source tells of its stages, the number of events reported, and
what each experiment completed. -/
def weigh (s : Source σ) (a : σ) : Option (List Nat × Nat × List UInt64) :=
  match (s.loadAll.run.run a).1, (s.collect.run.run a).1 with
  | .ok loaded, .ok report =>
    some (loaded.map fun l => (resultsOf l.workers).length, report.payload.events.length,
      report.payload.experiments.map fun x => x.experiment.completed)
  | _, _ => none

theorem weigh_spec {s : Source σ} {a : σ} {told : List Nat} {reported : Nat}
    {completed : List UInt64} (weighed : s.weigh a = some (told, reported, completed)) :
    ∃ report t, s.collect.run.run a = (.ok report, t) ∧
      (∀ loaded, s.loadAll.run.run a = (.ok loaded, t) →
        ∀ l ∈ loaded, (resultsOf l.workers).length ∈ told) ∧
      report.payload.events.length = reported ∧
      (report.payload.experiments.map fun x => x.experiment.completed) = completed := by
  rw [weigh] at weighed
  rcases loaded : s.loadAll.run.run a with ⟨outcome, u⟩
  rcases collected : s.collect.run.run a with ⟨outcome', t⟩
  rw [loaded, collected] at weighed
  cases outcome with
  | error e => cases weighed
  | ok loaded =>
      cases outcome' with
      | error e => cases weighed
      | ok report =>
          cases weighed
          refine ⟨report, t, rfl, fun loaded' same l mem => ?_, rfl, rfl⟩
          cases same
          exact List.mem_map.2 ⟨l, mem, rfl⟩

end Source

def Archive.connectedSource : Source Archive := { Archive.source with connect := return () }

/-- An archive that is connected to a session of two stages, which ran a variant of one experiment.
A worker of the first failed. -/
def Archive.ofVariants : Archive :=
  let variant : Assignment := ⟨⟨"basket", false, []⟩, ⟨"big", 1.0, none, none, [], []⟩⟩
  let facts (stage : String) : StageFacts := ⟨stage, .execute, 1.0, none, [], [], some variant⟩
  let worker (seconds : Float) (error : Option String) : WorkerOutput :=
    ⟨0, [.timed "login" seconds error], []⟩
  let first : RecordedStage :=
    ⟨facts "ramp", [], [], [worker 0.25 none, worker 0.5 (some "timeout")]⟩
  let second : RecordedStage := ⟨facts "peak", [], [], [worker 0.25 none]⟩
  { ofPath (Files.ofList []) "session.json" with session := some ⟨[first, second]⟩ }

theorem Source.collect_consistent_variants :
    ∃ report t blocks,
      Archive.connectedSource.collect.run.run Archive.ofVariants = (.ok report, t) ∧
      report.payload.events.length = 3 ∧
      (report.payload.experiments.map fun x => x.experiment.completed) = [3] ∧
      report.Consistent blocks := by
  have weighed : Archive.connectedSource.weigh Archive.ofVariants = some ([2, 1], 3, [3]) := by
    decide +kernel
  obtain ⟨report, t, collected, told, reported, completed⟩ := weigh_spec weighed
  obtain ⟨_, _, blocks, -, -, -, consistent⟩ := collect_consistent Archive.connectedSource collected
    (fun loaded ok l mem => by
      rcases List.mem_cons.1 (told loaded ok l mem) with two | one
      · omega
      · have := List.mem_singleton.1 one
        omega)
  exact ⟨report, t, blocks, collected, reported, completed, consistent⟩

end BenchReport
