import BenchReport.Proofs.Session.StageHistory
import BenchReport.Session.Collect
set_option autoImplicit false

namespace BenchReport

theorem StageTally.parts_of_isEmpty {s : StageTally} (none : s.isEmpty = true) (elapsed : Float)
    (custom : List CustomMetric) : s.parts elapsed custom = .ok ([], []) := by
  have no_entries : s.tallies.entries = [] := List.isEmpty_iff.1 none
  rw [StageTally.parts, Table.values, no_entries]
  rfl

namespace StageBlock

open StageTally (Holds totalOf)

def resultsOf (workers : List WorkerOutput) : List Observation :=
  workers.flatMap WorkerOutput.results

/-- A worker's results and stream come to its tallies and its series. -/
def Works (stage : String) (w : WorkerOutput) (p : StageTally × StreamSeries) : Prop :=
  tallyOf stage w = .ok p.1 ∧ seriesOf w = .ok p.2

def tallyAll (stage : String) (parts : List (StageTally × StreamSeries)) : StageTally :=
  (parts.map (·.1)).foldl StageTally.merge (StageTally.empty stage)

/-- The series that are not empty. -/
def seriesAll (parts : List (StageTally × StreamSeries)) : List StreamSeries :=
  (parts.map (·.2)).filter fun series => !series.isEmpty

theorem addWorker_ok_iff {stage : String} {before after : StageTally × List StreamSeries}
    {w : WorkerOutput} :
    addWorker stage before w = .ok after ↔
      ∃ p, Works stage w p ∧
        after = (before.1.merge p.1, before.2 ++ [p.2].filter fun series => !series.isEmpty) := by
  have skipped (series : StreamSeries) :
      (if series.isEmpty then before.2 else before.2 ++ [series]) =
        before.2 ++ [series].filter fun series => !series.isEmpty := by
    cases none : series.isEmpty <;> simp [none]
  constructor
  · intro added
    obtain ⟨tally, tallied, added⟩ := Outcome.bind_ok added
    obtain ⟨series, streamed, added⟩ := Outcome.bind_ok added
    cases added
    exact ⟨(tally, series), ⟨tallied, streamed⟩, by rw [← skipped]⟩
  · rintro ⟨⟨tally, series⟩, ⟨tallied, streamed⟩, rfl⟩
    rw [← skipped, addWorker, tallied, streamed]
    rfl

theorem seriesAll_nil : seriesAll [] = [] := rfl

theorem seriesAll_cons (p : StageTally × StreamSeries) (parts : List (StageTally × StreamSeries)) :
    seriesAll (p :: parts) = ([p.2].filter fun series => !series.isEmpty) ++ seriesAll parts := by
  rw [seriesAll, List.map_cons, ← List.singleton_append, List.filter_append]
  rfl

theorem foldlM_addWorker_iff {stage : String} {workers : List WorkerOutput}
    {before after : StageTally × List StreamSeries} :
    workers.foldlM (addWorker stage) before = .ok after ↔
      ∃ parts, List.Forall₂ (Works stage) workers parts ∧
        after = ((parts.map (·.1)).foldl StageTally.merge before.1,
          before.2 ++ seriesAll parts) := by
  induction workers generalizing before with
  | nil =>
      constructor
      · intro merged
        cases merged
        exact ⟨[], .nil, by rw [seriesAll_nil, List.append_nil]; rfl⟩
      · rintro ⟨parts, each, rfl⟩
        cases each
        rw [seriesAll_nil, List.append_nil]
        rfl
  | cons w rest ih =>
      rw [List.foldlM_cons]
      constructor
      · intro merged
        obtain ⟨next, added, merged⟩ := Outcome.bind_ok merged
        obtain ⟨p, works, rfl⟩ := addWorker_ok_iff.1 added
        obtain ⟨parts, each, rfl⟩ := ih.1 merged
        refine ⟨p :: parts, .cons works each, ?_⟩
        rw [seriesAll_cons, List.append_assoc]
        rfl
      · rintro ⟨parts, each, rfl⟩
        obtain ⟨p, later, works, each_later, rfl⟩ := List.forall₂_cons_left_iff.1 each
        rw [addWorker_ok_iff.2 ⟨p, works, rfl⟩]
        refine ih.2 ⟨later, each_later, ?_⟩
        rw [seriesAll_cons, List.append_assoc]
        rfl

theorem mergeWorkers_ok_iff {stage : String} {workers : List WorkerOutput}
    {merged : StageTally × List StreamSeries} :
    mergeWorkers stage workers = .ok merged ↔
      ∃ parts, List.Forall₂ (Works stage) workers parts ∧
        merged = (tallyAll stage parts, seriesAll parts) :=
  foldlM_addWorker_iff

/-- A stage without events is written out like any other. -/
theorem ofStage_of_merged {stage : String} {facts : StageFacts} {stored : List Action}
    {workers : List WorkerOutput} {tally : StageTally} {streams : List StreamSeries}
    (merged : mergeWorkers stage workers = .ok (tally, streams)) :
    ofStage stage facts stored workers =
      ((tagged tally stored).parts facts.elapsed facts.custom >>= fun written =>
        StageOverview.ofStage stage written.1 streams >>= fun overview =>
          .ok ⟨stage, facts, written.1, written.2, streams, overview⟩) := by
  rw [ofStage, merged]
  change (if (tagged tally stored).isEmpty then _ else _) = _
  split
  · rename_i none
    rw [StageTally.parts_of_isEmpty none]
    rfl
  · rfl

/-- A stage comes to a block in which its merged tallies are written out and its overview is made of
them. -/
theorem ofStage_ok_iff {stage : String} {facts : StageFacts} {stored : List Action}
    {workers : List WorkerOutput} {b : StageBlock} :
    ofStage stage facts stored workers = .ok b ↔
      ∃ parts, List.Forall₂ (Works stage) workers parts ∧
        (tagged (tallyAll stage parts) stored).parts facts.elapsed facts.custom =
          .ok (b.actions, b.events) ∧
        StageOverview.ofStage stage b.actions (seriesAll parts) = .ok b.overview ∧
        b.stage = stage ∧ b.facts = facts ∧ b.streams = seriesAll parts := by
  constructor
  · intro made
    obtain ⟨merged, merge_ok, -⟩ := Outcome.bind_ok made
    obtain ⟨parts, each, rfl⟩ := mergeWorkers_ok_iff.1 merge_ok
    rw [ofStage_of_merged merge_ok] at made
    obtain ⟨⟨actions, events⟩, written, made⟩ := Outcome.bind_ok made
    obtain ⟨overview, viewed, made⟩ := Outcome.bind_ok made
    cases made
    exact ⟨parts, each, written, viewed, rfl, rfl, rfl⟩
  · obtain ⟨_, _, actions, events, _, overview⟩ := b
    rintro ⟨parts, each, written, viewed, rfl, rfl, rfl⟩
    rw [ofStage_of_merged (mergeWorkers_ok_iff.2 ⟨parts, each, rfl⟩), written]
    change (StageOverview.ofStage _ actions _ >>= _) = _
    rw [viewed]
    rfl

theorem tallyOf_ok {stage : String} {w : WorkerOutput} {s : StageTally}
    (tallied : tallyOf stage w = .ok s) : ∃ es, Normalised stage w.results es ∧ Holds s es := by
  obtain ⟨counted, ingested, rfl⟩ := Outcome.map_ok tallied
  obtain ⟨es, normalised, -, holds⟩ :=
    (StageTally.holds_empty stage).ingestAll w.results ingested
  exact ⟨es, normalised, holds.freeze⟩

theorem foldl_merge_holds {stage : String} {workers : List WorkerOutput}
    {parts : List (StageTally × StreamSeries)} {s : StageTally} {h : List Event}
    (each : List.Forall₂ (Works stage) workers parts) (holds : Holds s h)
    (fits : h.length + (resultsOf workers).length < 2 ^ 64) :
    ∃ es, Normalised stage (resultsOf workers) es ∧
      Holds ((parts.map (·.1)).foldl StageTally.merge s) (h ++ es) := by
  induction each generalizing s h with
  | nil => exact ⟨[], .nil, by rwa [List.append_nil]⟩
  | @cons w p rest parts works _ ih =>
      obtain ⟨es, normalised, tally_holds⟩ := tallyOf_ok works.1
      have count : w.results.length = es.length := normalised.length_eq
      rw [resultsOf, List.flatMap_cons, List.length_append] at fits
      have fits_first : (h ++ es).length < 2 ^ 64 := by
        rw [List.length_append]
        omega
      have fits_rest : (h ++ es).length + (resultsOf rest).length < 2 ^ 64 := by
        rw [List.length_append, resultsOf]
        omega
      obtain ⟨es', normalised', holds'⟩ := ih (holds.merge tally_holds fits_first) fits_rest
      rw [List.append_assoc] at holds'
      exact ⟨es ++ es', Outcome.append_ok normalised normalised', holds'⟩

theorem tagged_holds {s : StageTally} {h : List Event} (holds : Holds s h)
    (actions : List Action) : Holds (tagged s actions) h := by
  induction actions generalizing s with
  | nil => exact holds
  | cons a rest ih => exact ih (holds.addTags a.name a.tags)

def tagsFor (action : String) (stored : List Action) : List Tag :=
  (stored.filter fun a => a.name = action).flatMap Action.tags

/-- An action that has a tally gets the tags of all stored actions of its name. -/
theorem get?_tagged (s : StageTally) (stored : List Action) (action : String) :
    (tagged s stored).tallies.get? action =
      (s.tallies.get? action).map (·.addTags (tagsFor action stored)) := by
  induction stored generalizing s with
  | nil =>
      have untouched : (fun t : Tally => t.addTags (tagsFor action [])) = id := rfl
      rw [untouched, Option.map_id_fun, id]
      rfl
  | cons a rest ih =>
      change (tagged (s.addTags a.name a.tags) rest).tallies.get? action = _
      rw [ih, StageTally.addTags, Table.get?_modify]
      by_cases own : action = a.name
      · have front : tagsFor action (a :: rest) = a.tags ++ tagsFor action rest := by
          simp [tagsFor, own]
        rw [if_pos own, ← own, Option.map_map, front]
        congr 1
        funext t
        simp only [Function.comp_apply, Tally.addTags, TagSet.insertAll, List.foldl_append]
      · have other : tagsFor action (a :: rest) = tagsFor action rest := by
          simp [tagsFor, Ne.symm own]
        rw [if_neg own, other]

/-- The tallies that a stage is written out of hold the event of each result of its workers. -/
theorem tallies_hold {stage : String} {workers : List WorkerOutput}
    {parts : List (StageTally × StreamSeries)} (each : List.Forall₂ (Works stage) workers parts)
    (stored : List Action) (fits : (resultsOf workers).length < 2 ^ 64) :
    ∃ es, Normalised stage (resultsOf workers) es ∧
      Holds (tagged (tallyAll stage parts) stored) es := by
  obtain ⟨es, normalised, holds⟩ :=
    foldl_merge_holds each (StageTally.holds_empty stage) (by simpa using fits)
  exact ⟨es, normalised, tagged_holds holds stored⟩

/-- What a stage comes to has the event of each result of its workers once, and its totals are their
number. -/
theorem ofStage_ok {stage : String} {facts : StageFacts} {stored : List Action}
    {workers : List WorkerOutput} {block : StageBlock}
    (fits : (resultsOf workers).length < 2 ^ 64)
    (made : ofStage stage facts stored workers = .ok block) :
    ∃ es, Normalised stage (resultsOf workers) es ∧ block.events.Perm es ∧
      totalOf block.actions = es.length := by
  obtain ⟨parts, each, summed, -⟩ := ofStage_ok_iff.1 made
  obtain ⟨es, normalised, holds⟩ := tallies_hold each stored fits
  have count : (resultsOf workers).length = es.length := normalised.length_eq
  exact ⟨es, normalised, holds.parts (by omega) summed⟩

end StageBlock

namespace SessionReport

variable {blocks : List StageBlock} {r : SessionReport}

theorem ofBlocks_ok_iff : ofBlocks blocks = .ok r ↔
    ∃ experiments, ExperimentReport.ofAll (blocks.filterMap StageBlock.outcome?) = .ok experiments ∧
      r = {
        payload := {
          events := blocks.flatMap StageBlock.events
          actions := blocks.flatMap StageBlock.actions
          streams := Table.ofList (blocks.filterMap StageBlock.streams?)
          experiments
          monitors := MonitorReport.ofSeries (blocks.flatMap fun b => b.facts.monitors)
            (Table.ofList (blocks.filterMap StageBlock.users?)) }
        overviews := blocks.map StageBlock.overview } := by
  constructor
  · intro made
    obtain ⟨experiments, gathered, made⟩ := Outcome.bind_ok made
    cases made
    exact ⟨experiments, gathered, rfl⟩
  · rintro ⟨experiments, gathered, rfl⟩
    rw [ofBlocks, gathered]
    rfl

end SessionReport

end BenchReport
