import BenchReport.Proofs.Session.Collecting
import BenchReport.Proofs.Session.StageReport
set_option autoImplicit false

namespace BenchReport

open StageTally (totalOf)

theorem totalOf_append (front back : List ActionMetrics) :
    totalOf (front ++ back) = totalOf front + totalOf back := by
  simp only [totalOf, List.map_append, List.sum_append]

/-- Two lists are permutations of each other when those of each key are. -/
theorem perm_iff_keys {α κ : Type} [DecidableEq α] [DecidableEq κ] (key : α → κ) (xs ys : List α) :
    xs.Perm ys ↔ ∀ k, (xs.filter fun x => key x = k).Perm (ys.filter fun y => key y = k) := by
  constructor
  · intro perm k
    exact perm.filter _
  · intro perms
    rw [List.perm_iff_count]
    intro x
    have counts := (perms (key x)).count_eq x
    rwa [List.count_filter (by simp), List.count_filter (by simp)] at counts

namespace RecordedStage

def results (s : RecordedStage) : List Observation := StageBlock.resultsOf s.workers

/-- Every result makes an event. -/
def Sound (s : RecordedStage) : Prop :=
  ∀ o ∈ s.results, ∃ e, Event.ofObservation o s.facts.stage = .ok e

/-- The events that the results make in their own stage. -/
def events (s : RecordedStage) : List Event :=
  s.results.filterMap fun o => (Event.ofObservation o s.facts.stage).toOption

theorem stage_of_mem_events {s : RecordedStage} {e : Event} (mem : e ∈ s.events) :
    e.stage = s.facts.stage := by
  obtain ⟨o, _, made⟩ := List.mem_filterMap.1 mem
  cases outcome : Event.ofObservation o s.facts.stage with
  | error _ =>
      rw [outcome] at made
      cases made
  | ok e' =>
      rw [outcome] at made
      cases made
      exact (Event.madeOf outcome).stage

theorem sound_of_normalised {s : RecordedStage} {es : List Event}
    (normalised : Normalised s.facts.stage s.results es) : s.Sound ∧ s.events = es := by
  simp only [Sound, events]
  generalize s.results = os at normalised
  induction normalised with
  | nil => exact ⟨fun _ mem => (nomatch mem), rfl⟩
  | @cons o e os es made _ ih =>
      constructor
      · intro o' mem
        rcases List.mem_cons.1 mem with rfl | mem
        · exact ⟨e, made⟩
        · exact ih.1 o' mem
      · rw [List.filterMap_cons, made, ← ih.2]
        rfl

theorem Sound.length_events {s : RecordedStage} (sound : s.Sound) :
    s.events.length = s.results.length := by
  revert sound
  simp only [Sound, events]
  generalize s.results = os
  intro sound
  induction os with
  | nil => rfl
  | cons o rest ih =>
      obtain ⟨e, made⟩ := sound o List.mem_cons_self
      rw [List.filterMap_cons, made]
      exact congrArg (· + 1) (ih fun o' mem => sound o' (List.mem_cons_of_mem _ mem))

end RecordedStage

namespace RecordedSession

def entries (session : RecordedSession) (name : String) : List RecordedStage :=
  session.stages.filter fun s => s.facts.stage == name

theorem find?_eq_head? (session : RecordedSession) (name : String) :
    session.find? name = (session.entries name).head? :=
  List.head?_filter.symm

def served (session : RecordedSession) (name : String) : List Event :=
  ((session.entries name).head?.map RecordedStage.events).getD []

/-- The entries behind the first of a name together hold the results of the first as often as there
are such entries. -/
def RepeatsAlike (session : RecordedSession) : Prop :=
  ∀ name first rest, session.entries name = first :: rest →
    (∀ s ∈ rest, s.Sound) ∧
      (rest.flatMap RecordedStage.events).Perm (rest.flatMap fun _ => first.events)

/-- The report has an event for each result of the session, made in the stage that the result is
stored in, and counts as many. -/
structure Conserves (session : RecordedSession) (report : SessionReport) : Prop where
  sound : ∀ s ∈ session.stages, s.Sound
  events : report.payload.events.Perm (session.stages.flatMap RecordedStage.events)
  totals : totalOf report.payload.actions = (session.stages.flatMap RecordedStage.results).length

theorem length_events {session : RecordedSession} (sound : ∀ s ∈ session.stages, s.Sound) :
    (session.stages.flatMap RecordedStage.events).length =
      (session.stages.flatMap RecordedStage.results).length := by
  rw [List.length_flatMap, List.length_flatMap]
  exact congrArg List.sum (List.map_congr_left fun s mem => (sound s mem).length_events)

section Names

variable {session : RecordedSession}

theorem stage_of_mem_entries {name : String} {s : RecordedStage}
    (mem : s ∈ session.entries name) : s.facts.stage = name :=
  eq_of_beq (List.mem_filter.1 mem).2

/-- Of the events that the entries make, those of a stage are made by the entries of its name. -/
theorem filter_flatMap_stages (make : RecordedStage → List Event)
    (own : ∀ s ∈ session.stages, ∀ e ∈ make s, e.stage = s.facts.stage) (name : String) :
    (session.stages.flatMap make).filter (fun e => e.stage = name) =
      (session.entries name).flatMap make := by
  rw [entries]
  generalize session.stages = stages at own
  induction stages with
  | nil => rfl
  | cons s rest ih =>
      have ih := ih fun s' mem => own s' (List.mem_cons_of_mem _ mem)
      have of_s := own s List.mem_cons_self
      rw [List.flatMap_cons, List.filter_append, ih, List.filter_cons]
      by_cases same : s.facts.stage = name
      · have all : (make s).filter (fun e => e.stage = name) = make s :=
          List.filter_eq_self.2 fun e mem => decide_eq_true ((of_s e mem).trans same)
        rw [all, if_pos (beq_iff_eq.2 same), List.flatMap_cons]
      · have none : (make s).filter (fun e => e.stage = name) = [] :=
          List.filter_eq_nil_iff.2 fun e mem eq =>
            same ((of_s e mem).symm.trans (of_decide_eq_true eq))
        rw [none, if_neg (mt beq_iff_eq.1 same), List.nil_append]

theorem stage_of_mem_served {name : String} {e : Event} (mem : e ∈ session.served name) :
    e.stage = name := by
  rw [served] at mem
  cases found : session.entries name with
  | nil =>
      rw [found] at mem
      cases mem
  | cons first rest =>
      rw [found] at mem
      have first_mem : first ∈ session.entries name := found ▸ List.mem_cons_self
      exact (RecordedStage.stage_of_mem_events mem).trans (stage_of_mem_entries first_mem)

/-- What is served is what is stored exactly when the further entries of each name repeat the
first. -/
theorem served_perm_iff :
    (session.stages.flatMap fun s => session.served s.facts.stage).Perm
        (session.stages.flatMap RecordedStage.events) ↔
      ∀ name first rest, session.entries name = first :: rest →
        (rest.flatMap RecordedStage.events).Perm (rest.flatMap fun _ => first.events) := by
  have by_name (name : String) :
      (session.entries name).flatMap (fun s => session.served s.facts.stage) =
        (session.entries name).flatMap fun _ => session.served name :=
    List.flatMap_congr fun s mem => by rw [stage_of_mem_entries mem]
  rw [perm_iff_keys Event.stage]
  constructor
  · intro perms name first rest found
    have perm := perms name
    rw [filter_flatMap_stages _ (fun s _ e mem => stage_of_mem_served mem),
      filter_flatMap_stages _ (fun s _ e mem => RecordedStage.stage_of_mem_events mem), by_name,
      served, found] at perm
    exact ((List.perm_append_left_iff first.events).1 perm).symm
  · intro alike name
    rw [filter_flatMap_stages _ (fun s _ e mem => stage_of_mem_served mem),
      filter_flatMap_stages _ (fun s _ e mem => RecordedStage.stage_of_mem_events mem), by_name]
    cases found : session.entries name with
    | nil => exact .nil
    | cons first rest =>
        rw [served, found]
        exact (alike name first rest found).symm.append_left first.events

/-- A session whose stages have different names holds no entry behind another. -/
theorem repeatsAlike_of_distinct
    (distinct : (session.stages.map fun s => s.facts.stage).Nodup) : RepeatsAlike session := by
  intro name first rest found
  have distinct_entries : ((first :: rest).map fun s => s.facts.stage).Nodup := by
    rw [← found]
    exact distinct.sublist (List.filter_sublist.map _)
  have none : rest = [] := by
    apply List.eq_nil_iff_forall_not_mem.2
    intro s mem
    have first_stage : first.facts.stage = name := stage_of_mem_entries (found ▸ List.mem_cons_self)
    have stage : s.facts.stage = name :=
      stage_of_mem_entries (found ▸ List.mem_cons_of_mem first mem)
    refine (List.nodup_cons.1 distinct_entries).1 (List.mem_map.2 ⟨s, mem, ?_⟩)
    exact stage.trans first_stage.symm
  rw [none]
  exact ⟨fun _ mem => (nomatch mem), .nil⟩

end Names

end RecordedSession

namespace Archive

open RecordedSession (Conserves RepeatsAlike)

variable {session : RecordedSession}

/-- A block has the events that its name is served with. -/
theorem BlockOf.events {name : String} {block : StageBlock} (made : BlockOf session name block)
    (fits : ∀ s ∈ session.stages, s.results.length < 2 ^ 64) :
    block.events.Perm (session.served name) ∧
      totalOf block.actions = (session.served name).length ∧
      ∃ first rest, session.entries name = first :: rest ∧ first.Sound := by
  obtain ⟨first, stored, found, made⟩ := made
  rw [RecordedSession.find?_eq_head?] at found
  obtain ⟨rest, entries⟩ := List.head?_eq_some_iff.1 found
  have mem : first ∈ session.entries name := entries ▸ List.mem_cons_self
  have stage_eq := RecordedSession.stage_of_mem_entries mem
  obtain ⟨es, normalised, perm, total⟩ :=
    StageBlock.ofStage_ok (fits first (List.mem_filter.1 mem).1) made
  rw [← stage_eq] at normalised
  obtain ⟨sound, events_eq⟩ := RecordedStage.sound_of_normalised normalised
  have served : session.served name = es := by
    rw [RecordedSession.served, entries, ← events_eq]
    rfl
  rw [served]
  exact ⟨perm, total, first, rest, entries, sound⟩

theorem blocks_events {names : List String} {blocks : List StageBlock}
    (made : List.Forall₂ (BlockOf session) names blocks)
    (fits : ∀ s ∈ session.stages, s.results.length < 2 ^ 64) :
    (blocks.flatMap StageBlock.events).Perm (names.flatMap session.served) ∧
      totalOf (blocks.flatMap StageBlock.actions) = (names.flatMap session.served).length ∧
      ∀ name ∈ names, ∃ first rest, session.entries name = first :: rest ∧ first.Sound := by
  induction made with
  | nil => exact ⟨.nil, rfl, fun _ mem => nomatch mem⟩
  | cons first _ ih =>
      obtain ⟨perm, total, sound⟩ := first.events fits
      obtain ⟨perm_rest, total_rest, sound_rest⟩ := ih
      refine ⟨perm.append perm_rest, ?_, ?_⟩
      · rw [List.flatMap_cons, List.flatMap_cons, totalOf_append, List.length_append, total,
          total_rest]
      · intro name mem
        rcases List.mem_cons.1 mem with rfl | mem
        · exact sound
        · exact sound_rest name mem

/-- What reaches the report of an accepted session: each entry adds the results of the first entry
of its name. -/
theorem collect_served {a t : Archive} {report : SessionReport} (loaded : a.load = .ok session)
    (collected : source.collect.run.run a = (.ok report, t))
    (fits : ∀ s ∈ session.stages, s.results.length < 2 ^ 64) :
    report.payload.events.Perm (session.stages.flatMap fun s => session.served s.facts.stage) ∧
      totalOf report.payload.actions =
        (session.stages.flatMap fun s => session.served s.facts.stage).length ∧
      ∀ s ∈ session.stages, ∃ first rest,
        session.entries s.facts.stage = first :: rest ∧ first.Sound := by
  obtain ⟨session', blocks, loaded', made, gathered⟩ := collect_ok collected
  rw [loaded] at loaded'
  cases loaded'
  obtain ⟨_, -, rfl⟩ := SessionReport.ofBlocks_ok_iff.1 gathered
  obtain ⟨perm, total, sound⟩ := blocks_events made fits
  rw [List.flatMap_map] at perm total
  exact ⟨perm, total, fun s mem => sound _ (List.mem_map.2 ⟨s, mem, rfl⟩)⟩

/-- Stored results are neither lost nor duplicated exactly when the further entries of each stage
name repeat the first. A list in memory is shorter than `2 ^ 64`. -/
theorem collect_conserves_iff {a t : Archive} {report : SessionReport}
    (loaded : a.load = .ok session) (collected : source.collect.run.run a = (.ok report, t))
    (fits : ∀ s ∈ session.stages, s.results.length < 2 ^ 64) :
    Conserves session report ↔ RepeatsAlike session := by
  obtain ⟨perm, total, first_sound⟩ := collect_served loaded collected fits
  constructor
  · intro conserves name first rest entries
    have served := perm.symm.trans conserves.events
    refine ⟨fun s mem => ?_, RecordedSession.served_perm_iff.1 served name first rest entries⟩
    have of_name : s ∈ session.entries name := entries ▸ List.mem_cons_of_mem _ mem
    exact conserves.sound s (List.mem_filter.1 of_name).1
  · intro alike
    have sound : ∀ s ∈ session.stages, s.Sound := by
      intro s mem
      obtain ⟨first, rest, entries, sound⟩ := first_sound s mem
      have own : s ∈ session.entries s.facts.stage :=
        List.mem_filter.2 ⟨mem, beq_iff_eq.2 rfl⟩
      rw [entries] at own
      rcases List.mem_cons.1 own with rfl | later
      · exact sound
      · exact (alike _ first rest entries).1 s later
    have served := RecordedSession.served_perm_iff.2 fun name first rest entries =>
      (alike name first rest entries).2
    refine ⟨sound, perm.trans served, ?_⟩
    rw [total, served.length_eq, RecordedSession.length_events sound]

/-- An archive of a session with two entries. Only in the first a worker left a result. -/
def ofTwoEntries (first second : String) : Archive :=
  let summary (stage : String) :=
    "\x7b\"summary\":\x7b\"stage\":\"" ++ stage ++ "\",\"total_elapsed\":1\x7d,\"workers\":["
  let worker := "\x7b\"worker\":0,\"results\":[\x7b\"name\":\"login\",\"type\":\"http\"\x7d]\x7d"
  let text := "\x7b\"stages\":[" ++ summary first ++ worker ++ "]\x7d," ++ summary second ++
    "]\x7d]\x7d"
  ofPath (Files.ofList [("session.json", text.toUTF8)]) "session.json"

/-- The names of the stages, the number of their results and the number of events reported. -/
def census (a : Archive) : Option (List String × Nat × Nat) :=
  match a.load, (source.collect.run.run a).1 with
  | .ok session, .ok report =>
    some (session.stages.map fun s => s.facts.stage,
      (session.stages.flatMap RecordedStage.results).length, report.payload.events.length)
  | _, _ => none

theorem census_spec {a : Archive} {names : List String} {stored reported : Nat}
    (told : census a = some (names, stored, reported)) :
    ∃ session report t, a.load = .ok session ∧ source.collect.run.run a = (.ok report, t) ∧
      (session.stages.map fun s => s.facts.stage) = names ∧
      (session.stages.flatMap RecordedStage.results).length = stored ∧
      report.payload.events.length = reported := by
  have surveyed : survey (fun session report => (session.stages.map fun s => s.facts.stage,
      (session.stages.flatMap RecordedStage.results).length, report.payload.events.length)) a =
        some (names, stored, reported) := told
  obtain ⟨session, report, t, loaded, collected, same⟩ := survey_spec _ surveyed
  cases same
  exact ⟨session, report, t, loaded, collected, rfl, rfl, rfl⟩

theorem results_length_le {session : RecordedSession} {s : RecordedStage}
    (mem : s ∈ session.stages) :
    s.results.length ≤ (session.stages.flatMap RecordedStage.results).length := by
  rw [List.flatMap]
  exact (List.sublist_flatten_of_mem (List.mem_map.2 ⟨s, mem, rfl⟩)).length_le

theorem collect_conserves_distinct :
    ∃ session report t, (ofTwoEntries "a" "b").load = .ok session ∧
      source.collect.run.run (ofTwoEntries "a" "b") = (.ok report, t) ∧
      (∀ s ∈ session.stages, s.results.length < 2 ^ 64) ∧ Conserves session report := by
  have told : census (ofTwoEntries "a" "b") = some (["a", "b"], 1, 1) := by decide +kernel
  obtain ⟨session, report, t, loaded, collected, names, stored, -⟩ := census_spec told
  have fits : ∀ s ∈ session.stages, s.results.length < 2 ^ 64 := by
    intro s mem
    have few := results_length_le mem
    omega
  refine ⟨session, report, t, loaded, collected, fits, ?_⟩
  apply (collect_conserves_iff loaded collected fits).2
  apply RecordedSession.repeatsAlike_of_distinct
  rw [names]
  decide

/-- With one name for both entries the result is reported twice. -/
theorem collect_not_conserves :
    ∃ session report t, (ofTwoEntries "a" "a").load = .ok session ∧
      source.collect.run.run (ofTwoEntries "a" "a") = (.ok report, t) ∧
      ¬ Conserves session report := by
  have told : census (ofTwoEntries "a" "a") = some (["a", "a"], 1, 2) := by decide +kernel
  obtain ⟨session, report, t, loaded, collected, -, stored, reported⟩ := census_spec told
  refine ⟨session, report, t, loaded, collected, fun conserves => ?_⟩
  have count := conserves.events.length_eq
  rw [RecordedSession.length_events conserves.sound] at count
  omega

end Archive

end BenchReport
