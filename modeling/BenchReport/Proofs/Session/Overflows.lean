import BenchReport.Proofs.Action.Grammar
import BenchReport.Proofs.Action.Ordering
import BenchReport.Proofs.Session.Admission
import BenchReport.Proofs.Session.Conservation
set_option autoImplicit false

namespace BenchReport

open StageBlock (resultsOf)

theorem LoadedStage.Flaw.withActions {l : LoadedStage} {e : Error} (flaw : l.Flaw e)
    (actions : List Action) : ({ l with actions } : LoadedStage).Flaw e := by
  cases flaw with
  | result worker result refused => exact .result worker result refused
  | interval worker interval refused => exact .interval worker interval refused
  | elapsed some refused => exact .elapsed some refused
  | metric some declared refused => exact .metric some declared refused

/-- What is wrong with an entry: a record that is no action, or a flaw of the stage that has nothing
to do with its actions. -/
inductive RecordedStage.Defect (s : RecordedStage) : Prop where
  | record {record : Json} {e : Error} (stored : record ∈ s.actions)
      (refused : Action.ofRecord record = .error e) : Defect s
  | flaw {e : Error} (flaw : LoadedStage.Flaw ⟨s.facts.stage, s.facts, [], s.workers⟩ e) : Defect s

/-- A block whose overview was made of true sums: of what its actions counted, and of what these
workers report. -/
structure StageBlock.SumsTruly (b : StageBlock) (workers : List WorkerOutput) : Prop where
  counter (c : StreamCount) :
    (c.counterOf b.overview).toNat = StageOverview.sumNat c.ofAction b.actions
  settled : b.overview.total.toNat = b.overview.succeeded.toNat + b.overview.failed.toNat
  /-- The bins are the sums place by place, and so is the sum of all bins, before they are brought
  down to the counter. -/
  bins (c : StreamCount) : ∃ bins whole, c.unreconciled b.streams = .ok bins ∧
    bins.map UInt64.toNat = Bins.placeSums (workers.map c.ofWorker) ∧
    Counter.sum bins = .ok whole ∧ whole.toNat = c.reported workers ∧
    Bins.reconcile bins (c.counterOf b.overview) = .ok (c.binsOf b.overview)

theorem StageBlock.ofStage_sumsTruly {stage : String} {facts : StageFacts} {stored : List Action}
    {workers : List WorkerOutput} {b : StageBlock}
    (short : ∀ w ∈ workers, w.streams.length < 2 ^ 64)
    (made : ofStage stage facts stored workers = .ok b) : b.SumsTruly workers := by
  obtain ⟨parts, each, -, viewed, -, -, streams⟩ := ofStage_ok_iff.1 made
  have covers := StageOverview.ofStage_ok_iff.1 viewed
  constructor
  case counter => exact covers.counter
  case settled => exact covers.settled
  case bins =>
    intro c
    obtain ⟨bins, added, reconciled⟩ := Outcome.bind_ok (covers.bins c)
    have total := StreamCount.total_unreconciled added
    rw [streamed_eq each] at total
    have fits := covers.streamed_lt c (length_series_lt each short c)
    rw [streamed_eq each, ← total] at fits
    obtain ⟨whole, summed⟩ := Counter.exists_sum_iff.2 fits
    rw [← streams] at added
    refine ⟨bins, whole, added, ?_, summed, (Counter.sum_ok_iff.1 summed).trans total, reconciled⟩
    rw [streams, unreconciled_eq each] at added
    exact Bins.toNat_of_addAll added

namespace RecordedStage

variable {s : RecordedStage} {b : StageBlock}

/-- The workers of the entry report more than can be counted. -/
def Overflows (s : RecordedStage) : Prop :=
  ∃ c : StreamCount, 2 ^ 64 ≤ c.reported s.workers

def block (s : RecordedStage) : Except Error StageBlock := do
  let stored ← Action.ofRecords s.actions
  StageBlock.ofStage s.facts.stage s.facts stored s.workers

/-- An entry whose records were read is as good as the stage that they belong to. -/
theorem block_of_read {stored : List Action} (read : Action.ofRecords s.actions = .ok stored) :
    s.block = LoadedStage.block ⟨s.facts.stage, s.facts, stored, s.workers⟩ ∧
      (s.Defect ↔ ∃ e, LoadedStage.Flaw ⟨s.facts.stage, s.facts, stored, s.workers⟩ e) := by
  constructor
  · rw [block, read]
    rfl
  · constructor
    · intro defect
      cases defect with
      | record mem refused =>
          obtain ⟨e, failed⟩ := Action.ofRecords_refused_iff.2 ⟨_, mem, _, refused⟩
          rw [read] at failed
          cases failed
      | flaw flaw => exact ⟨_, flaw.withActions stored⟩
    · rintro ⟨e, flaw⟩
      exact .flaw (flaw.withActions [])

theorem block_unread {e : Error} (failed : Action.ofRecords s.actions = .error e) :
    s.block = .error e ∧ e ≠ .overflow ∧ s.Defect := by
  obtain ⟨front, record, back, listed, -, refused⟩ := Action.ofRecords_error_iff.1 failed
  refine ⟨?_, ?_, ?_⟩
  · rw [block, failed]
    rfl
  · intro overflow
    have kind := Action.ofRecord_error refused
    rw [overflow] at kind
    cases kind
  · refine .record ?_ refused
    rw [listed]
    exact List.mem_append_right _ List.mem_cons_self

theorem exists_block_iff (fits : s.results.length < 2 ^ 64)
    (short : ∀ w ∈ s.workers, w.streams.length < 2 ^ 64) :
    (∃ b, s.block = .ok b) ↔ ¬ s.Defect ∧ ¬ s.Overflows := by
  cases read : Action.ofRecords s.actions with
  | error e =>
      obtain ⟨refused, -, defect⟩ := block_unread read
      rw [refused]
      constructor
      · rintro ⟨b, made⟩
        cases made
      · exact fun sound => absurd defect sound.1
  | ok stored =>
      obtain ⟨same, defect_iff⟩ := block_of_read read
      let l : LoadedStage := ⟨s.facts.stage, s.facts, stored, s.workers⟩
      rw [same, defect_iff, not_exists]
      exact LoadedStage.exists_block_iff (l := l) fits short

theorem block_overflows_iff (fits : s.results.length < 2 ^ 64)
    (short : ∀ w ∈ s.workers, w.streams.length < 2 ^ 64) :
    s.block = .error .overflow ↔ ¬ s.Defect ∧ s.Overflows := by
  cases read : Action.ofRecords s.actions with
  | error e =>
      obtain ⟨refused, other, defect⟩ := block_unread read
      rw [refused]
      constructor
      · intro same
        cases same
        exact absurd rfl other
      · exact fun sound => absurd defect sound.1
  | ok stored =>
      obtain ⟨same, defect_iff⟩ := block_of_read read
      let l : LoadedStage := ⟨s.facts.stage, s.facts, stored, s.workers⟩
      rw [same, defect_iff, not_exists]
      exact LoadedStage.block_overflows_iff (l := l) fits short

end RecordedStage

namespace Archive

variable {a : Archive} {session : RecordedSession}

def blockOf (session : RecordedSession) (name : String) : Except Error StageBlock :=
  match session.find? name with
  | some entry => entry.block
  | none => .error (.unknownStage name)

theorem blockOf_found {name : String} {entry : RecordedStage}
    (found : session.find? name = some entry) : blockOf session name = entry.block := by
  rw [blockOf, found]

theorem stage_of_find? {name : String} {entry : RecordedStage}
    (looked : session.find? name = some entry) : entry.facts.stage = name :=
  beq_iff_eq.1 (List.find?_some (p := fun s : RecordedStage => s.facts.stage == name) looked)

theorem find?_of_listed {name : String} (mem : name ∈ listed session) :
    ∃ entry, session.find? name = some entry ∧ entry ∈ session.stages := by
  obtain ⟨s, stored, rfl⟩ := List.mem_map.1 mem
  cases found : session.find? s.facts.stage with
  | some entry => exact ⟨entry, rfl, List.mem_of_find?_eq_some found⟩
  | none =>
      have other := List.find?_eq_none.1 found s stored
      exact absurd (beq_self_eq_true _) other

theorem block_run (holds : a.session = some session) (name : String) :
    (source.block name).run.run a = (blockOf session name, a) := by
  cases found : session.find? name with
  | none =>
      have missing : (stage name).run.run a = (.error (.unknownStage name), a) := by
        refine Call.bind_of_ok (connected_run holds) ?_
        rw [found]
        rfl
      rw [blockOf, found]
      exact Call.bind_of_error (Call.bind_of_error missing)
  | some entry =>
      have looked := stage_run holds found
      rw [blockOf_found found]
      cases read : Action.ofRecords entry.actions with
      | error e =>
          rw [(RecordedStage.block_unread read).1]
          refine Call.bind_of_ok (Call.bind_of_ok looked rfl)
            (Call.bind_of_error (Call.bind_of_ok looked ?_))
          rw [read]
          exact Call.lift_run _
      | ok stored =>
          rw [(RecordedStage.block_of_read read).1, stage_of_find? found]
          exact Source.block_run ((load_ok_iff holds).2 ⟨⟨entry, stored, found, read, rfl⟩, rfl⟩)

theorem blocks_run (holds : a.session = some session) (names : List String) :
    (source.blocks names).run.run a = (names.mapM (blockOf session), a) := by
  induction names with
  | nil => rfl
  | cons name rest ih =>
      have first := block_run holds name
      rw [List.mapM_cons]
      cases own : blockOf session name with
      | error e =>
          rw [own] at first
          exact Call.bind_of_error first
      | ok b =>
          rw [own] at first
          refine Call.bind_of_ok first ?_
          cases later : rest.mapM (blockOf session) with
          | error e =>
              rw [later] at ih
              exact Call.bind_of_error ih
          | ok bs =>
              rw [later] at ih
              exact Call.bind_of_ok ih rfl

/-- What becomes of a recorded session: its names are summed up one after another. -/
theorem collect_run (loaded : a.load = .ok session) :
    (source.collect.run.run a).1 =
      (listed session).mapM (blockOf session) >>= SessionReport.ofBlocks := by
  have holds : ({ a with session := some session } : Archive).session = some session := rfl
  have reported : source.report.run.run { a with session := some session } =
      ((listed session).mapM (blockOf session) >>= SessionReport.ofBlocks,
        { a with session := some session }) := by
    refine Call.bind_of_ok (Call.bind_of_ok (connected_run holds) rfl) ?_
    have summed := blocks_run holds (listed session)
    cases through : (listed session).mapM (blockOf session) with
    | error e =>
        rw [through] at summed
        exact Call.bind_of_error summed
    | ok blocks =>
        rw [through] at summed
        exact Call.bind_of_ok summed (Call.lift_run _)
  rw [Source.collect_connected (connect_of loaded) reported rfl]
  cases (listed session).mapM (blockOf session) >>= SessionReport.ofBlocks <;> rfl

def found (session : RecordedSession) (name : String) : List Observation :=
  ((session.find? name).map RecordedStage.results).getD []

theorem found_of_find? {name : String} {entry : RecordedStage}
    (looked : session.find? name = some entry) : found session name = entry.results := by
  rw [found, looked]
  rfl

theorem fits_of_found {names : List String} {name : String} {entry : RecordedStage}
    (fits : (names.flatMap (found session)).length < 2 ^ 64) (mem : name ∈ names)
    (looked : session.find? name = some entry) : entry.results.length < 2 ^ 64 := by
  rw [List.length_flatMap] at fits
  have own := List.le_sum_of_mem (List.mem_map_of_mem (f := fun n => (found session n).length) mem)
  rw [found_of_find? looked] at own
  exact Nat.lt_of_le_of_lt own fits

/-- Events that a counter can count leave the counters of all experiments room. -/
theorem exists_ofBlocks {names : List String} {blocks : List StageBlock}
    (made : List.Forall₂ (fun name b => blockOf session name = .ok b) names blocks)
    (fits : (names.flatMap (found session)).length < 2 ^ 64) :
    ∃ r, SessionReport.ofBlocks blocks = .ok r := by
  have listed := (List.forall₂_and_left _ _).2 ⟨fun _ mem => mem, made⟩
  have each : List.Forall₂ (fun name b => b.Consistent ∧
      b.events.length = (found session name).length) names blocks := by
    refine listed.imp fun name b own => ?_
    obtain ⟨mem, made⟩ := own
    cases looked : session.find? name with
    | none =>
        rw [blockOf, looked] at made
        cases made
    | some entry =>
        have few := fits_of_found fits mem looked
        rw [blockOf_found looked] at made
        obtain ⟨stored, -, made⟩ := Outcome.bind_ok made
        rw [found_of_find? looked]
        exact ⟨StageBlock.ofStage_consistent few made, StageBlock.length_events few made⟩
  apply SessionReport.exists_ofBlocks
  · intro b mem
    obtain ⟨name, -, consistent, -⟩ := Outcome.exists_of_mem each mem
    exact consistent
  · have events : (blocks.flatMap StageBlock.events).length =
        (names.flatMap (found session)).length := by
      rw [List.length_flatMap, List.length_flatMap, eq_comm]
      apply congrArg List.sum
      rw [← List.forall₂_eq_eq_eq, List.forall₂_map_left_iff, List.forall₂_map_right_iff]
      exact each.imp fun name b own => own.2.symm
    rw [events]
    exact fits

section Names

variable (fits : ((listed session).flatMap (found session)).length < 2 ^ 64)
  (short : ∀ s ∈ session.stages, ∀ w ∈ s.workers, w.streams.length < 2 ^ 64) {name : String}
  (mem : name ∈ listed session)

include fits short mem

theorem exists_blockOf_iff :
    (∃ b, blockOf session name = .ok b) ↔
      ∃ s, session.find? name = some s ∧ ¬ s.Defect ∧ ¬ s.Overflows := by
  obtain ⟨s, looked, stored⟩ := find?_of_listed mem
  rw [blockOf_found looked,
    RecordedStage.exists_block_iff (fits_of_found fits mem looked) (short s stored)]
  simp only [looked, Option.some_inj, exists_eq_left']

theorem blockOf_overflows_iff :
    blockOf session name = .error .overflow ↔
      ∃ s, session.find? name = some s ∧ ¬ s.Defect ∧ s.Overflows := by
  obtain ⟨s, looked, stored⟩ := find?_of_listed mem
  rw [blockOf_found looked,
    RecordedStage.block_overflows_iff (fits_of_found fits mem looked) (short s stored)]
  simp only [looked, Option.some_inj, exists_eq_left']

/-- A name that was summed up was summed up truly. -/
theorem blockOf_sumsTruly {b : StageBlock} (made : blockOf session name = .ok b) :
    ∃ entry, session.find? name = some entry ∧ ¬ entry.Overflows ∧ b.SumsTruly entry.workers := by
  obtain ⟨s, looked, -, narrow⟩ := (exists_blockOf_iff fits short mem).1 ⟨b, made⟩
  rw [blockOf_found looked] at made
  obtain ⟨actions, -, made⟩ := Outcome.bind_ok made
  exact ⟨s, looked, narrow,
    StageBlock.ofStage_sumsTruly (short s (List.mem_of_find?_eq_some looked)) made⟩

end Names

/-- A session overflows exactly when the workers of a stage report more of a count than a counter
holds, and neither that stage nor one before it has a defect. A session that is accepted was summed
up truly: no stage reports more than can be counted, and each of its blocks is made of true sums.
Lists in memory are shorter than `2 ^ 64`. -/
theorem collect_overflows_iff (loaded : a.load = .ok session)
    (fits : ((listed session).flatMap (found session)).length < 2 ^ 64)
    (short : ∀ s ∈ session.stages, ∀ w ∈ s.workers, w.streams.length < 2 ^ 64) :
    ((source.collect.run.run a).1 = .error .overflow ↔
      ∃ front name back entry, listed session = front ++ name :: back ∧
        (∀ earlier ∈ front, ∃ s, session.find? earlier = some s ∧ ¬ s.Defect ∧ ¬ s.Overflows) ∧
        session.find? name = some entry ∧ ¬ entry.Defect ∧ entry.Overflows) ∧
    ∀ report t, source.collect.run.run a = (.ok report, t) →
      ∃ blocks, SessionReport.ofBlocks blocks = .ok report ∧
        List.Forall₂ (fun name b => blockOf session name = .ok b ∧
          ∃ entry, session.find? name = some entry ∧ ¬ entry.Overflows ∧
            b.SumsTruly entry.workers) (listed session) blocks := by
  have collected := collect_run loaded
  constructor
  · rw [collected]
    constructor
    · intro failed
      rcases Outcome.bind_error failed with first | ⟨blocks, made, failed⟩
      · obtain ⟨front, name, back, names, before, refused⟩ := Outcome.mapM_error_iff.1 first
        have of_names {n : String} (mem : n ∈ front ++ name :: back) : n ∈ listed session := by
          rwa [names]
        obtain ⟨entry, looked, sound, wide⟩ := (blockOf_overflows_iff fits short
          (of_names (List.mem_append_right _ List.mem_cons_self))).1 refused
        refine ⟨front, name, back, entry, names, fun n mem => ?_, looked, sound, wide⟩
        exact (exists_blockOf_iff fits short (of_names (List.mem_append_left _ mem))).1
          (before n mem)
      · obtain ⟨r, gathered⟩ := exists_ofBlocks (Outcome.mapM_ok_iff.1 made) fits
        rw [gathered] at failed
        cases failed
    · rintro ⟨front, name, back, entry, names, before, looked, sound, wide⟩
      have of_names {n : String} (mem : n ∈ front ++ name :: back) : n ∈ listed session := by
        rwa [names]
      have first : (listed session).mapM (blockOf session) = .error .overflow := by
        refine Outcome.mapM_error_iff.2 ⟨front, name, back, names, fun n mem => ?_, ?_⟩
        · exact (exists_blockOf_iff fits short (of_names (List.mem_append_left _ mem))).2
            (before n mem)
        · exact (blockOf_overflows_iff fits short
            (of_names (List.mem_append_right _ List.mem_cons_self))).2
              ⟨entry, looked, sound, wide⟩
      rw [first]
      rfl
  · intro report t succeeded
    rw [succeeded] at collected
    obtain ⟨blocks, made, gathered⟩ := Outcome.bind_ok collected.symm
    have each := (List.forall₂_and_left _ _).2
      ⟨fun (name : String) (mem : name ∈ listed session) => mem, Outcome.mapM_ok_iff.1 made⟩
    exact ⟨blocks, gathered, each.imp fun name b own =>
      ⟨own.2, blockOf_sumsTruly fits short own.1 own.2⟩⟩

/-- An archive of a session with one stage, whose workers had no results. Each interval lasted a
second and completed as many actions as is told, of which none succeeded or failed. -/
def ofCompleted (workers : List (List String)) : Archive :=
  let interval (completed : String) :=
    "\x7b\"completed\":" ++ completed ++ ",\"succeeded\":0,\"failed\":0,\"batch_elapsed\":1\x7d"
  let worker (counts : List String) :=
    "\x7b\"worker\":0,\"streams\":[" ++ ",".intercalate (counts.map interval) ++ "]\x7d"
  let text := "\x7b\"stages\":[\x7b\"summary\":\x7b\"stage\":\"a\",\"total_elapsed\":1\x7d," ++
    "\"workers\":[" ++ ",".intercalate (workers.map worker) ++ "]\x7d]\x7d"
  ofPath (Files.ofList [("session.json", text.toUTF8)]) "session.json"

/-- Whether all lists of a session are short, its number of results, and the completed actions that
the workers of its stage report: all, and place by place. -/
def weighed (a : Archive) : Option (Bool × Nat × Option (List Nat)) :=
  a.load.toOption.map fun session =>
    (decide (∀ s ∈ session.stages, ∀ w ∈ s.workers, w.streams.length < 2 ^ 64),
      ((listed session).flatMap (found session)).length,
      (session.find? "a").map fun entry =>
        StreamCount.completed.reported entry.workers ::
          Bins.placeSums (entry.workers.map StreamCount.completed.ofWorker))

theorem weighed_spec {a : Archive} {results : Nat} {counts : List Nat}
    (told : weighed a = some (true, results, some counts)) :
    ∃ session entry, a.load = .ok session ∧ session.find? "a" = some entry ∧
      (∀ s ∈ session.stages, ∀ w ∈ s.workers, w.streams.length < 2 ^ 64) ∧
      ((listed session).flatMap (found session)).length = results ∧
      StreamCount.completed.reported entry.workers ::
        Bins.placeSums (entry.workers.map StreamCount.completed.ofWorker) = counts := by
  unfold weighed at told
  cases loaded : a.load with
  | error e =>
      rw [loaded] at told
      cases told
  | ok session =>
      rw [loaded] at told
      obtain ⟨short, told⟩ := Prod.mk.inj (Option.some.inj told)
      obtain ⟨length, told⟩ := Prod.mk.inj told
      obtain ⟨entry, looked, counted⟩ := Option.map_eq_some_iff.1 told
      exact ⟨session, entry, rfl, looked, of_decide_eq_true short, length, counted⟩

/-- The most that can be reported of a count. -/
theorem collect_overflows_iff_most :
    ∃ session report t b, (ofCompleted [["18446744073709551615"]]).load = .ok session ∧
      ((listed session).flatMap (found session)).length < 2 ^ 64 ∧
      (∀ s ∈ session.stages, ∀ w ∈ s.workers, w.streams.length < 2 ^ 64) ∧
      source.collect.run.run (ofCompleted [["18446744073709551615"]]) = (.ok report, t) ∧
      blockOf session "a" = .ok b ∧
      ∃ bins, StreamCount.completed.unreconciled b.streams = .ok bins ∧
        bins.map UInt64.toNat = [2 ^ 64 - 1] := by
  have told : weighed (ofCompleted [["18446744073709551615"]]) =
      some (true, 0, some [2 ^ 64 - 1, 2 ^ 64 - 1]) := by decide +kernel
  have accepted : (source.collect.run.run (ofCompleted [["18446744073709551615"]])).1.isOk = true := by
    decide +kernel
  obtain ⟨session, entry, loaded, looked, short, length, counts⟩ := weighed_spec told
  have fits : ((listed session).flatMap (found session)).length < 2 ^ 64 := by omega
  obtain ⟨-, truly⟩ := collect_overflows_iff loaded fits short
  rcases collected : source.collect.run.run (ofCompleted [["18446744073709551615"]]) with
    ⟨outcome, t⟩
  rw [collected] at accepted
  cases outcome with
  | error e => cases accepted
  | ok report =>
      obtain ⟨blocks, -, each⟩ := truly report t collected
      have name : "a" ∈ listed session :=
        List.mem_map.2 ⟨entry, List.mem_of_find?_eq_some looked, stage_of_find? looked⟩
      obtain ⟨b, -, made, entry', looked', -, sums⟩ := Outcome.exists_of_mem each.flip name
      rw [looked] at looked'
      cases looked'
      obtain ⟨bins, -, added, places, -⟩ := sums.bins .completed
      refine ⟨session, report, t, b, loaded, fits, short, rfl, made, bins, added, ?_⟩
      rw [places]
      exact (List.cons.inj counts).2

/-- One worker reports one action more, in two intervals. What it reports in either fits a counter,
and both sums place by place do, but not the sum of the bins. -/
theorem collect_overflows_two_intervals :
    ∃ session entry,
      (ofCompleted [["9223372036854775808", "9223372036854775808"]]).load = .ok session ∧
      session.find? "a" = some entry ∧
      Bins.placeSums (entry.workers.map StreamCount.completed.ofWorker) = [2 ^ 63, 2 ^ 63] ∧
      (source.collect.run.run
        (ofCompleted [["9223372036854775808", "9223372036854775808"]])).1 = .error .overflow := by
  have told : weighed (ofCompleted [["9223372036854775808", "9223372036854775808"]]) =
      some (true, 0, some [2 ^ 64, 2 ^ 63, 2 ^ 63]) := by decide +kernel
  have failed : (match (source.collect.run.run
      (ofCompleted [["9223372036854775808", "9223372036854775808"]])).1 with
      | .error e => some e
      | .ok _ => none) = some .overflow := by decide +kernel
  obtain ⟨session, entry, loaded, looked, -, -, counts⟩ := weighed_spec told
  refine ⟨session, entry, loaded, looked, (List.cons.inj counts).2, ?_⟩
  cases outcome : (source.collect.run.run
      (ofCompleted [["9223372036854775808", "9223372036854775808"]])).1 with
  | ok report =>
      rw [outcome] at failed
      cases failed
  | error e =>
      rw [outcome] at failed
      exact congrArg Except.error (Option.some.inj failed)

end Archive

end BenchReport
