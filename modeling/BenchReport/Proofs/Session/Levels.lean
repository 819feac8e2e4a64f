import BenchReport.Proofs.Overviews
import BenchReport.Proofs.Session.StageReport
import BenchReport.Proofs.Tally.Faithful
set_option autoImplicit false

namespace BenchReport

theorem Tally.Counted.faithful {t : Tally} {h : List Event} (counted : t.Counted h)
    (fits : h.length < 2 ^ 64) : t.Faithful h :=
  Untaken.faithful
    ⟨counted.total, counted.succeeded, counted.failed, counted.errors, counted.timings, rfl⟩ fits

theorem Event.countP_succeeded_add_failed (h : List Event) :
    h.countP Event.succeeded + h.countP (fun e => !e.succeeded) = h.length := by
  have failed : h.countP (fun e => !e.succeeded) = h.countP (fun e => ¬ e.succeeded = true) :=
    List.countP_congr fun e _ => by simp
  rw [failed, ← List.length_eq_countP_add_countP]

namespace ActionMetrics

/-- The metrics tell what the events of a list come to. -/
structure Accounts (m : ActionMetrics) (h : List Event) : Prop where
  total : m.counts.total.toNat = h.length
  succeeded : m.counts.succeeded.toNat = h.countP Event.succeeded
  failed : m.counts.failed.toNat = h.countP fun e => !e.succeeded
  ascending : m.errors.Pairwise fun x y => compare x.message y.message = .lt
  /-- A message is listed with the number of its occurrences if it occurred. -/
  errors (x : ErrorCount) :
    x ∈ m.errors ↔ x.count.toNat = (Tally.messages h).count x.message ∧ 0 < x.count.toNat
  errorSum : (m.errors.map fun x => x.count.toNat).sum = m.counts.failed.toNat

theorem mem_errors_iff {t : Tally} {h : List Event} (faithful : t.Faithful h) (x : ErrorCount) :
    x ∈ t.errors.entries.map (fun e => (⟨e.1, e.2⟩ : ErrorCount)) ↔
      x.count.toNat = (Tally.messages h).count x.message ∧ 0 < x.count.toNat := by
  obtain ⟨message, count⟩ := x
  have listed : (⟨message, count⟩ : ErrorCount) ∈
      t.errors.entries.map (fun e => (⟨e.1, e.2⟩ : ErrorCount)) ↔
        t.errors.get? message = some count := by
    rw [← Table.mem_entries_iff, List.mem_map]
    constructor
    · rintro ⟨e, mem, same⟩
      cases same
      exact mem
    · intro mem
      exact ⟨_, mem, rfl⟩
  have occurrences := faithful.errors message
  rw [listed]
  constructor
  · intro bound
    rw [bound] at occurrences
    refine ⟨occurrences, Nat.pos_of_ne_zero fun zero => ?_⟩
    have none : count = 0 := UInt64.toNat_inj.1 zero
    exact faithful.noZero message (none ▸ bound)
  · rintro ⟨exact_count, positive⟩
    change count.toNat = (Tally.messages h).count message at exact_count
    change 0 < count.toNat at positive
    cases bound : t.errors.get? message with
    | none =>
        rw [bound] at occurrences
        change 0 = _ at occurrences
        omega
    | some n =>
        rw [bound] at occurrences
        exact congrArg some (UInt64.toNat_inj.1 (occurrences.trans exact_count.symm))

theorem written_accounts {t : Tally} {h : List Event} (faithful : t.Faithful h) (rate : Float)
    (custom : Table String CustomMetric) : (written t.takeQuantiles rate custom).Accounts h where
  total := faithful.total
  succeeded := faithful.succeeded
  failed := faithful.failed
  ascending := List.pairwise_map.2 t.errors.ascending
  errors x := by
    change x ∈ t.errors.entries.map _ ↔ _
    exact mem_errors_iff faithful x
  errorSum := by
    have sum := faithful.errorSum
    rw [Table.values, List.map_map] at sum
    change ((t.errors.entries.map _).map _).sum = t.failed.toNat
    rw [List.map_map]
    exact sum

theorem Accounts.of_perm {m : ActionMetrics} {h k : List Event} (accounts : m.Accounts h)
    (perm : h.Perm k) : m.Accounts k where
  total := accounts.total.trans perm.length_eq
  succeeded := accounts.succeeded.trans (perm.countP_eq _)
  failed := accounts.failed.trans (perm.countP_eq _)
  ascending := accounts.ascending
  errors x := by
    have occurrences := (perm.filterMap fun e => e.header.error).count_eq x.message
    rw [accounts.errors x, Tally.messages, Tally.messages, occurrences]
  errorSum := accounts.errorSum

end ActionMetrics

namespace StageTally

/-- What is written of a stage: the actions in the order of their names, and for each the account of
its events. -/
theorem Holds.parts_account {s : StageTally} {h : List Event} {elapsed : Float}
    {custom : List CustomMetric} {actions : List ActionMetrics} {events : List Event}
    (holds : Holds s h) (fits : h.length < 2 ^ 64)
    (made : s.parts elapsed custom = .ok (actions, events)) :
    actions.map ActionMetrics.name = s.tallies.keys ∧
      ∀ m ∈ actions, m.Accounts (eventsOf m.name h) := by
  obtain ⟨parts, each, made⟩ := Outcome.bind_ok made
  cases made
  have written := List.forall₂_map_left_iff.1 (Outcome.mapM_ok_iff.1 each)
  have of_entry (e : String × Tally) (p : ActionMetrics × List Event)
      (mem : e ∈ s.tallies.entries) (made : part e.2 elapsed custom = .ok p) :
      e.1 = p.1.name ∧ p.1.Accounts (eventsOf e.1 h) := by
    obtain ⟨rate, declared, -, -, rfl⟩ := part_ok_iff.1 made
    have own := holds e.1
    rw [tallyOf, (Table.mem_entries_iff _ _ _).1 mem, Option.getD_some] at own
    exact ⟨own.1.symm, ActionMetrics.written_accounts
      (own.2.faithful (Nat.lt_of_le_of_lt (length_eventsOf_le e.1 h) fits)) _ _⟩
  have accounts : List.Forall₂
      (fun e p => e.1 = p.1.name ∧ p.1.Accounts (eventsOf e.1 h)) s.tallies.entries parts :=
    ((List.forall₂_and_left _ _).2 ⟨fun _ mem => mem, written⟩).imp fun e p told =>
      of_entry e p told.1 told.2
  constructor
  · have names : List.Forall₂ (· = ·) s.tallies.keys (parts.map fun p => p.1.name) :=
      List.forall₂_map_left_iff.2
        (List.forall₂_map_right_iff.2 (accounts.imp fun e p told => told.1))
    rw [List.forall₂_eq_eq_eq] at names
    rw [List.map_map, names]
    rfl
  · intro m mem
    obtain ⟨p, mem_parts, rfl⟩ := List.mem_map.1 mem
    obtain ⟨e, -, name, account⟩ := Outcome.exists_of_mem accounts mem_parts
    rw [← name]
    exact account

end StageTally

structure ActionMetrics.AllAccount (actions : List ActionMetrics) (events : List Event) : Prop where
  ascending : actions.Pairwise fun x y => compare x.name y.name = .lt
  accounts : ∀ m ∈ actions, m.Accounts (eventsOf m.name events)
  covered : ∀ e ∈ events, e.name ∈ actions.map ActionMetrics.name

/-- All levels of a block count its events. -/
structure StageBlock.Consistent (b : StageBlock) : Prop where
  ascending : b.actions.Pairwise fun x y => compare x.name y.name = .lt
  stage : ∀ e ∈ b.events, e.stage = b.stage
  actions : ∀ m ∈ b.actions, m.Accounts (eventsOf m.name b.events)
  covered : ∀ e ∈ b.events, e.name ∈ b.actions.map ActionMetrics.name
  total : b.overview.total.toNat = StageOverview.sumNat Counts.total b.actions
  succeeded : b.overview.succeeded.toNat = StageOverview.sumNat Counts.succeeded b.actions
  failed : b.overview.failed.toNat = StageOverview.sumNat Counts.failed b.actions

namespace ActionMetrics.AllAccount

variable {actions : List ActionMetrics} {events : List Event}

theorem distinct (account : AllAccount actions events) : (actions.map ActionMetrics.name).Nodup :=
  List.pairwise_map.2 (account.ascending.imp fun before same => by
    rw [same, Std.compare_self] at before
    cases before)

/-- Counts of the events of each action make up the count of all events. -/
theorem sumNat_eq (account : AllAccount actions events) {get : Counts → UInt64} {p : Event → Bool}
    (counts : ∀ m ∈ actions, (get m.counts).toNat = (eventsOf m.name events).countP p) :
    StageOverview.sumNat get actions = events.countP p := by
  have sorted := flatMap_eventsOf_perm _ events account.distinct account.covered
  rw [StageOverview.sumNat, List.map_congr_left counts, ← sorted.countP_eq p, List.countP_flatMap,
    List.map_map]
  rfl

theorem total_eq (account : AllAccount actions events) :
    StageOverview.sumNat Counts.total actions = events.length := by
  rw [account.sumNat_eq (p := fun _ => true) fun m mem =>
    (account.accounts m mem).total.trans (congrFun List.countP_true _).symm]
  exact congrFun List.countP_true _

theorem succeeded_eq (account : AllAccount actions events) :
    StageOverview.sumNat Counts.succeeded actions = events.countP Event.succeeded :=
  account.sumNat_eq fun m mem => (account.accounts m mem).succeeded

theorem failed_eq (account : AllAccount actions events) :
    StageOverview.sumNat Counts.failed actions = events.countP fun e => !e.succeeded :=
  account.sumNat_eq fun m mem => (account.accounts m mem).failed

theorem balanced (account : AllAccount actions events) : StageOverview.Balanced actions := by
  rw [StageOverview.Balanced, account.total_eq, account.succeeded_eq, account.failed_eq]
  exact (Event.countP_succeeded_add_failed events).symm

/-- Counters of different actions count different events, so no sum of them exceeds their number. -/
theorem sumNat_le (account : AllAccount actions events) (c : StreamCount) :
    StageOverview.sumNat c.ofAction actions ≤ events.length := by
  cases c with
  | completed => exact account.total_eq.le
  | succeeded => exact account.succeeded_eq.le.trans List.countP_le_length
  | failed => exact account.failed_eq.le.trans List.countP_le_length

end ActionMetrics.AllAccount

namespace StageBlock

open ActionMetrics (AllAccount)

variable {stage : String} {workers : List WorkerOutput} {parts : List (StageTally × StreamSeries)}

/-- What is written of the merged tallies of a stage: its events are those of its results, and its
actions give account of them. -/
theorem parts_account {stored : List Action} {elapsed : Float} {custom : List CustomMetric}
    {actions : List ActionMetrics} {events : List Event}
    (each : List.Forall₂ (Works stage) workers parts) (fits : (resultsOf workers).length < 2 ^ 64)
    (written : (tagged (tallyAll stage parts) stored).parts elapsed custom = .ok (actions, events)) :
    AllAccount actions events ∧ (∀ e ∈ events, e.stage = stage) ∧
      events.length = (resultsOf workers).length := by
  obtain ⟨es, normalised, holds⟩ := tallies_hold each stored fits
  have count : (resultsOf workers).length = es.length := normalised.length_eq
  have fits_es : es.length < 2 ^ 64 := by omega
  have perm := (holds.parts fits_es written).1
  obtain ⟨names, accounts⟩ := holds.parts_account fits_es written
  have ascending : (actions.map ActionMetrics.name).Pairwise fun x y => compare x y = .lt := by
    rw [names]
    exact List.pairwise_map.2 (Table.ascending _)
  have covered : ∀ e ∈ events, e.name ∈ actions.map ActionMetrics.name := by
    intro e mem
    rw [names]
    exact holds.mem_keys (perm.mem_iff.1 mem)
  exact ⟨⟨List.pairwise_map.1 ascending,
    fun m mem => (accounts m mem).of_perm (perm.symm.filter _), covered⟩,
    fun e mem => normalised.stage (perm.mem_iff.1 mem), perm.length_eq.trans count.symm⟩

theorem ofStage_consistent {facts : StageFacts} {stored : List Action} {b : StageBlock}
    (fits : (resultsOf workers).length < 2 ^ 64)
    (made : ofStage stage facts stored workers = .ok b) : b.Consistent := by
  obtain ⟨parts, each, written, viewed, rfl, -⟩ := ofStage_ok_iff.1 made
  obtain ⟨account, stamped, -⟩ := parts_account each fits written
  have counter := (StageOverview.ofStage_ok_iff.1 viewed).counter
  exact ⟨account.ascending, stamped, account.accounts, account.covered, counter .completed,
    counter .succeeded, counter .failed⟩

/-- A block has an event for each result. -/
theorem length_events {facts : StageFacts} {stored : List Action} {b : StageBlock}
    (fits : (resultsOf workers).length < 2 ^ 64)
    (made : ofStage stage facts stored workers = .ok b) :
    b.events.length = (resultsOf workers).length := by
  obtain ⟨parts, each, written, -⟩ := ofStage_ok_iff.1 made
  exact (parts_account each fits written).2.2

namespace Consistent

variable {b : StageBlock}

theorem account (c : b.Consistent) : AllAccount b.actions b.events :=
  ⟨c.ascending, c.actions, c.covered⟩

/-- The overview counts the events of the block. -/
theorem total_eq (c : b.Consistent) : b.overview.total.toNat = b.events.length :=
  c.total.trans c.account.total_eq

theorem succeeded_eq (c : b.Consistent) :
    b.overview.succeeded.toNat = b.events.countP Event.succeeded :=
  c.succeeded.trans c.account.succeeded_eq

theorem failed_eq (c : b.Consistent) :
    b.overview.failed.toNat = b.events.countP fun e => !e.succeeded :=
  c.failed.trans c.account.failed_eq

end Consistent

end StageBlock

end BenchReport
