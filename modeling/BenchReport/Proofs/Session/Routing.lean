import BenchReport.Proofs.Session.Admission
import BenchReport.Proofs.Tally.InPlace
set_option autoImplicit false

namespace BenchReport

/-- The tally of an action, which counts the events that it holds. -/
structure Tally.Collects (t : Tally) (action : String) : Prop where
  name : t.name = action
  total : t.total = UInt64.ofNat t.events.length
  routed : ∀ e ∈ t.events, e.name = action

namespace Tally.Collects

variable {t u : Tally} {action : String}

theorem empty (action stage : String) : (Tally.empty action stage).Collects action :=
  ⟨rfl, rfl, List.forall_mem_nil _⟩

theorem count (collects : t.Collects action) {e : Event} (same : e.name = action) :
    (t.count e).Collects action where
  name := collects.name
  total := by
    change t.total + 1 = UInt64.ofNat (t.events ++ [e]).length
    rw [collects.total, List.length_append, UInt64.ofNat_add]
    rfl
  routed := List.forall_mem_append.2 ⟨collects.routed, List.forall_mem_singleton.2 same⟩

theorem freeze (collects : t.Collects action) : t.freeze.Collects action :=
  ⟨collects.name, collects.total, collects.routed⟩

theorem merge (collects : t.Collects action) (other : u.Collects action) :
    (t.merge u).Collects action := by
  rcases Tally.merge_cases t u with ⟨-, merged⟩ | ⟨-, merged⟩ | merged <;> rw [merged]
  · exact collects
  · exact ⟨collects.name, other.total, other.routed⟩
  · refine ⟨collects.name, ?_, List.forall_mem_append.2 ⟨collects.routed, other.routed⟩⟩
    change t.total + u.total = UInt64.ofNat (t.events ++ u.events).length
    rw [collects.total, other.total, List.length_append, UInt64.ofNat_add]

theorem merge_ne_nil (t_some : t.events ≠ []) (u_some : u.events ≠ []) :
    (t.merge u).events ≠ [] := by
  rcases Tally.merge_cases t u with ⟨-, merged⟩ | ⟨-, merged⟩ | merged <;> rw [merged]
  · exact t_some
  · exact u_some
  · exact List.append_ne_nil_of_left_ne_nil t_some u.events

end Tally.Collects

namespace StageTally

/-- Each tally is kept under the name of its action, and holds an event. -/
def Routed (s : StageTally) : Prop :=
  ∀ action t, s.tallies.get? action = some t → t.Collects action ∧ t.events ≠ []

/-- A call on the tally of an action, which is made if there is none. What the call leaves of it is
kept, whether the call fails or not. -/
def onTally (action : String) (call : Call Tally Unit) : Call StageTally Unit :=
  ExceptT.mk fun s =>
    let (answer, t) := call.run.run (s.tallyOf action)
    (answer, { s with tallies := s.tallies.insert action t })

/-- Makes an event of an observation and counts it in the tally of its action. -/
def ingestHere (o : Observation) : Call StageTally Unit := do
  let s ← get
  let e ← (Event.ofObservation o s.stage : Except Error Event)
  onTally e.name (Tally.ingestHere e)

/-- A tally that is kept is replaced by itself. -/
theorem insert_tallyOf {s : StageTally} {action : String} {t : Tally}
    (kept : s.tallies.get? action = some t) :
    { s with tallies := s.tallies.insert action (s.tallyOf action) } = s := by
  have same : s.tallies.insert action (s.tallyOf action) = s.tallies := by
    refine Table.ext_get? fun other => ?_
    rw [Table.insert]
    by_cases eq : other = action
    · rw [eq, Table.get?_alter_self, tallyOf, kept, Option.getD_some]
    · rw [Table.get?_alter_of_ne _ _ eq]
  rw [same]

theorem ingestHere_run (s : StageTally) (o : Observation) :
    (ingestHere o).run.run s = Call.answer s (s.ingest o) := by
  rw [ingestHere, Call.run_get_bind, ingest]
  cases made : Event.ofObservation o s.stage with
  | error refused => rfl
  | ok e =>
      have run : (onTally e.name (Tally.ingestHere e)).run.run s =
          let (answer, t) := Call.answer (s.tallyOf e.name) ((s.tallyOf e.name).ingest e)
          (answer, { s with tallies := s.tallies.insert e.name t }) := by
        rw [← Tally.ingestHere_run]
        rfl
      change _ = Call.answer s ((s.tallyOf e.name).ingest e >>= fun t =>
        .ok { s with tallies := s.tallies.insert e.name t })
      refine run.trans ?_
      cases counted : (s.tallyOf e.name).ingest e with
      | ok t => rfl
      | error refused =>
          -- only a tally of another name refuses an event, and none is made with one
          cases kept : s.tallies.get? e.name with
          | none =>
              rw [tallyOf, kept, Option.getD_none, Tally.ingest_of_name rfl] at counted
              cases counted
          | some t => exact congrArg (Prod.mk _) (insert_tallyOf kept)

section Steps

variable {s u : StageTally}

theorem routed_empty (stage : String) : (empty stage).Routed := by
  intro action t kept
  have none : (empty stage).tallies.get? action = .none := rfl
  rw [none] at kept
  cases kept

theorem Routed.tallyOf (routed : s.Routed) (action : String) :
    (s.tallyOf action).Collects action := by
  rw [StageTally.tallyOf]
  cases kept : s.tallies.get? action with
  | none => exact .empty action s.stage
  | some t => exact (routed action t kept).1

/-- An observation is taken as soon as it can be made an event. -/
theorem Routed.ingest_ok (routed : s.Routed) {o : Observation} {e : Event}
    (made : Event.ofObservation o s.stage = .ok e) : s.ingest o = .ok (s.count e) := by
  have same : e.name = (s.tallyOf e.name).name := (routed.tallyOf e.name).name.symm
  rw [ingest, made]
  change (s.tallyOf e.name).ingest e >>= _ = _
  rw [Tally.ingest_of_name same]
  rfl

theorem ingest_refused {o : Observation} {e : Error}
    (refused : Event.ofObservation o s.stage = .error e) : s.ingest o = .error e := by
  rw [ingest, refused]
  rfl

theorem Routed.count (routed : s.Routed) (e : Event) : (s.count e).Routed := by
  intro action t kept
  rw [StageTally.count, Table.insert] at kept
  by_cases same : action = e.name
  · rw [same, Table.get?_alter_self] at kept
    cases kept
    rw [same]
    exact ⟨(routed.tallyOf e.name).count rfl, List.append_ne_nil_of_right_ne_nil _ (List.cons_ne_nil e [])⟩
  · rw [Table.get?_alter_of_ne _ _ same] at kept
    exact routed action t kept

theorem Routed.freeze (routed : s.Routed) : s.freeze.Routed := by
  intro action t kept
  rw [StageTally.freeze, Table.get?_map] at kept
  obtain ⟨before, bound, rfl⟩ := Option.map_eq_some_iff.1 kept
  obtain ⟨collects, some⟩ := routed action before bound
  exact ⟨collects.freeze, some⟩

theorem Routed.merge (routed : s.Routed) (other : u.Routed) : (s.merge u).Routed := by
  intro action t kept
  rw [get?_merge] at kept
  cases theirs : u.tallies.get? action with
  | none =>
      rw [theirs] at kept
      exact routed action t kept
  | some v =>
      obtain ⟨v_collects, v_some⟩ := other action v theirs
      rw [theirs] at kept
      cases ours : s.tallies.get? action with
      | none =>
          rw [ours] at kept
          cases kept
          exact ⟨v_collects, v_some⟩
      | some w =>
          obtain ⟨w_collects, w_some⟩ := routed action w ours
          rw [ours] at kept
          cases kept
          exact ⟨w_collects.merge v_collects, Tally.Collects.merge_ne_nil w_some v_some⟩

end Steps

end StageTally

/-- A way of using the tallies of a stage. Observations that are refused count as uses too. -/
inductive StageUsage where
  | start (stage : String)
  | ingest (before : StageUsage) (o : Observation)
  | freeze (before : StageUsage)
  | merge (before other : StageUsage)

namespace StageUsage

def tally : StageUsage → StageTally
  | start stage => StageTally.empty stage
  | ingest before o => ((StageTally.ingestHere o).run.run before.tally).2
  | freeze before => before.tally.freeze
  | merge before other => before.tally.merge other.tally

theorem routed (u : StageUsage) : u.tally.Routed := by
  induction u with
  | start stage => exact StageTally.routed_empty stage
  | ingest before o ih =>
      rw [tally, StageTally.ingestHere_run]
      cases made : Event.ofObservation o before.tally.stage with
      | error refused =>
          rw [StageTally.ingest_refused made]
          exact ih
      | ok e =>
          rw [ih.ingest_ok made]
          exact ih.count e
  | freeze before ih => exact ih.freeze
  | merge before other before_ih other_ih => exact before_ih.merge other_ih

/-- However the tallies of a stage were used, each is kept under its own name and holds events of
that name only, at least one, which it counted. An observation is refused exactly when no event can
be made of it, for the same reason; then all tallies are as they were, and none was made. -/
theorem tallies_routed (u : StageUsage) :
    (∀ action t, u.tally.tallies.get? action = some t →
      t.name = action ∧ t.total = UInt64.ofNat t.events.length ∧
        (t.events.length < 2 ^ 64 → 1 ≤ t.total) ∧ t.events ≠ [] ∧
        ∀ e ∈ t.events, e.name = action) ∧
    ∀ o,
      (∀ e s, (StageTally.ingestHere o).run.run u.tally = (.error e, s) ↔
        Event.ofObservation o u.tally.stage = .error e ∧ s = u.tally) ∧
      ∀ event action s,
        (StageTally.ingestHere o).run.run u.tally ≠ (.error (.misrouted event action), s) := by
  have refused_iff (o : Observation) (e : Error) (s : StageTally) :
      (StageTally.ingestHere o).run.run u.tally = (.error e, s) ↔
        Event.ofObservation o u.tally.stage = .error e ∧ s = u.tally := by
    rw [StageTally.ingestHere_run, Call.answer_eq_error_iff]
    refine and_congr_left fun _ => ?_
    cases made : Event.ofObservation o u.tally.stage with
    | error refused =>
        rw [StageTally.ingest_refused made, Except.error.injEq, Except.error.injEq]
    | ok event =>
        rw [u.routed.ingest_ok made]
        exact iff_of_false nofun nofun
  refine ⟨fun action t kept => ?_, fun o => ⟨refused_iff o, fun event action s failed => ?_⟩⟩
  · obtain ⟨⟨name, total, routed⟩, some⟩ := u.routed action t kept
    refine ⟨name, total, fun fits => ?_, some, routed⟩
    rw [UInt64.le_iff_toNat_le, total, UInt64.toNat_ofNat_of_lt' fits]
    exact List.length_pos_iff.2 some
  · rcases Event.ofObservation_error ((refused_iff o _ s).1 failed).1 with
      none | ⟨_, none⟩ | ⟨_, _, none⟩
    · cases none
    · cases none
    · cases none

/-- A timing below zero is refused, and its action has no tally afterwards. -/
theorem tallies_routed_after_refusal :
    let day := (start "day").ingest (.timed "login" 0.5 none)
    let u := (day.ingest (.timed "pay" (-1.0) none)).freeze.merge
      ((start "night").ingest (.timed "logout" 0.25 (some "timeout")))
    u.tally.tallies.keys = ["login", "logout"] ∧
      (∃ t, u.tally.tallies.get? "logout" = some t ∧ t.events.length < 2 ^ 64 ∧
        t.name = "logout" ∧ 1 ≤ t.total) ∧
      ∃ e, Event.ofObservation (.timed "pay" (-1.0) none) u.tally.stage = .error e ∧
        (StageTally.ingestHere (.timed "pay" (-1.0) none)).run.run u.tally =
          (.error e, u.tally) := by
  intro day u
  have length : (u.tally.tallies.get? "logout").map (fun t => t.events.length) = some 1 := by
    decide +kernel
  obtain ⟨t, kept, one⟩ := Option.map_eq_some_iff.1 length
  obtain ⟨tallies, calls⟩ := u.tallies_routed
  have fits : t.events.length < 2 ^ 64 := by omega
  obtain ⟨name, -, counted, -, -⟩ := tallies "logout" t kept
  obtain ⟨e, refused⟩ : ∃ e,
      Event.ofObservation (.timed "pay" (-1.0) none) u.tally.stage = .error e := ⟨_, rfl⟩
  exact ⟨by decide +kernel, ⟨t, kept, fits, name, counted fits⟩, e, refused,
    ((calls _).1 e _).2 ⟨refused, rfl⟩⟩

end StageUsage

end BenchReport
