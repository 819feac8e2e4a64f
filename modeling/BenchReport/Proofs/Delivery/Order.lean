import BenchReport.Proofs.Delivery.Closing
set_option autoImplicit false

namespace BenchReport

def Category.Before (c d : Category) : Prop := Category.all.idxOf c < Category.all.idxOf d

instance (c d : Category) : Decidable (c.Before d) := inferInstanceAs (Decidable (_ < _))

theorem Category.all_ordered : Category.all.Pairwise Category.Before := by decide

/-- Both lists of a delivery are in order, and every category is in exactly one of them. -/
structure Delivery.Complete (d : Delivery) : Prop where
  submitted : d.submitted.Pairwise Category.Before
  skipped : d.skipped.Pairwise Category.Before
  disjoint : ∀ c ∈ d.submitted, c ∉ d.skipped
  all : (d.submitted ++ d.skipped).Perm Category.all

namespace Backend

variable {σ : Type} {b : Backend σ} {p : Payload}

/-- Calls come to their end, with any result, and the run is not cancelled meanwhile. -/
structure Steady (b : Backend σ) : Prop where
  connect : ∀ s, ∃ result t, b.connect.run s = (.done result false, t)
  submit : ∀ c p s, ∃ result t, (b.submit c p).run s = (.done result false, t)
  close : ∀ s, ∃ result t, b.close.run s = (.done result false, t)

/-- Submissions made one after another, each with its result. -/
inductive Answered (b : Backend σ) (p : Payload) :
    σ → List (Category × Except Error Unit) → σ → Prop where
  | none {s : σ} : Answered b p s [] s
  | submission {c : Category} {result : Except Error Unit}
      {rest : List (Category × Except Error Unit)} {s t u : σ}
      (replied : (b.submit c p).run s = (.done result false, t)) (others : Answered b p t rest u) :
      Answered b p s ((c, result) :: rest) u

theorem Steady.recorded (steady : b.Steady) : b.recorded.Steady where
  connect s := by
    obtain ⟨result, t, replied⟩ := steady.connect s.1
    refine ⟨result, (t, s.2 ++ [.connect]), ?_⟩
    change ((b.connect.run s.1).1, ((b.connect.run s.1).2, _)) = _
    rw [replied]
  submit c p s := by
    obtain ⟨result, t, replied⟩ := steady.submit c p s.1
    refine ⟨result, (t, s.2 ++ [.submit c]), ?_⟩
    change (((b.submit c p).run s.1).1, (((b.submit c p).run s.1).2, _)) = _
    rw [replied]
  close s := by
    obtain ⟨result, t, replied⟩ := steady.close s.1
    refine ⟨result, (t, s.2 ++ [.close]), ?_⟩
    change ((b.close.run s.1).1, ((b.close.run s.1).2, _)) = _
    rw [replied]

/-- The record tells the submissions that were made. -/
theorem Answered.of_recorded {s u : σ × List BackendCall}
    {made : List (Category × Except Error Unit)} (answered : b.recorded.Answered p s made u) :
    b.Answered p s.1 made u.1 ∧ u.2 = s.2 ++ made.map fun m => .submit m.1 := by
  induction answered with
  | none => exact ⟨.none, (List.append_nil _).symm⟩
  | @submission c result rest s t u replied _ ih =>
      obtain ⟨others, log⟩ := ih
      have reply : ((b.submit c p).run s.1).1 = .done result false := congrArg Prod.fst replied
      have next : ((b.submit c p).run s.1).2 = t.1 := congrArg (fun r => r.2.1) replied
      have logged : s.2 ++ [.submit c] = t.2 := congrArg (fun r => r.2.2) replied
      refine ⟨.submission (Prod.ext reply next) others, ?_⟩
      rw [log, ← logged, List.append_assoc]
      rfl

/-- What becomes of the submissions for a list of categories that are added to a delivery: all that
were due passed and the categories were sorted by that, or the last one failed. -/
inductive Settled (due cs : List Category) (d : Delivery)
    (made : List (Category × Except Error Unit)) : Except Error Delivery → Prop where
  | passed {skips : List Category} (passed : ∀ m ∈ made, Passed m.2)
      (all : made.map Prod.fst = due) (sorted : skips.Sublist cs)
      (parts : ((made.filter fun m => m.2.isOk).map Prod.fst ++ skips).Perm cs) :
      Settled due cs d made (.ok ⟨d.submitted ++ (made.filter fun m => m.2.isOk).map Prod.fst,
        d.skipped ++ skips⟩)
  | failed {front : List (Category × Except Error Unit)} {c : Category} {e : Error}
      (last : made = front ++ [(c, .error e)]) (passed : ∀ m ∈ front, Passed m.2)
      (failed : e.kind ≠ .unsupported) (first : made.map Prod.fst <+: due) :
      Settled due cs d made (.error e)

section Steps

variable {c : Category} {due cs : List Category} {d : Delivery}
  {made : List (Category × Except Error Unit)} {outcome : Except Error Delivery}

/-- A category that is not due is skipped. -/
theorem Settled.skip (settled : Settled due cs (d.skip c) made outcome) :
    Settled due (c :: cs) d made outcome := by
  cases settled with
  | @passed skips passed all sorted parts =>
      change Settled due (c :: cs) d made (.ok ⟨_, d.skipped ++ [c] ++ skips⟩)
      rw [List.append_assoc, List.singleton_append]
      exact .passed passed all (sorted.cons_cons c) (List.perm_middle.trans (parts.cons c))
  | failed last passed failed first => exact .failed last passed failed first

theorem passed_cons {result : Except Error Unit} (first : Passed result)
    (others : ∀ m ∈ made, Passed m.2) : ∀ m ∈ (c, result) :: made, Passed m.2 := by
  intro m mem
  rcases List.mem_cons.1 mem with rfl | later
  · exact first
  · exact others m later

/-- A submission that passed is filed, and the others follow. -/
theorem Settled.pass {result : Except Error Unit} (passed_first : Passed result)
    (settled : Settled due cs (file d c result) made outcome) :
    Settled (c :: due) (c :: cs) d ((c, result) :: made) outcome := by
  cases settled with
  | @passed skips passed all sorted parts =>
      have all_due : ((c, result) :: made).map Prod.fst = c :: due := by rw [List.map_cons, all]
      cases result with
      | ok _ =>
          have taken : ((c, Except.ok ()) :: made).filter (fun m => m.2.isOk) =
              (c, Except.ok ()) :: made.filter fun m => m.2.isOk := List.filter_cons_of_pos rfl
          have settled : Settled (c :: due) (c :: cs) d ((c, .ok ()) :: made) _ :=
            .passed (passed_cons passed_first passed) all_due (sorted.cons c)
              (by rw [taken]; exact parts.cons c)
          rw [taken, List.map_cons] at settled
          change Settled (c :: due) (c :: cs) d _ (.ok ⟨d.submitted ++ [c] ++ _, d.skipped ++ skips⟩)
          rw [List.append_assoc, List.singleton_append]
          exact settled
      | error e =>
          have refused : ((c, Except.error e) :: made).filter (fun m => m.2.isOk) =
              made.filter fun m => m.2.isOk := List.filter_cons_of_neg Bool.false_ne_true
          have settled : Settled (c :: due) (c :: cs) d ((c, .error e) :: made) _ :=
            .passed (passed_cons passed_first passed) all_due (sorted.cons_cons c)
              (by rw [refused]; exact List.perm_middle.trans (parts.cons c))
          rw [refused] at settled
          change Settled (c :: due) (c :: cs) d _ (.ok ⟨_, d.skipped ++ [c] ++ skips⟩)
          rw [List.append_assoc, List.singleton_append]
          exact settled
  | @failed front c' e last passed failed first =>
      have last_cons : (c, result) :: made = ((c, result) :: front) ++ [(c', .error e)] := by
        rw [last]
        rfl
      exact .failed last_cons (passed_cons passed_first passed) failed
        (List.cons_prefix_cons.2 ⟨rfl, first⟩)

end Steps

/-- The submissions of a run that is not cancelled. -/
theorem submitAll_settled (steady : b.Steady) (p : Payload) (cs : List Category) (d : Delivery)
    (s : σ) :
    ∃ made outcome u, b.Answered p s made u ∧
      (b.submitAll p cs false d).run s = ((outcome, false), u) ∧
        Settled (b.due p cs) cs d made outcome := by
  induction cs generalizing d s with
  | nil =>
      refine ⟨[], .ok d, s, .none, rfl, ?_⟩
      have settled : Settled [] [] d [] (.ok ⟨d.submitted ++ [], d.skipped ++ []⟩) :=
        .passed (fun m mem => absurd mem List.not_mem_nil) rfl (List.Sublist.refl []) (.refl [])
      rwa [List.append_nil, List.append_nil] at settled
  | cons c rest ih =>
      by_cases handed : (p.has c && b.supports c) = true
      · obtain ⟨result, t, replied⟩ := steady.submit c p s
        have answered : (step c.step (b.submit c p) false).run s = ((result, false), t) := by
          rw [step_run, replied]
          rfl
        rcases passed_or_failed result with passed | ⟨e, rfl, failed⟩
        · obtain ⟨made, outcome, u, others, run, settled⟩ := ih (file d c result) t
          refine ⟨(c, result) :: made, outcome, u, .submission replied others, ?_, ?_⟩
          · rw [submitAll_passed handed answered passed, run]
          · rw [due_cons, if_pos handed]
            exact settled.pass passed
        · refine ⟨[(c, .error e)], .error e, t, .submission replied .none,
            submitAll_failed handed answered failed, ?_⟩
          have none_before : ∀ m ∈ ([] : List (Category × Except Error Unit)), Passed m.2 :=
            fun m mem => absurd mem List.not_mem_nil
          refine .failed rfl none_before failed ?_
          rw [due_cons, if_pos handed]
          exact List.cons_prefix_cons.2 ⟨rfl, List.nil_prefix⟩
      · have skipped : (p.has c && b.supports c) = false := Bool.eq_false_iff.2 handed
        obtain ⟨made, outcome, u, answered, run, settled⟩ := ih (d.skip c) s
        refine ⟨made, outcome, u, answered, ?_, ?_⟩
        · rw [submitAll_not_due skipped, run]
        · rw [due_cons, if_neg handed]
          exact settled.skip

/-- What was sorted into a delivery of all categories. -/
theorem Settled.complete {due : List Category} {made : List (Category × Except Error Unit)}
    {d : Delivery} (ordered : due.Sublist Category.all)
    (settled : Settled due Category.all .none made (.ok d)) :
    d.Complete ∧ ∀ c, c ∈ d.submitted ↔ (c, .ok ()) ∈ made := by
  cases settled with
  | @passed skips passed all sorted parts =>
      rw [Delivery.none, List.nil_append, List.nil_append]
      have taken : ((made.filter fun m => m.2.isOk).map Prod.fst).Sublist Category.all := by
        refine (List.filter_sublist.map Prod.fst).trans ?_
        rw [all]
        exact ordered
      constructor
      · constructor
        case submitted => exact Category.all_ordered.sublist taken
        case skipped => exact Category.all_ordered.sublist sorted
        case disjoint =>
          have distinct := (List.nodup_append.1 (parts.nodup_iff.2 Category.nodup_all)).2.2
          exact fun c taken left => distinct c taken c left rfl
        case all => exact parts
      · intro c
        constructor
        · intro mem
          obtain ⟨⟨c', result⟩, kept, rfl⟩ := List.mem_map.1 mem
          obtain ⟨listed, succeeded⟩ := List.mem_filter.1 kept
          cases result with
          | ok _ => exact listed
          | error e => cases succeeded
        · intro mem
          exact List.mem_map.2 ⟨(c, .ok ()), List.mem_filter.2 ⟨mem, rfl⟩, rfl⟩

theorem Settled.made_prefix {due cs : List Category} {d : Delivery}
    {made : List (Category × Except Error Unit)} {outcome : Except Error Delivery}
    (settled : Settled due cs d made outcome) : made.map Prod.fst <+: due := by
  cases settled with
  | passed _ all _ _ => exact all ▸ List.prefix_rfl
  | failed _ _ _ first => exact first

/-- A delivery that nobody cancels, once connected: the submissions made, each with its result, are
the first of those that are due, in order, up to the first failure that is no refusal, and then the
backend is closed once. Without such a failure all that are due are made, and unless closing fails
the report tells exactly which of them succeeded and that all other categories were skipped. Such a
failure is told whatever closing comes to. -/
theorem deliver_in_order (steady : b.Steady) (p : Payload) {s t : σ}
    (connected : b.connect.run s = (.done (.ok ()) false, t)) :
    ∃ made u closed v result, b.Answered p t made u ∧ b.close.run u = (.done closed false, v) ∧
      (b.deliver p false).run s = (result, v) ∧
      b.calls p false s = .connect :: made.map (fun m => .submit m.1) ++ [.close] ∧
      (made.map Prod.fst).Pairwise Category.Before ∧ made.map Prod.fst <+: b.due p Category.all ∧
      (((∀ m ∈ made, Passed m.2) ∧ made.map Prod.fst = b.due p Category.all ∧
          ((∃ d, closed = .ok () ∧ result = .ok d ∧ d.Complete ∧
              ∀ c, c ∈ d.submitted ↔ (c, .ok ()) ∈ made) ∨
            ∃ e, closed = .error e ∧ result = .error e)) ∨
        ∃ front c e, made = front ++ [(c, .error e)] ∧ (∀ m ∈ front, Passed m.2) ∧
          e.kind ≠ .unsupported ∧ result = .error e) := by
  have opened : (step "connect" b.connect false).run s = ((.ok (), false), t) := by
    rw [step_run, connected]
    rfl
  have opened_recorded := step_noted "connect" .connect b.connect false s []
  rw [opened] at opened_recorded
  obtain ⟨made, outcome, ⟨u, log⟩, answered, run_recorded, settled⟩ :=
    submitAll_settled steady.recorded p Category.all .none (t, [.connect])
  obtain ⟨answered, logged⟩ := answered.of_recorded
  change b.Answered p t made u at answered
  change log = [.connect] ++ _ at logged
  change Settled (b.due p Category.all) Category.all .none made outcome at settled
  -- The run with a record is the plain run, so what it settles is settled for the backend itself.
  obtain ⟨_, -, kept⟩ := submitAll_recorded b p Category.all false .none t [.connect]
  rw [run_recorded] at kept
  have same_outcome := congrArg Prod.fst kept
  have same_state := congrArg (fun r => r.2.1) kept
  have run : (b.submitAll p Category.all false .none).run t = ((outcome, false), u) :=
    Prod.ext same_outcome.symm same_state.symm
  obtain ⟨closed, v, replied⟩ := steady.close u
  have ordered : (made.map Prod.fst).Pairwise Category.Before :=
    (Category.all_ordered.sublist List.filter_sublist).sublist settled.made_prefix.sublist
  cases outcome with
  | error e =>
      have delivered := deliver_failed opened run
      have called : b.calls p false s = log ++ [.close] := by
        rw [calls, deliver_failed (b := b.recorded) opened_recorded run_recorded]
        rfl
      rw [replied] at delivered
      refine ⟨made, u, closed, v, .error e, answered, replied, delivered, ?_, ordered,
        settled.made_prefix, .inr ?_⟩
      · rw [called, logged]
        rfl
      · cases settled with
        | @failed front c _ last passed failed _ => exact ⟨front, c, e, last, passed, failed, rfl⟩
  | ok d =>
      have judged : (step "close" b.close false).run u = ((closed, false), v) := by
        rw [step_run, replied]
        rfl
      have delivered := deliver_submitted opened run
      rw [judged] at delivered
      have called : b.calls p false s = log ++ [.close] := by
        rw [calls, deliver_submitted (b := b.recorded) opened_recorded run_recorded]
        exact congrArg (·.2.2) (step_noted "close" .close b.close false u log)
      refine ⟨made, u, closed, v, closed.map fun _ => d, answered, replied, delivered, ?_, ordered,
        settled.made_prefix, .inl ?_⟩
      · rw [called, logged]
        rfl
      · obtain ⟨complete, exact_report⟩ := settled.complete List.filter_sublist
        cases settled with
        | passed passed all _ _ =>
            refine ⟨passed, all, ?_⟩
            cases closed with
            | ok _ => exact .inl ⟨_, rfl, rfl, complete, exact_report⟩
            | error e => exact .inr ⟨e, rfl, rfl⟩

/-- A backend that refuses streams, fails to take monitors of stages, and fails to close. -/
def balking : Backend Nat where
  name := "mock"
  categories := [.stageMonitors, .streams, .events, .sessionMonitors]
  connect := pure (.done (.ok ()) false)
  submit c _ := fun n => match c with
    | .streams => (.done (.error (.unsupported "mock" .streams)) false, n + 1)
    | .stageMonitors => (.done (.error (.backend "mock" "full")) false, n + 1)
    | _ => (.done (.ok ()) false, n + 1)
  close := fun n => (.done (.error (.backend "mock" "gone")) false, n)

theorem balking_steady : balking.Steady where
  connect n := ⟨.ok (), n, rfl⟩
  submit c p n := by cases c <;> exact ⟨_, n + 1, rfl⟩
  close n := ⟨_, n, rfl⟩

/-- Its refusal is passed over, its failure is told although closing fails after it. -/
theorem deliver_in_order_balking :
    let figures : MonitorFigures := ⟨some "ramp", "load", .cpu, .zero⟩
    let p : Payload := { Payload.empty with
      streams := Table.empty.insert "ramp" ⟨"ramp", Table.empty, 0, 0, 0, []⟩
      monitors := ⟨[figures], [figures], []⟩ }
    balking.Steady ∧ balking.connect.run 0 = (.done (.ok ()) false, 0) ∧
      ∃ made u, balking.Answered p 0 made u ∧
        balking.calls p false 0 = .connect :: made.map (fun m => .submit m.1) ++ [.close] ∧
        made.map Prod.fst = [.streams, .sessionMonitors, .stageMonitors] ∧
        ((balking.deliver p false).run 0).1 = .error (.backend "mock" "full") := by
  intro figures p
  have connected : balking.connect.run 0 = (.done (.ok ()) false, 0) := rfl
  refine ⟨balking_steady, connected, ?_⟩
  obtain ⟨made, u, closed, v, result, answered, -, -, called, -, -, -⟩ :=
    deliver_in_order balking_steady p connected
  have run : balking.calls p false 0 =
      [.connect, .submit .streams, .submit .sessionMonitors, .submit .stageMonitors, .close] := rfl
  refine ⟨made, u, answered, called, ?_, rfl⟩
  rw [called] at run
  have made_calls : (made.map Prod.fst).map BackendCall.submit =
      [Category.streams, .sessionMonitors, .stageMonitors].map .submit := by
    rw [List.map_map]
    exact List.append_cancel_right (List.cons.inj run).2
  exact (List.map_inj_right fun _ _ same => BackendCall.submit.inj same).1 made_calls

end Backend

end BenchReport
