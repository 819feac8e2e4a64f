import BenchReport.Proofs.Delivery.Calls
set_option autoImplicit false

namespace BenchReport.Backend

variable {σ : Type}

theorem due_cons (b : Backend σ) (p : Payload) (c : Category) (rest : List Category) :
    b.due p (c :: rest) =
      if (p.has c && b.supports c) = true then c :: b.due p rest else b.due p rest := by
  simp only [due, List.filter_cons]

/-- Keeping a record of the submissions leaves their outcome alone, and the record grows by the
first few of the categories that are due. -/
theorem submitAll_recorded (b : Backend σ) (p : Payload) (cs : List Category) (cancelled : Bool)
    (d : Delivery) (s : σ) (log : List BackendCall) :
    ∃ made, made <+: b.due p cs ∧
      (b.recorded.submitAll p cs cancelled d).run (s, log) =
        (((b.submitAll p cs cancelled d).run s).1, ((b.submitAll p cs cancelled d).run s).2,
          log ++ made.map .submit) := by
  induction cs generalizing cancelled d s log with
  | nil => exact ⟨[], List.nil_prefix, by rw [List.map_nil, List.append_nil]; rfl⟩
  | cons c rest ih =>
      rw [due_cons]
      by_cases handed : (p.has c && b.supports c) = true
      · rw [if_pos handed]
        have noted := step_noted c.step (.submit c) (b.submit c p) cancelled s log
        rcases answered : (step c.step (b.submit c p) cancelled).run s with ⟨⟨result, now⟩, t⟩
        rw [answered] at noted
        rcases passed_or_failed result with passed | ⟨e, rfl, failed⟩
        · obtain ⟨made, fewer, rest_run⟩ := ih now (file d c result) t
            (log ++ if cancelled then [] else [.submit c])
          obtain ⟨rfl, -⟩ := step_passed answered passed
          refine ⟨c :: made, List.cons_prefix_cons.2 ⟨rfl, fewer⟩, ?_⟩
          rw [submitAll_passed (b := b.recorded) handed noted passed,
            submitAll_passed handed answered passed, rest_run]
          simp only [Bool.false_eq_true, ↓reduceIte, List.append_assoc, List.singleton_append,
            List.map_cons]
        · rw [submitAll_failed (b := b.recorded) handed noted failed,
            submitAll_failed handed answered failed]
          cases cancelled with
          | false => exact ⟨[c], List.cons_prefix_cons.2 ⟨rfl, List.nil_prefix⟩, rfl⟩
          | true => exact ⟨[], List.nil_prefix, rfl⟩
      · rw [if_neg handed]
        have skipped : (p.has c && b.supports c) = false := Bool.eq_false_iff.2 handed
        rw [submitAll_not_due (b := b.recorded) skipped, submitAll_not_due skipped]
        exact ih cancelled (d.skip c) s log

/-- What calls go through: each is made before the run is cancelled, is not given up, and succeeds
or is refused. -/
inductive Passes (b : Backend σ) (p : Payload) : List Category → Bool → σ → Bool → σ → Prop where
  | none {cancelled : Bool} {s : σ} : Passes b p [] cancelled s cancelled s
  | submission {c : Category} {rest : List Category} {result : Except Error Unit}
      {now ended : Bool} {s t u : σ} (replied : (b.submit c p).run s = (.done result now, t))
      (passed : Passed result) (others : Passes b p rest now t ended u) :
      Passes b p (c :: rest) false s ended u

/-- The submissions do not fail exactly when all that are due go through. -/
theorem passes_iff (b : Backend σ) (p : Payload) (cs : List Category) (cancelled ended : Bool)
    (d : Delivery) (s u : σ) :
    b.Passes p (b.due p cs) cancelled s ended u ↔
      ∃ d', (b.submitAll p cs cancelled d).run s = ((.ok d', ended), u) := by
  induction cs generalizing cancelled d s with
  | nil =>
      constructor
      · intro passes
        cases passes
        exact ⟨d, rfl⟩
      · rintro ⟨d', run⟩
        cases run
        exact .none
  | cons c rest ih =>
      rw [due_cons]
      by_cases handed : (p.has c && b.supports c) = true
      · rw [if_pos handed]
        constructor
        · intro passes
          cases passes with
          | @submission _ _ result now _ _ t _ replied passed others =>
              have answered : (step c.step (b.submit c p) false).run s = ((result, now), t) := by
                rw [step_run, replied]
                rfl
              rw [submitAll_passed handed answered passed]
              exact (ih now (file d c result) t).1 others
        · rintro ⟨d', run⟩
          rcases answered : (step c.step (b.submit c p) cancelled).run s with ⟨⟨result, now⟩, t⟩
          rcases passed_or_failed result with passed | ⟨e, rfl, failed⟩
          · obtain ⟨rfl, replied⟩ := step_passed answered passed
            rw [submitAll_passed handed answered passed] at run
            exact .submission replied passed ((ih now (file d c result) t).2 ⟨d', run⟩)
          · rw [submitAll_failed handed answered failed] at run
            cases run
      · rw [if_neg handed, submitAll_not_due (Bool.eq_false_iff.2 handed)]
        exact ih cancelled (d.skip c) s

/-- The calls to a backend that was connected to. It is closed unless all submissions that were due
went through and the run was cancelled by then. -/
theorem calls_connected {b : Backend σ} {p : Payload} {cancelled now ended : Bool} {s t u : σ}
    {result : Except Error Delivery}
    (connected : (step "connect" b.connect cancelled).run s = ((.ok (), now), t))
    (run : (b.submitAll p Category.all now .none).run t = ((result, ended), u)) :
    ∃ made, made <+: b.due p Category.all ∧
      b.calls p cancelled s =
        .connect :: made.map .submit ++ if result.isOk && ended then [] else [.close] := by
  have noted := step_noted "connect" .connect b.connect cancelled s []
  obtain ⟨rfl, -⟩ := step_passed connected (fun _ none => nomatch none)
  rw [connected] at noted
  obtain ⟨made, fewer, recorded_run⟩ := submitAll_recorded b p Category.all now .none t [.connect]
  rw [run] at recorded_run
  refine ⟨made, fewer, ?_⟩
  cases result with
  | error e =>
      rw [calls, deliver_failed (b := b.recorded) noted recorded_run]
      rfl
  | ok d =>
      rw [calls, deliver_submitted (b := b.recorded) noted recorded_run]
      exact congrArg (·.2.2) (step_noted "close" .close b.close ended u _)

theorem close_mem_iff (made : List Category) (given_up : Bool) :
    .close ∈ (.connect :: made.map .submit ++ if given_up then [] else [.close] :
      List BackendCall) ↔ ¬ given_up = true := by
  cases given_up <;> simp

/-- Once connected, a backend is closed on every way out but one: all submissions that were due went
through, or there were none, and the run was cancelled by then. The delivery then fails for the
close that it has given up. No call comes after the close. -/
theorem close_called_iff (b : Backend σ) (p : Payload) (cancelled now : Bool) (s t : σ)
    (connected : (step "connect" b.connect cancelled).run s = ((.ok (), now), t)) :
    (.close ∈ b.calls p cancelled s ↔
      ¬ ∃ u, b.Passes p (b.due p Category.all) now t true u) ∧
    (.close ∉ b.calls p cancelled s →
      ((b.deliver p cancelled).run s).1 = .error (.abandoned "close")) ∧
    (∃ made, made <+: b.due p Category.all ∧
      (b.calls p cancelled s = .connect :: made.map .submit ++ [.close] ∨
        b.calls p cancelled s = .connect :: made.map .submit)) := by
  rcases run : (b.submitAll p Category.all now .none).run t with ⟨⟨result, ended⟩, u⟩
  obtain ⟨made, fewer, made_calls⟩ := calls_connected connected run
  have closed : .close ∈ b.calls p cancelled s ↔ ¬ (result.isOk = true ∧ ended = true) := by
    rw [made_calls, close_mem_iff, Bool.and_eq_true]
  have passes (u' : σ) : b.Passes p (b.due p Category.all) now t true u' ↔
      ∃ d, ((result, ended), u) = ((.ok d, true), u') := by
    rw [passes_iff b p Category.all now true .none t u', run]
  refine ⟨?_, ?_, made, fewer, ?_⟩
  · refine closed.trans (not_congr ⟨?_, ?_⟩)
    · rintro ⟨succeeded, rfl⟩
      cases result with
      | error e => cases succeeded
      | ok d => exact ⟨u, (passes u).2 ⟨d, rfl⟩⟩
    · rintro ⟨u', went⟩
      obtain ⟨d, same⟩ := (passes u').1 went
      cases same
      exact ⟨rfl, rfl⟩
  · intro unclosed
    obtain ⟨succeeded, rfl⟩ := Decidable.not_not.1 (mt closed.2 unclosed)
    cases result with
    | error e => cases succeeded
    | ok d =>
        rw [deliver_submitted connected run, step_cancelled]
        rfl
  · rw [made_calls]
    cases result.isOk && ended with
    | false => exact .inl rfl
    | true => exact .inr (List.append_nil _)

/-- A backend that interrupts the run: while it connects, or while it fails to take rows. -/
def interrupting (early : Bool) : Backend Unit where
  name := "mock"
  categories := Category.all
  connect := pure (.done (.ok ()) early)
  submit _ _ := pure (.done (.error (.backend "mock" "late")) true)
  close := pure (.done (.ok ()) true)

theorem close_called_after_failure :
    let p : Payload := { Payload.empty with
      streams := Table.empty.insert "ramp" ⟨"ramp", Table.empty, 0, 0, 0, []⟩ }
    (step "connect" (interrupting false).connect false).run () = ((.ok (), false), ()) ∧
      .close ∈ (interrupting false).calls p false () := by
  intro p
  have connected :
      (step "connect" (interrupting false).connect false).run () = ((.ok (), false), ()) := rfl
  have due_streams : (interrupting false).due p Category.all = [.streams] := rfl
  refine ⟨connected, (close_called_iff _ p false false () () connected).1.2 ?_⟩
  rw [due_streams]
  rintro ⟨u, went⟩
  cases went with
  | submission replied passed _ =>
      cases replied
      exact absurd (passed _ rfl) (by decide)

/-- Interrupted while connecting, a delivery of nothing leaves the backend connected. -/
theorem close_not_called :
    (step "connect" (interrupting true).connect false).run () = ((.ok (), true), ()) ∧
      .close ∉ (interrupting true).calls Payload.empty false () := by
  refine ⟨rfl, ?_⟩
  have calls : (interrupting true).calls Payload.empty false () = [.connect] := rfl
  rw [calls]
  decide

end BenchReport.Backend
