import BenchReport.Proofs.Session.Admission
import BenchReport.Session.Stamp
set_option autoImplicit false

namespace BenchReport

open StageBlock (resultsOf)

theorem Event.ofObservation_stamp_error {o : Observation} {stage : String} {e : Error}
    (refused : Event.ofObservation o stage = .error e) (stamps : Stamps) (n : Nat) :
    Event.ofObservation (stamps.stamp n o) stage = .error e := by
  simp only [Event.ofObservation] at refused
  simp only [Event.ofObservation, Stamps.stamp]
  split at refused
  · exact refused
  · split at refused
    · exact refused
    · split at refused
      · exact refused
      · cases refused

namespace Stamps

variable {stamps : Stamps} {n : Nat}

theorem mem_stampAll {os : List Observation} {o : Observation} (mem : o ∈ os) :
    ∃ m, stamps.stamp m o ∈ stamps.stampAll n os := by
  induction os generalizing n with
  | nil => cases mem
  | cons first rest ih =>
      rcases List.mem_cons.1 mem with rfl | later
      · exact ⟨n, List.mem_cons_self⟩
      · obtain ⟨m, stamped⟩ := ih later
        exact ⟨m, List.mem_cons_of_mem _ stamped⟩

theorem mem_stampWorkers {workers : List WorkerOutput} {w : WorkerOutput} (mem : w ∈ workers) :
    ∃ m, { w with results := stamps.stampAll m w.results } ∈ stamps.stampWorkers n workers := by
  induction workers generalizing n with
  | nil => cases mem
  | cons first rest ih =>
      rcases List.mem_cons.1 mem with rfl | later
      · exact ⟨n, List.mem_cons_self⟩
      · obtain ⟨m, stamped⟩ := ih later
        exact ⟨m, List.mem_cons_of_mem _ stamped⟩

theorem exists_stamped_result {workers : List WorkerOutput} {w : WorkerOutput}
    {o : Observation} (worker : w ∈ workers) (result : o ∈ w.results) :
    ∃ w' ∈ stamps.stampWorkers n workers, ∃ m, stamps.stamp m o ∈ w'.results := by
  obtain ⟨_, stamped⟩ := mem_stampWorkers worker
  exact ⟨_, stamped, mem_stampAll result⟩

theorem resultsOf_stampWorkers_ne_nil {workers : List WorkerOutput}
    (some : resultsOf workers ≠ []) : resultsOf (stamps.stampWorkers n workers) ≠ [] := by
  obtain ⟨o, mem⟩ := List.exists_mem_of_ne_nil _ some
  obtain ⟨w, worker, result⟩ := List.mem_flatMap.1 mem
  obtain ⟨w', worker', m, result'⟩ := exists_stamped_result worker result
  exact List.ne_nil_of_mem (List.mem_flatMap.2 ⟨w', worker', result'⟩)

end Stamps

namespace LoadedStage

/-- The stage with its results stamped, the first with the `n`th id. -/
def stamped (l : LoadedStage) (stamps : Stamps) (n : Nat) : LoadedStage :=
  { l with workers := stamps.stampWorkers n l.workers }

theorem Flaw.stamped {l : LoadedStage} {e : Error} (flaw : l.Flaw e) (stamps : Stamps) (n : Nat) :
    (l.stamped stamps n).Flaw e := by
  cases flaw with
  | result worker result refused =>
      obtain ⟨w, worker, m, result⟩ := Stamps.exists_stamped_result worker result
      exact .result worker result (Event.ofObservation_stamp_error refused stamps m)
  | interval worker interval refused =>
      obtain ⟨m, worker⟩ := Stamps.mem_stampWorkers worker
      exact .interval worker interval refused
  | elapsed some refused => exact .elapsed (Stamps.resultsOf_stampWorkers_ne_nil some) refused
  | metric some declared refused =>
      exact .metric (Stamps.resultsOf_stampWorkers_ne_nil some) declared refused

end LoadedStage

theorem Call.beside_ok {σ α : Type} {c : Call σ α} {s t : σ × Nat} {a : α}
    (ok : c.beside.run.run s = (.ok a, t)) : c.run.run s.1 = (.ok a, t.1) := by
  obtain ⟨answer, state⟩ := Prod.mk.inj ok
  exact Prod.ext answer (congrArg Prod.fst state)

namespace Source

variable {σ : Type} {s : Source σ} {stamps : Stamps} {a t : σ × Nat}

/-- What a source tells of a stage, and what it tells when it stamps. -/
def Stamped (stamps : Stamps) (l l' : LoadedStage) : Prop := ∃ n, l' = l.stamped stamps n

theorem load_stamped {name : String} {l' : LoadedStage}
    (ok : ((s.stamped stamps).load name).run.run a = (.ok l', t)) :
    ∃ l, (s.load name).run.run a.1 = (.ok l, t.1) ∧ Stamped stamps l l' := by
  obtain ⟨facts, _, told_facts, ok⟩ := Call.bind_ok ok
  obtain ⟨actions, _, told_actions, ok⟩ := Call.bind_ok ok
  obtain ⟨_, _, told_stamped, ok⟩ := Call.bind_ok ok
  obtain ⟨rfl, rfl⟩ := Call.pure_ok ok
  obtain ⟨workers, ⟨_, n⟩, told_results, stamped⟩ := Call.bind_ok told_stamped
  cases stamped
  exact ⟨⟨name, facts, actions, workers⟩, Call.bind_of_ok (Call.beside_ok told_facts)
    (Call.bind_of_ok (Call.beside_ok told_actions)
      (Call.bind_of_ok (Call.beside_ok told_results) rfl)), n, rfl⟩

theorem loads_stamped {names : List String} {loaded' : List LoadedStage}
    (ok : ((s.stamped stamps).loads names).run.run a = (.ok loaded', t)) :
    ∃ loaded, (s.loads names).run.run a.1 = (.ok loaded, t.1) ∧
      List.Forall₂ (Stamped stamps) loaded loaded' := by
  induction names generalizing a loaded' with
  | nil =>
      obtain ⟨rfl, rfl⟩ := Call.pure_ok ok
      exact ⟨[], rfl, .nil⟩
  | cons name rest ih =>
      obtain ⟨l', _, first, ok⟩ := Call.bind_ok ok
      obtain ⟨ls', _, later, ok⟩ := Call.bind_ok ok
      obtain ⟨rfl, rfl⟩ := Call.pure_ok ok
      obtain ⟨l, told, stamped⟩ := load_stamped first
      obtain ⟨ls, told_later, stamped_later⟩ := ih later
      exact ⟨l :: ls, Call.bind_of_ok told (Call.bind_of_ok told_later rfl),
        .cons stamped stamped_later⟩

/-- A source that tells all it knows when it stamps tells it without stamps too. -/
theorem loadAll_stamped {loaded' : List LoadedStage}
    (ok : (s.stamped stamps).loadAll.run.run a = (.ok loaded', t)) :
    ∃ loaded, s.loadAll.run.run a.1 = (.ok loaded, t.1) ∧
      List.Forall₂ (Stamped stamps) loaded loaded' := by
  obtain ⟨_, _, connected, ok⟩ := Call.bind_ok ok
  obtain ⟨names, _, listed, ok⟩ := Call.bind_ok ok
  obtain ⟨_, _, told, ok⟩ := Call.bind_ok ok
  obtain ⟨_, _, closed, ok⟩ := Call.bind_ok ok
  obtain ⟨rfl, rfl⟩ := Call.pure_ok ok
  obtain ⟨loaded, told, stamped⟩ := loads_stamped told
  exact ⟨loaded, Call.bind_of_ok (Call.beside_ok connected)
    (Call.bind_of_ok (Call.beside_ok listed)
      (Call.bind_of_ok told (Call.bind_of_ok (Call.beside_ok closed) rfl))), stamped⟩

end Source

end BenchReport
