import BenchReport.Proofs.Session.Levels
import BenchReport.Proofs.Stats.DoubleOrder
set_option autoImplicit false

namespace BenchReport

open Double (Positive)
open StageBlock (resultsOf Works tallyAll seriesAll tagged)

namespace StreamSeries

theorem add_ok_iff {s s' : StreamSeries} {n : IntervalCounts} {elapsed : Float} :
    s.add n elapsed = .ok s' ↔ Positive elapsed ∧
      s' = ⟨s.rates ++ [Double.ofCount n.completed / elapsed], s.completed ++ [n.completed],
        s.succeeded ++ [n.succeeded], s.failed ++ [n.failed], s.elapsed ++ [elapsed],
        s.timings ++ [n.timings]⟩ := by
  rw [Double.positive_iff]
  unfold add
  split
  · rename_i flawed
    constructor
    · intro added
      cases added
    · rintro ⟨admitted, -⟩
      rw [flawed] at admitted
      cases admitted
  · rename_i admitted
    constructor
    · intro added
      cases added
      exact ⟨by simpa using admitted, rfl⟩
    · rintro ⟨-, rfl⟩
      rfl

theorem add_error {s : StreamSeries} {n : IntervalCounts} {elapsed : Float} {e : Error}
    (refused : s.add n elapsed = .error e) : ¬ Positive elapsed ∧ e = .interval elapsed := by
  rw [Double.positive_iff]
  unfold add at refused
  split at refused
  · rename_i flawed
    cases refused
    exact ⟨by simp [flawed], rfl⟩
  · cases refused

/-- All intervals that were added took a positive time. -/
theorem positive_of_foldlM_add {intervals : List StreamInterval} {s s' : StreamSeries}
    (added : intervals.foldlM (fun s b => s.add b.counts b.elapsed) s = .ok s') :
    ∀ b ∈ intervals, Positive b.elapsed := by
  induction intervals generalizing s with
  | nil => exact fun b mem => absurd mem List.not_mem_nil
  | cons b rest ih =>
      rw [List.foldlM_cons] at added
      obtain ⟨next, first, added⟩ := Outcome.bind_ok added
      exact List.forall_mem_cons.2 ⟨(add_ok_iff.1 first).1, ih added⟩

end StreamSeries

namespace StreamCount

def ofWorker (c : StreamCount) (w : WorkerOutput) : List UInt64 :=
  w.streams.map fun i => c.ofInterval i.counts

/-- All that workers report together, without a bound. -/
def reported (c : StreamCount) (workers : List WorkerOutput) : Nat :=
  (workers.map fun w => Counter.total (c.ofWorker w)).sum

theorem ofSeries_add {s s' : StreamSeries} {n : IntervalCounts} {elapsed : Float}
    (added : s.add n elapsed = .ok s') (c : StreamCount) :
    c.ofSeries s' = c.ofSeries s ++ [c.ofInterval n] := by
  obtain ⟨-, rfl⟩ := StreamSeries.add_ok_iff.1 added
  cases c with
  | completed => rfl
  | succeeded => rfl
  | failed => rfl

/-- The series of a worker has what the worker reports. -/
theorem ofSeries_of_ok {w : WorkerOutput} {s : StreamSeries}
    (streamed : StageBlock.seriesOf w = .ok s) (c : StreamCount) :
    c.ofSeries s = c.ofWorker w := by
  have grown (intervals : List StreamInterval) (before after : StreamSeries)
      (added : intervals.foldlM (fun s b => s.add b.counts b.elapsed) before = .ok after) :
      c.ofSeries after = c.ofSeries before ++ intervals.map fun i => c.ofInterval i.counts := by
    induction intervals generalizing before with
    | nil =>
        cases added
        rw [List.map_nil, List.append_nil]
    | cons i rest ih =>
        rw [List.foldlM_cons] at added
        obtain ⟨next, first, later⟩ := Outcome.bind_ok added
        rw [ih next later, ofSeries_add first, List.map_cons, List.append_assoc,
          List.singleton_append]
  have none : c.ofSeries StreamSeries.empty = [] := by
    cases c with
    | completed => rfl
    | succeeded => rfl
    | failed => rfl
  rw [grown w.streams _ s streamed, none, List.nil_append]
  rfl

end StreamCount

namespace StageBlock

section Workers

variable {stage : String} {workers : List WorkerOutput} {parts : List (StageTally × StreamSeries)}

/-- Workers that report nothing have no series. -/
theorem seriesAll_counts (each : List.Forall₂ (Works stage) workers parts) (c : StreamCount) :
    (seriesAll parts).map c.ofSeries =
      (workers.map c.ofWorker).filter fun xs => !xs.isEmpty := by
  induction each with
  | nil => rfl
  | @cons w p rest parts works _ ih =>
      have completed := StreamCount.ofSeries_of_ok works.2 .completed
      have own := StreamCount.ofSeries_of_ok works.2 c
      have alike : p.2.isEmpty = (c.ofWorker w).isEmpty := by
        change (StreamCount.completed.ofSeries p.2).isEmpty = _
        rw [completed, StreamCount.ofWorker, StreamCount.ofWorker, List.isEmpty_map,
          List.isEmpty_map]
      rw [seriesAll_cons, List.map_append, ih, List.map_cons]
      cases empty : (c.ofWorker w).isEmpty with
      | true => simp [alike, empty]
      | false => simp [alike, empty, own]

theorem unreconciled_eq (each : List.Forall₂ (Works stage) workers parts) (c : StreamCount) :
    c.unreconciled (seriesAll parts) = Bins.addAll Counter.add 0 (workers.map c.ofWorker) := by
  rw [StreamCount.unreconciled, seriesAll_counts each, Bins.addAll_filter]

theorem streamed_eq (each : List.Forall₂ (Works stage) workers parts) (c : StreamCount) :
    c.streamed (seriesAll parts) = c.reported workers := by
  have both : c.streamed (seriesAll parts) =
      (((workers.map c.ofWorker).filter fun xs => !xs.isEmpty).map Counter.total).sum := by
    rw [← seriesAll_counts each, List.map_map]
    rfl
  have whole : c.reported workers = ((workers.map c.ofWorker).map Counter.total).sum := by
    rw [List.map_map]
    rfl
  rw [both, whole]
  induction workers.map c.ofWorker with
  | nil => rfl
  | cons xs rest ih => cases xs <;> simp [ih]

theorem length_series_lt (each : List.Forall₂ (Works stage) workers parts)
    (short : ∀ w ∈ workers, w.streams.length < 2 ^ 64) (c : StreamCount) :
    ∀ s ∈ seriesAll parts, (c.ofSeries s).length < 2 ^ 64 := by
  intro s mem
  obtain ⟨p, listed, rfl⟩ := List.mem_map.1 (List.mem_filter.1 mem).1
  obtain ⟨w, worker, works⟩ := Outcome.exists_of_mem each listed
  rw [StreamCount.ofSeries_of_ok works.2, StreamCount.ofWorker, List.length_map]
  exact short w worker

/-- The overview of what a stage's tallies are written out to fails exactly when its workers report
more than a counter holds. -/
theorem overview_error_iff {stored : List Action} {elapsed : Float} {custom : List CustomMetric}
    {written : List ActionMetrics × List Event}
    (each : List.Forall₂ (Works stage) workers parts)
    (fits : (resultsOf workers).length < 2 ^ 64)
    (short : ∀ w ∈ workers, w.streams.length < 2 ^ 64)
    (made : (tagged (tallyAll stage parts) stored).parts elapsed custom = .ok written) (e : Error) :
    StageOverview.ofStage stage written.1 (seriesAll parts) = .error e ↔
      e = .overflow ∧ ∃ c : StreamCount, 2 ^ 64 ≤ c.reported workers := by
  obtain ⟨account, -, count⟩ := parts_account each fits made
  have counted (c : StreamCount) : StageOverview.sumNat c.ofAction written.1 < 2 ^ 64 := by
    have bounded := account.sumNat_le c
    omega
  rw [StageOverview.ofStage_error_iff stage account.balanced counted (length_series_lt each short)]
  simp only [streamed_eq each]

end Workers

end StageBlock

end BenchReport
