import BenchReport.Proofs.Session.WorkerCounts
set_option autoImplicit false

namespace BenchReport

namespace StreamSeries

/-- Tries to add an interval; one that is refused leaves the series as it was. -/
def attempt (s : StreamSeries) (n : IntervalCounts) (elapsed : Float) : StreamSeries :=
  match s.add n elapsed with
  | .ok s' => s'
  | .error _ => s

def ofAttempts (attempts : List (IntervalCounts × Float)) : StreamSeries :=
  attempts.foldl (fun s a => s.attempt a.1 a.2) empty

/-- All lists of a series have an entry for each interval. -/
structure Parallel (s : StreamSeries) : Prop where
  rates : s.rates.length = s.completed.length
  succeeded : s.succeeded.length = s.completed.length
  failed : s.failed.length = s.completed.length
  elapsed : s.elapsed.length = s.completed.length
  timings : s.timings.length = s.completed.length

theorem parallel_empty : empty.Parallel := ⟨rfl, rfl, rfl, rfl, rfl⟩

theorem Parallel.add {s s' : StreamSeries} {n : IntervalCounts} {elapsed : Float}
    (parallel : s.Parallel) (added : s.add n elapsed = .ok s') : s'.Parallel := by
  obtain ⟨-, rfl⟩ := add_ok_iff.1 added
  constructor <;> rw [List.length_append, List.length_append]
  · rw [parallel.rates]
    rfl
  · rw [parallel.succeeded]
    rfl
  · rw [parallel.failed]
    rfl
  · rw [parallel.elapsed]
    rfl
  · rw [parallel.timings]
    rfl

theorem Parallel.attempt {s : StreamSeries} (parallel : s.Parallel) (n : IntervalCounts)
    (elapsed : Float) : (s.attempt n elapsed).Parallel := by
  unfold StreamSeries.attempt
  split
  · exact parallel.add ‹_›
  · exact parallel

theorem parallel_ofAttempts (attempts : List (IntervalCounts × Float)) :
    (ofAttempts attempts).Parallel := by
  have grown (s : StreamSeries) (parallel : s.Parallel) :
      (attempts.foldl (fun s a => s.attempt a.1 a.2) s).Parallel := by
    induction attempts generalizing s with
    | nil => exact parallel
    | cons a rest ih => exact ih _ (parallel.attempt a.1 a.2)
  exact grown empty parallel_empty

end StreamSeries

def StreamCount.longest (c : StreamCount) (streams : List StreamSeries) : Nat :=
  (streams.map fun s => (c.ofSeries s).length).foldl max 0

namespace Bins

theorem place_mono {after bins : List UInt64} (lowered : List.Forall₂ (· ≤ ·) after bins)
    (i : Nat) :
    place i after ≤ place i bins := by
  induction lowered generalizing i with
  | nil => exact Nat.le_refl _
  | cons le _ ih =>
      cases i with
      | zero => exact UInt64.le_iff_toNat_le.1 le
      | succ i => exact ih i

end Bins

namespace StageOverview

variable {stage : String} {actions : List ActionMetrics} {streams : List StreamSeries}
  {o : StageOverview}

theorem length_ratesOf (counts : List UInt64) (elapsed : List Float) :
    (ratesOf counts elapsed).length = counts.length := by
  induction counts generalizing elapsed with
  | nil => rfl
  | cons n rest ih => rw [ratesOf, List.length_cons, List.length_cons, ih]

/-- Lists that are parallel in each stream are equally long when they are put together. -/
theorem longest_elapsed (parallel : ∀ s ∈ streams, s.Parallel) (c : StreamCount) :
    (streams.map fun s => s.elapsed.length).foldl max 0 = c.longest streams := by
  have alike : ∀ s ∈ streams, s.elapsed.length = (c.ofSeries s).length := by
    intro s mem
    have lengths := parallel s mem
    cases c with
    | completed => exact lengths.elapsed
    | succeeded => exact lengths.elapsed.trans lengths.succeeded.symm
    | failed => exact lengths.elapsed.trans lengths.failed.symm
  rw [StreamCount.longest, List.map_congr_left alike]

/-- Bins brought down to a counter: their number, what each holds at most, and their sum. -/
theorem Covers.bins_sums (covers : o.Covers stage actions streams) (c : StreamCount)
    (short : ∀ s ∈ streams, (c.ofSeries s).length < 2 ^ 64) :
    (c.binsOf o).length = c.longest streams ∧
      (∀ i, Bins.place i (c.binsOf o) ≤ (streams.map fun s => Bins.place i (c.ofSeries s)).sum) ∧
      Counter.total (c.binsOf o) = min (c.counterOf o).toNat (c.streamed streams) := by
  obtain ⟨before, added, reconciled⟩ := Outcome.bind_ok (covers.bins c)
  have held := StreamCount.total_unreconciled added
  have few := StreamCount.length_unreconciled_lt short added
  have fits := covers.streamed_lt c short
  obtain ⟨after, reconciled', kept, lowered, total, -⟩ :=
    Bins.reconcile_exact before (c.counterOf o) (held ▸ fits) few
  rw [reconciled] at reconciled'
  cases reconciled'
  obtain ⟨length, places⟩ := Bins.addAll_ok_iff.1 added
  rw [Bins.longest, List.map_map] at length
  refine ⟨kept.trans length, fun i => ?_, ?_⟩
  · have summed := places i
    rw [List.map_map] at summed
    exact Nat.le_trans (Bins.place_mono lowered i) (Nat.le_of_eq summed)
  · rw [total, held, Nat.min_comm]

/-- Streams recorded interval by interval give as many elapsed times as bins. -/
theorem length_elapsedBins
    (recorded : ∀ s ∈ streams, ∃ attempts, s = StreamSeries.ofAttempts attempts)
    (covers : o.Covers stage actions streams) (c : StreamCount) :
    o.elapsedBins.length = c.longest streams := by
  have parallel : ∀ s ∈ streams, s.Parallel := by
    intro s mem
    obtain ⟨attempts, rfl⟩ := recorded s mem
    exact StreamSeries.parallel_ofAttempts attempts
  have length := Bins.length_foldlM_add covers.elapsedBins
  rw [List.map_map] at length
  exact length.trans (longest_elapsed parallel c)

/-- The overview of a stage is made exactly when the counters of all its actions add up. Then its
counters are their sums; there are as many bins as intervals in the longest stream, none holds more
than what streams counted in its place, and together they hold the lesser of the counter and of all
that streams counted. Streams recorded interval by interval give bins of one length. Lists in memory
are shorter than `2 ^ 64`. -/
theorem ofStage_sums (stage : String) (actions : List ActionMetrics) (streams : List StreamSeries)
    (counted : ∀ c : StreamCount, sumNat c.ofAction actions < 2 ^ 64)
    (fits : ∀ c : StreamCount, c.streamed streams < 2 ^ 64)
    (short : ∀ c : StreamCount, ∀ s ∈ streams, (c.ofSeries s).length < 2 ^ 64) :
    ((∃ o, ofStage stage actions streams = .ok o) ↔
      sumNat Counts.total actions =
        sumNat Counts.succeeded actions + sumNat Counts.failed actions) ∧
    ∀ o, ofStage stage actions streams = .ok o →
      (∀ c : StreamCount,
        (c.counterOf o).toNat = sumNat c.ofAction actions ∧
        (c.binsOf o).length = c.longest streams ∧
        (∀ i, Bins.place i (c.binsOf o) ≤
          (streams.map fun s => Bins.place i (c.ofSeries s)).sum) ∧
        Counter.total (c.binsOf o) = min (c.counterOf o).toNat (c.streamed streams)) ∧
      ((∀ s ∈ streams, ∃ attempts, s = StreamSeries.ofAttempts attempts) →
        o.succeededBins.length = o.completedBins.length ∧
        o.failedBins.length = o.completedBins.length ∧
        o.elapsedBins.length = o.completedBins.length ∧
        o.rateBins.length = o.completedBins.length) := by
  constructor
  · constructor
    · rintro ⟨o, made⟩
      exact (ofStage_ok_iff.1 made).balanced
    · intro balanced
      exact (exists_ofStage_iff stage balanced counted short).2 fits
  · intro o made
    have covers := ofStage_ok_iff.1 made
    constructor
    · exact fun c => ⟨covers.counter c, covers.bins_sums c (short c)⟩
    · intro recorded
      have length (c : StreamCount) : (c.binsOf o).length = o.elapsedBins.length :=
        (covers.bins_sums c (short c)).1.trans (length_elapsedBins recorded covers c).symm
      have completed := length .completed
      refine ⟨(length .succeeded).trans completed.symm, (length .failed).trans completed.symm,
        completed.symm, ?_⟩
      rw [covers.rateBins, length_ratesOf]

def login (total : UInt64) : ActionMetrics where
  name := "login"
  source := ""
  stage := "execute"
  counts := ⟨total, total, 0, 0.0⟩
  phases := PerPhase.ofFn fun _ => none
  custom := Table.empty
  errors := []
  tags := []
  quantiles := []

/-- A worker that saw so many successes in each second. An attempt to add an interval of no length
comes first. -/
def everySecond (counts : List UInt64) : StreamSeries :=
  StreamSeries.ofAttempts ((⟨1, 1, 0, []⟩, 0.0) :: counts.map fun n => (⟨n, n, 0, []⟩, 1.0))

/-- Two workers of different length counted five actions too many. -/
theorem ofStage_sums_two_workers :
    ∃ o, ofStage "execute" [login 45] [everySecond [10, 10, 10], everySecond [10, 10]] = .ok o ∧
      o.total.toNat = 45 ∧ o.completedBins.length = 3 ∧ Counter.total o.completedBins = 45 ∧
      Counter.total o.failedBins = 0 ∧ o.rateBins.length = o.completedBins.length := by
  obtain ⟨made_iff, sums⟩ := ofStage_sums "execute" [login 45]
    [everySecond [10, 10, 10], everySecond [10, 10]]
    (fun c => by cases c <;> decide)
    (fun c => by cases c <;> decide +kernel) (fun c => by cases c <;> decide +kernel)
  obtain ⟨o, made⟩ := made_iff.2 (by decide)
  obtain ⟨counts, lengths⟩ := sums o made
  obtain ⟨total, length, -, completed⟩ := counts .completed
  obtain ⟨none, -, -, failed⟩ := counts .failed
  have recorded : ∀ s ∈ [everySecond [10, 10, 10], everySecond [10, 10]],
      ∃ attempts, s = StreamSeries.ofAttempts attempts := by
    intro s mem
    rcases List.mem_pair.1 mem with rfl | rfl
    · exact ⟨_, rfl⟩
    · exact ⟨_, rfl⟩
  refine ⟨o, made, total, ?_, ?_, ?_, (lengths recorded).2.2.2⟩
  · exact length.trans (by decide +kernel)
  · rw [total] at completed
    exact completed.trans (by decide +kernel)
  · rw [none] at failed
    exact failed.trans (by decide +kernel)

end StageOverview

end BenchReport
