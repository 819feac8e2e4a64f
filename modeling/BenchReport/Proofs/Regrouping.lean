import BenchReport.Proofs.StageTotals
import BenchReport.Proofs.Streams
set_option autoImplicit false

namespace BenchReport

namespace StreamSeries

/-- Whether an interval is added. One that took no positive time is refused. -/
def admits (a : IntervalCounts × Float) : Bool := a.2.isFinite && !decide (a.2 ≤ 0.0)

def measured (m : Measure) (a : IntervalCounts × Float) : Float :=
  match m with
  | .completed => Double.ofCount a.1.completed
  | .succeeded => Double.ofCount a.1.succeeded
  | .failed => Double.ofCount a.1.failed
  | .batchTime => a.2
  | .completionRate => Double.ofCount a.1.completed / a.2

theorem values_attempt (s : StreamSeries) (a : IntervalCounts × Float) (m : Measure) :
    m.values (s.attempt a.1 a.2) =
      m.values s ++ ([a].filter admits).map (measured m) := by
  unfold attempt add
  by_cases admitted : admits a = true
  · have sound : (!a.2.isFinite || decide (a.2 ≤ 0.0)) = false := by
      rw [admits, Bool.and_eq_true, Bool.not_eq_true'] at admitted
      rw [admitted.1, admitted.2]
      rfl
    rw [sound, List.filter_cons_of_pos admitted]
    cases m <;> simp [Measure.values, measured]
  · have flawed : (!a.2.isFinite || decide (a.2 ≤ 0.0)) = true := by
      rw [admits, Bool.and_eq_true, not_and_or, Bool.not_eq_true, Bool.not_eq_true',
        Bool.not_eq_false] at admitted
      rw [Bool.or_eq_true, Bool.not_eq_true']
      exact admitted
    rw [flawed, List.filter_cons_of_neg admitted]
    simp

/-- A recorded stream has one value of a measure for each interval that was added. -/
theorem values_ofAttempts (attempts : List (IntervalCounts × Float)) (m : Measure) :
    m.values (ofAttempts attempts) = (attempts.filter admits).map (measured m) := by
  have grown (s : StreamSeries) :
      m.values (attempts.foldl (fun s a => s.attempt a.1 a.2) s) =
        m.values s ++ (attempts.filter admits).map (measured m) := by
    induction attempts generalizing s with
    | nil => exact (List.append_nil _).symm
    | cons a rest ih =>
        rw [List.foldl_cons, ih, values_attempt, List.append_assoc, ← List.map_append,
          ← List.filter_append]
        rfl
  refine (grown empty).trans ?_
  cases m <;> rfl

/-- All values of a measure, from the intervals of all workers. -/
theorem values_workers (workers : List (List (IntervalCounts × Float))) (m : Measure) :
    ((workers.map ofAttempts).flatMap fun s => m.values s) =
      (workers.flatten.filter admits).map (measured m) := by
  rw [List.flatMap_map, List.filter_flatten, List.map_flatten, List.map_map, List.flatMap_def]
  exact congrArg List.flatten (List.map_congr_left fun attempts _ => values_ofAttempts attempts m)

end StreamSeries

/-- The summary of a series depends only on which finite values it has, each as often. So the
overview of a stage is the same for streams with the same finite values of each measure, for workers
in another order, and for workers that recorded the same intervals in other groups. -/
theorem figures_regrouped :
    (∀ xs ys : List Float, Stats.SameFinite xs ys →
      Summary.ofSamples xs = Summary.ofSamples ys) ∧
    (∀ (stage : String) (streams streams' : List StreamSeries),
      (∀ m : Measure, Stats.SameFinite (streams.flatMap fun s => m.values s)
        (streams'.flatMap fun s => m.values s)) →
      StreamOverview.ofStreams stage streams = StreamOverview.ofStreams stage streams') ∧
    (∀ (stage : String) (streams streams' : List StreamSeries), streams.Perm streams' →
      StreamOverview.ofStreams stage streams = StreamOverview.ofStreams stage streams') ∧
    ∀ (stage : String) (workers workers' : List (List (IntervalCounts × Float))),
      workers.flatten.Perm workers'.flatten →
      StreamOverview.ofStreams stage (workers.map StreamSeries.ofAttempts) =
        StreamOverview.ofStreams stage (workers'.map StreamSeries.ofAttempts) := by
  refine ⟨fun xs ys kept => Summary.ofSamples_of_finite kept, ?_, ?_, ?_⟩
  · intro stage streams streams' kept
    exact StreamOverview.ofStreams_of_finite kept stage
  · intro stage streams streams' perm
    exact StreamOverview.ofStreams_perm perm stage
  · intro stage workers workers' perm
    refine StreamOverview.ofStreams_of_finite (fun m => Stats.sameFinite_of_perm ?_) stage
    rw [StreamSeries.values_workers, StreamSeries.values_workers]
    exact (perm.filter _).map _

/-- Samples with both zeros, two infinities and a value that is no number among them; a stream with
a rate that overflowed; intervals, one of them refused, recorded by two workers or by three of whom
one recorded nothing. -/
theorem figures_regrouped_mixed :
    let xs : List Float := [0.0 / 0.0, 0.5, -0.0, 1.0 / 0.0, 0.0]
    let ys : List Float := [0.0, 0.5, -1.0 / 0.0, -0.0]
    let warm : IntervalCounts × Float := (⟨4, 3, 1, []⟩, 0.5)
    let busy : IntervalCounts × Float := (⟨10, 10, 0, []⟩, 1.0)
    let stuck : IntervalCounts × Float := (⟨7, 0, 7, []⟩, 0.0)
    let calm := StreamSeries.ofAttempts [warm, busy]
    let overflown := { calm with rates := 1.0 / 0.0 :: calm.rates.reverse }
    let two := [[warm, stuck], [busy, warm]]
    let three := [[warm, busy], [], [stuck, warm]]
    (Stats.SameFinite xs ys ∧ Summary.ofSamples xs = Summary.ofSamples ys) ∧
    ((∀ m : Measure, Stats.SameFinite ([calm].flatMap fun s => m.values s)
        ([overflown].flatMap fun s => m.values s)) ∧
      StreamOverview.ofStreams "peak" [calm] = StreamOverview.ofStreams "peak" [overflown]) ∧
    ([calm, overflown].Perm [overflown, calm] ∧
      StreamOverview.ofStreams "peak" [calm, overflown] =
        StreamOverview.ofStreams "peak" [overflown, calm]) ∧
    (two.flatten.Perm three.flatten ∧
      StreamOverview.ofStreams "peak" (two.map StreamSeries.ofAttempts) =
        StreamOverview.ofStreams "peak" (three.map StreamSeries.ofAttempts)) := by
  intro xs ys warm busy stuck calm overflown two three
  obtain ⟨samples, measures, workers, intervals⟩ := figures_regrouped
  have same : Stats.SameFinite xs ys := by
    unfold Stats.SameFinite
    decide +kernel
  have measured (m : Measure) : Stats.SameFinite ([calm].flatMap fun s => m.values s)
      ([overflown].flatMap fun s => m.values s) := by
    unfold Stats.SameFinite
    cases m <;> decide +kernel
  have swapped : [calm, overflown].Perm [overflown, calm] := .swap _ _ _
  have regrouped : two.flatten.Perm three.flatten := by decide +kernel
  exact ⟨⟨same, samples xs ys same⟩, ⟨measured, measures "peak" _ _ measured⟩,
    ⟨swapped, workers "peak" _ _ swapped⟩, regrouped, intervals "peak" two three regrouped⟩

end BenchReport
