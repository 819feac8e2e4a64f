import BenchReport.Proofs.Reconciliation
import BenchReport.Stage.Overview
set_option autoImplicit false

namespace BenchReport

/-- What is counted of the actions of a stage, and again of each interval. -/
inductive StreamCount where
  | completed
  | succeeded
  | failed

namespace StreamCount

def ofInterval : StreamCount → IntervalCounts → UInt64
  | completed => IntervalCounts.completed
  | succeeded => IntervalCounts.succeeded
  | failed => IntervalCounts.failed

def ofSeries : StreamCount → StreamSeries → List UInt64
  | completed => StreamSeries.completed
  | succeeded => StreamSeries.succeeded
  | failed => StreamSeries.failed

def ofAction : StreamCount → Counts → UInt64
  | completed => Counts.total
  | succeeded => Counts.succeeded
  | failed => Counts.failed

def counterOf : StreamCount → StageOverview → UInt64
  | completed => StageOverview.total
  | succeeded => StageOverview.succeeded
  | failed => StageOverview.failed

def binsOf : StreamCount → StageOverview → List UInt64
  | completed => StageOverview.completedBins
  | succeeded => StageOverview.succeededBins
  | failed => StageOverview.failedBins

/-- All that streams count together, without a bound. -/
def streamed (c : StreamCount) (streams : List StreamSeries) : Nat :=
  (streams.map fun s => Counter.total (c.ofSeries s)).sum

/-- The bins of a stage before they are brought down to its counter. -/
def unreconciled (c : StreamCount) (streams : List StreamSeries) : Except Error (List UInt64) :=
  Bins.addAll Counter.add 0 (streams.map c.ofSeries)

variable {c : StreamCount} {streams : List StreamSeries} {bins : List UInt64}

theorem total_unreconciled (added : c.unreconciled streams = .ok bins) :
    Counter.total bins = c.streamed streams := by
  rw [Bins.total_addAll added, List.map_map]
  rfl

theorem length_unreconciled_lt (short : ∀ s ∈ streams, (c.ofSeries s).length < 2 ^ 64)
    (added : c.unreconciled streams = .ok bins) : bins.length < 2 ^ 64 := by
  rw [Bins.length_foldlM_add added, List.length_nil]
  have bounded (n : Nat) (lt : n < 2 ^ 64) :
      ((streams.map c.ofSeries).map List.length).foldl max n < 2 ^ 64 := by
    clear added
    induction streams generalizing n with
    | nil => exact lt
    | cons s rest ih =>
        have own := short s List.mem_cons_self
        exact ih (fun s' mem => short s' (List.mem_cons_of_mem _ mem)) (max n _)
          (Nat.max_lt.2 ⟨lt, own⟩)
  exact bounded 0 (by omega)

theorem exists_unreconciled (fits : c.streamed streams < 2 ^ 64) :
    ∃ bins, c.unreconciled streams = .ok bins := by
  apply Bins.exists_addAll_iff.2
  intro i
  have each : ∀ s ∈ streams, Bins.place i (c.ofSeries s) ≤ Counter.total (c.ofSeries s) :=
    fun s _ => Bins.place_le_total i _
  have bounded := List.sum_le_sum each
  rw [List.map_map]
  exact Nat.lt_of_le_of_lt bounded fits

end StreamCount

namespace Bins

/-- What bins are brought down to: there is an answer exactly when what they hold fits a counter. -/
theorem exists_reconcile_iff {bins : List UInt64} {authoritative : UInt64}
    (short : bins.length < 2 ^ 64) :
    (∃ after, reconcile bins authoritative = .ok after) ↔ Counter.total bins < 2 ^ 64 := by
  constructor
  · rintro ⟨after, reconciled⟩
    by_contra wide
    rw [reconcile_overflows authoritative (Nat.not_lt.1 wide)] at reconciled
    cases reconciled
  · intro fits
    obtain ⟨after, reconciled, -⟩ := reconcile_exact bins authoritative fits short
    exact ⟨after, reconciled⟩

theorem reconcile_onlyOverflows {bins : List UInt64} (authoritative : UInt64)
    (short : bins.length < 2 ^ 64) : OnlyOverflows (reconcile bins authoritative) := by
  intro e failed
  by_cases fits : Counter.total bins < 2 ^ 64
  · obtain ⟨after, reconciled, -⟩ := reconcile_exact bins authoritative fits short
    rw [reconciled] at failed
    cases failed
  · rw [reconcile_overflows authoritative (Nat.not_lt.1 fits)] at failed
    cases failed
    rfl

end Bins

namespace StageOverview

/-- A counter of all actions, without a bound. -/
def sumNat (get : Counts → UInt64) (actions : List ActionMetrics) : Nat :=
  (actions.map fun m => (get m.counts).toNat).sum

theorem sumOf_ok_iff {get : Counts → UInt64} {actions : List ActionMetrics} {n : UInt64} :
    sumOf get actions = .ok n ↔ n.toNat = sumNat get actions := by
  rw [sumOf, Counter.sum_ok_iff, Counter.total_map]
  rfl

def meansOf (actions : List ActionMetrics) (total : UInt64) : PerPhase (Option Float) :=
  PerPhase.ofFn fun p =>
    (timeIn actions p).map fun t => Scalar.finite (t / Scalar.divisor (Double.ofCount total))

/-- What an overview says of the actions and the streams of a stage. -/
structure Covers (o : StageOverview) (stage : String) (actions : List ActionMetrics)
    (streams : List StreamSeries) : Prop where
  stage : o.stage = stage
  counter (c : StreamCount) : (c.counterOf o).toNat = sumNat c.ofAction actions
  settled : o.total.toNat = o.succeeded.toNat + o.failed.toNat
  rate : o.rate = Scalar.round2 (Scalar.finite (sumRates actions))
  phaseMeans : o.phaseMeans = meansOf actions o.total
  bins (c : StreamCount) : c.unreconciled streams >>= (Bins.reconcile · (c.counterOf o)) =
    .ok (c.binsOf o)
  elapsedBins : Bins.addAll (fun x y => .ok (x + y)) 0.0 (streams.map StreamSeries.elapsed) =
    .ok o.elapsedBins
  rateBins : o.rateBins = ratesOf o.completedBins o.elapsedBins

variable {stage : String} {actions : List ActionMetrics} {streams : List StreamSeries}
  {o : StageOverview}

theorem covers_of_ofStage (made : ofStage stage actions streams = .ok o) :
    o.Covers stage actions streams := by
  obtain ⟨total, total_eq, made⟩ := Outcome.bind_ok made
  obtain ⟨succeeded, succeeded_eq, made⟩ := Outcome.bind_ok made
  obtain ⟨failed, failed_eq, made⟩ := Outcome.bind_ok made
  obtain ⟨settled, settled_eq, made⟩ := Outcome.bind_ok made
  split at made
  · cases made
  · rename_i balanced
    obtain ⟨completedBefore, completedBefore_eq, made⟩ := Outcome.bind_ok made
    obtain ⟨succeededBefore, succeededBefore_eq, made⟩ := Outcome.bind_ok made
    obtain ⟨failedBefore, failedBefore_eq, made⟩ := Outcome.bind_ok made
    obtain ⟨elapsed, elapsed_eq, made⟩ := Outcome.bind_ok made
    obtain ⟨completedBins, completedBins_eq, made⟩ := Outcome.bind_ok made
    obtain ⟨succeededBins, succeededBins_eq, made⟩ := Outcome.bind_ok made
    obtain ⟨failedBins, failedBins_eq, made⟩ := Outcome.bind_ok made
    cases made
    constructor
    case stage => rfl
    case counter =>
      intro c
      cases c with
      | completed => exact sumOf_ok_iff.1 total_eq
      | succeeded => exact sumOf_ok_iff.1 succeeded_eq
      | failed => exact sumOf_ok_iff.1 failed_eq
    case settled =>
      have same : total = settled := by simpa using balanced
      rw [same]
      exact Counter.add_ok_iff.1 settled_eq
    case rate => rfl
    case phaseMeans => rfl
    case bins =>
      intro c
      cases c with
      | completed => exact (congrArg (· >>= _) completedBefore_eq).trans completedBins_eq
      | succeeded => exact (congrArg (· >>= _) succeededBefore_eq).trans succeededBins_eq
      | failed => exact (congrArg (· >>= _) failedBefore_eq).trans failedBins_eq
    case elapsedBins => exact elapsed_eq
    case rateBins => rfl

theorem Covers.ofStage_eq (covers : o.Covers stage actions streams) :
    ofStage stage actions streams = .ok o := by
  obtain ⟨rfl, counter, settled, rate, phaseMeans, bins, elapsedBins, rateBins⟩ := covers
  have total : sumOf Counts.total actions = .ok o.total := sumOf_ok_iff.2 (counter .completed)
  have succeeded : sumOf Counts.succeeded actions = .ok o.succeeded :=
    sumOf_ok_iff.2 (counter .succeeded)
  have failed : sumOf Counts.failed actions = .ok o.failed := sumOf_ok_iff.2 (counter .failed)
  obtain ⟨completedBefore, completedBefore_eq, completedBins⟩ := Outcome.bind_ok (bins .completed)
  obtain ⟨succeededBefore, succeededBefore_eq, succeededBins⟩ := Outcome.bind_ok (bins .succeeded)
  obtain ⟨failedBefore, failedBefore_eq, failedBins⟩ := Outcome.bind_ok (bins .failed)
  simp only [StreamCount.unreconciled, StreamCount.ofSeries]
    at completedBefore_eq succeededBefore_eq failedBefore_eq
  simp only [StreamCount.counterOf, StreamCount.binsOf] at completedBins succeededBins failedBins
  rw [meansOf] at phaseMeans
  simp only [ofStage, total, succeeded, failed, Counter.add_ok_iff.2 settled, completedBefore_eq,
    succeededBefore_eq, failedBefore_eq, elapsedBins, completedBins, succeededBins, failedBins,
    bind, Except.bind, bne_self_eq_false, Bool.false_eq_true, ↓reduceIte, pure, Except.pure]
  rw [← rate, ← phaseMeans, ← rateBins]

/-- An overview is made exactly when there is one that covers the actions and the streams. -/
theorem ofStage_ok_iff : ofStage stage actions streams = .ok o ↔ o.Covers stage actions streams :=
  ⟨covers_of_ofStage, Covers.ofStage_eq⟩

/-- The counters of the actions add up, without a bound. -/
def Balanced (actions : List ActionMetrics) : Prop :=
  sumNat Counts.total actions = sumNat Counts.succeeded actions + sumNat Counts.failed actions

theorem Covers.balanced (covers : o.Covers stage actions streams) : Balanced actions := by
  have total := covers.counter .completed
  have succeeded := covers.counter .succeeded
  have failed := covers.counter .failed
  have settled := covers.settled
  simp only [StreamCount.counterOf, StreamCount.ofAction] at total succeeded failed
  rw [Balanced]
  omega

theorem Covers.streamed_lt (covers : o.Covers stage actions streams) (c : StreamCount)
    (short : ∀ s ∈ streams, (c.ofSeries s).length < 2 ^ 64) : c.streamed streams < 2 ^ 64 := by
  obtain ⟨before, added, reconciled⟩ := Outcome.bind_ok (covers.bins c)
  rw [← StreamCount.total_unreconciled added]
  exact (Bins.exists_reconcile_iff (StreamCount.length_unreconciled_lt short added)).1
    ⟨_, reconciled⟩

/-- The overview put together from counters and bins for each count. -/
def assembled (stage : String) (actions : List ActionMetrics) (counter : StreamCount → UInt64)
    (bins : StreamCount → List UInt64) (elapsed : List Float) : StageOverview where
  stage
  total := counter .completed
  succeeded := counter .succeeded
  failed := counter .failed
  rate := Scalar.round2 (Scalar.finite (sumRates actions))
  phaseMeans := meansOf actions (counter .completed)
  completedBins := bins .completed
  succeededBins := bins .succeeded
  failedBins := bins .failed
  elapsedBins := elapsed
  rateBins := ratesOf (bins .completed) elapsed

theorem counterOf_assembled (stage : String) (actions : List ActionMetrics)
    (counter : StreamCount → UInt64) (bins : StreamCount → List UInt64) (elapsed : List Float)
    (c : StreamCount) : c.counterOf (assembled stage actions counter bins elapsed) = counter c := by
  cases c <;> rfl

theorem binsOf_assembled (stage : String) (actions : List ActionMetrics)
    (counter : StreamCount → UInt64) (bins : StreamCount → List UInt64) (elapsed : List Float)
    (c : StreamCount) : c.binsOf (assembled stage actions counter bins elapsed) = bins c := by
  cases c <;> rfl

theorem covers_assembled {counter : StreamCount → UInt64} {bins : StreamCount → List UInt64}
    {elapsed : List Float} (balanced : Balanced actions)
    (counters : ∀ c : StreamCount, (counter c).toNat = sumNat c.ofAction actions)
    (binned : ∀ c : StreamCount,
      c.unreconciled streams >>= (Bins.reconcile · (counter c)) = .ok (bins c))
    (timed : Bins.addAll (fun x y => .ok (x + y)) 0.0 (streams.map StreamSeries.elapsed) =
      .ok elapsed) :
    (assembled stage actions counter bins elapsed).Covers stage actions streams := by
  constructor
  case stage => rfl
  case counter =>
    intro c
    rw [counterOf_assembled]
    exact counters c
  case settled =>
    show (counter .completed).toNat = (counter .succeeded).toNat + (counter .failed).toNat
    rw [counters, counters, counters]
    exact balanced
  case rate => rfl
  case phaseMeans => rfl
  case bins =>
    intro c
    rw [counterOf_assembled, binsOf_assembled]
    exact binned c
  case elapsedBins => exact timed
  case rateBins => rfl

/-- Where the counters fit and add up, an overview is made exactly when the streams fit too. -/
theorem exists_ofStage_iff (stage : String) (balanced : Balanced actions)
    (counted : ∀ c : StreamCount, sumNat c.ofAction actions < 2 ^ 64)
    (short : ∀ c : StreamCount, ∀ s ∈ streams, (c.ofSeries s).length < 2 ^ 64) :
    (∃ o, ofStage stage actions streams = .ok o) ↔
      ∀ c : StreamCount, c.streamed streams < 2 ^ 64 := by
  constructor
  · rintro ⟨o, made⟩ c
    exact (ofStage_ok_iff.1 made).streamed_lt c (short c)
  · intro fits
    choose counter counters using fun c => Counter.exists_toNat (counted c)
    have binned (c : StreamCount) : ∃ bins,
        c.unreconciled streams >>= (Bins.reconcile · (counter c)) = .ok bins := by
      obtain ⟨before, added⟩ := StreamCount.exists_unreconciled (fits c)
      have length := StreamCount.length_unreconciled_lt (short c) added
      have held := StreamCount.total_unreconciled added
      rw [added]
      exact (Bins.exists_reconcile_iff length).2 (held ▸ fits c)
    choose bins binned using binned
    obtain ⟨elapsed, timed⟩ :=
      Bins.exists_addAll (f := (· + ·)) (0.0 : Float) (streams.map StreamSeries.elapsed)
    exact ⟨_, (covers_assembled balanced counters binned timed).ofStage_eq⟩

/-- Counters that add up leave an overview no way to fail but an overflow. -/
theorem ofStage_onlyOverflows (stage : String) (balanced : Balanced actions)
    (short : ∀ c : StreamCount, ∀ s ∈ streams, (c.ofSeries s).length < 2 ^ 64) :
    OnlyOverflows (ofStage stage actions streams) := by
  have added (c : StreamCount) : OnlyOverflows (c.unreconciled streams) :=
    Bins.addAll_onlyOverflows _
  have lowered (c : StreamCount) (n : UInt64) (bins : List UInt64)
      (made : c.unreconciled streams = .ok bins) : OnlyOverflows (Bins.reconcile bins n) :=
    Bins.reconcile_onlyOverflows n (StreamCount.length_unreconciled_lt (short c) made)
  refine (Counter.sum_onlyOverflows _).bind fun total total_eq => ?_
  refine (Counter.sum_onlyOverflows _).bind fun succeeded succeeded_eq => ?_
  refine (Counter.sum_onlyOverflows _).bind fun failed failed_eq => ?_
  refine (Counter.add_onlyOverflows _ _).bind fun settled settled_eq => ?_
  have same : total = settled := by
    have whole := sumOf_ok_iff.1 total_eq
    have left := sumOf_ok_iff.1 succeeded_eq
    have right := sumOf_ok_iff.1 failed_eq
    have both := Counter.add_ok_iff.1 settled_eq
    rw [Balanced] at balanced
    exact UInt64.toNat_inj.1 (by omega)
  rw [if_neg (by simp [same])]
  refine (added .completed).bind fun completedBefore completed_eq => ?_
  refine (added .succeeded).bind fun succeededBefore succeededBefore_eq => ?_
  refine (added .failed).bind fun failedBefore failedBefore_eq => ?_
  obtain ⟨elapsed, elapsed_eq⟩ :=
    Bins.exists_addAll (f := (· + ·)) (0.0 : Float) (streams.map StreamSeries.elapsed)
  rw [elapsed_eq]
  refine (lowered .completed total _ completed_eq).bind fun _ _ => ?_
  refine (lowered .succeeded succeeded _ succeededBefore_eq).bind fun _ _ => ?_
  exact (lowered .failed failed _ failedBefore_eq).bind fun _ _ => .ok _

/-- Where the counters fit and add up, an overview fails exactly when the streams do not fit. -/
theorem ofStage_error_iff (stage : String) (balanced : Balanced actions)
    (counted : ∀ c : StreamCount, sumNat c.ofAction actions < 2 ^ 64)
    (short : ∀ c : StreamCount, ∀ s ∈ streams, (c.ofSeries s).length < 2 ^ 64) (e : Error) :
    ofStage stage actions streams = .error e ↔
      e = .overflow ∧ ∃ c : StreamCount, 2 ^ 64 ≤ c.streamed streams := by
  rw [(ofStage_onlyOverflows stage balanced short).error_iff
    (exists_ofStage_iff stage balanced counted short)]
  simp only [not_forall, not_lt]

end StageOverview

end BenchReport
