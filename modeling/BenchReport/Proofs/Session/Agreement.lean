import BenchReport.Proofs.Overviews
import BenchReport.Proofs.Session.StageReport
import BenchReport.Proofs.Streams
import BenchReport.Proofs.Tally.Aggregation
set_option autoImplicit false

namespace BenchReport

/-- The metrics are the same but for sources and central figures. -/
structure ActionMetrics.Agrees (m m' : ActionMetrics) : Prop where
  name : m.name = m'.name
  stage : m.stage = m'.stage
  counts : m.counts = m'.counts
  errors : m.errors = m'.errors
  tags : m.tags = m'.tags
  figures (p : Phase) : ∃ x x', m.phases.get p = some x ∧ m'.phases.get p = some x' ∧
    x.stats.minimum = x'.stats.minimum ∧ x.stats.maximum = x'.stats.maximum ∧
    x.stats.quantiles = x'.stats.quantiles

/-- The overviews are the same but for the means of phases and the lengths of bins. -/
structure StageOverview.Agrees (o o' : StageOverview) : Prop where
  stage : o.stage = o'.stage
  total : o.total = o'.total
  succeeded : o.succeeded = o'.succeeded
  failed : o.failed = o'.failed
  rate : o.rate = o'.rate
  completedBins : o.completedBins = o'.completedBins
  succeededBins : o.succeededBins = o'.succeededBins
  failedBins : o.failedBins = o'.failedBins

structure StageBlock.Agrees (b b' : StageBlock) : Prop where
  stage : b.stage = b'.stage
  facts : b.facts = b'.facts
  actions : List.Forall₂ ActionMetrics.Agrees b.actions b'.actions
  events : b.events.Perm b'.events
  streams : b.streams.Perm b'.streams
  overview : b.overview.Agrees b'.overview

structure SessionReport.Agrees (r r' : SessionReport) : Prop where
  streams : r.payload.streams = r'.payload.streams
  experiments : r.payload.experiments = r'.payload.experiments
  monitors : r.payload.monitors = r'.payload.monitors
  actions : List.Forall₂ ActionMetrics.Agrees r.payload.actions r'.payload.actions
  overviews : List.Forall₂ StageOverview.Agrees r.overviews r'.overviews
  events : r.payload.events.Perm r'.payload.events

/-- Lists that are permutations item by item, put one behind the other. -/
theorem flatMap_perm {α β : Type} {f g : α → List β} {R : α → α → Prop} {xs ys : List α}
    (related : List.Forall₂ R xs ys) (perm : ∀ x y, R x y → (f x).Perm (g y)) :
    (xs.flatMap f).Perm (ys.flatMap g) := by
  induction related with
  | nil => exact .nil
  | cons first _ ih => exact (perm _ _ first).append ih

namespace Tally

/-- Once their quantiles are taken the tallies agree, and they are of one stage. -/
structure Alike (t u : Tally) : Prop where
  agrees : t.takeQuantiles.Agrees u.takeQuantiles
  stage : t.stage = u.stage

theorem Alike.addTags {t u : Tally} (alike : Alike t u) (tags : List Tag) :
    Alike (t.addTags tags) (u.addTags tags) where
  agrees := {
    alike.agrees with
    tags := congrArg (fun set : TagSet => set.insertAll tags) alike.agrees.tags }
  stage := alike.stage

end Tally

namespace StageTally

theorem part_agrees {t u : Tally} {elapsed : Float} {custom : List CustomMetric}
    {p : ActionMetrics × List Event} (alike : t.Alike u) (made : part t elapsed custom = .ok p) :
    ∃ p', part u elapsed custom = .ok p' ∧ p.1.Agrees p'.1 ∧ p.2.Perm p'.2 := by
  obtain ⟨rate, declared, rated, collected, rfl⟩ := part_ok_iff.1 made
  have total : t.total = u.total := alike.agrees.total
  rw [total] at rated
  refine ⟨_, part_ok_iff.2 ⟨rate, declared, rated, collected, rfl⟩, ?_, alike.agrees.events⟩
  constructor
  case name => exact alike.agrees.name
  case stage => exact alike.stage
  case counts =>
    have succeeded : t.succeeded = u.succeeded := alike.agrees.succeeded
    have failed : t.failed = u.failed := alike.agrees.failed
    change Counts.mk t.total t.succeeded t.failed rate = ⟨u.total, u.succeeded, u.failed, rate⟩
    rw [total, succeeded, failed]
  case errors => exact congrArg (fun errors : Table _ _ => errors.entries.map _) alike.agrees.errors
  case tags => exact congrArg TagSet.tags alike.agrees.tags
  case figures =>
    intro p
    obtain ⟨s, s', t_summary, u_summary, minimum, maximum, quantiles⟩ := alike.agrees.figures p
    simp only [ActionMetrics.written, PerPhase.get_ofFn, t_summary, u_summary, Option.getD_some]
    refine ⟨_, _, rfl, rfl, ?_, ?_, ?_⟩
    · exact congrArg Scalar.finite minimum
    · exact congrArg Scalar.finite maximum
    · exact congrArg (Vector.map Scalar.finite) quantiles

theorem parts_agree {s u : StageTally} {elapsed : Float} {custom : List CustomMetric}
    {actions : List ActionMetrics} {events : List Event}
    (alike : List.Forall₂ Tally.Alike s.tallies.values u.tallies.values)
    (made : s.parts elapsed custom = .ok (actions, events)) :
    ∃ actions' events', u.parts elapsed custom = .ok (actions', events') ∧
      List.Forall₂ ActionMetrics.Agrees actions actions' ∧ events.Perm events' := by
  obtain ⟨parts, each, made⟩ := Outcome.bind_ok made
  cases made
  obtain ⟨parts', each', agree⟩ := Outcome.forall₂_related alike
    (fun t u p alike made => part_agrees alike made) (Outcome.mapM_ok_iff.1 each)
  refine ⟨parts'.map (·.1), parts'.flatMap (·.2), ?_, ?_, ?_⟩
  · rw [StageTally.parts, Outcome.mapM_ok_iff.2 each']
    rfl
  · exact List.forall₂_map_left_iff.2 (List.forall₂_map_right_iff.2
      (agree.imp fun p p' same => same.1))
  · exact flatMap_perm agree fun p p' same => same.2

end StageTally

namespace StageOverview

variable {actions actions' : List ActionMetrics} {streams streams' : List StreamSeries}

theorem counts_eq (agree : List.Forall₂ ActionMetrics.Agrees actions actions') :
    actions.map ActionMetrics.counts = actions'.map ActionMetrics.counts := by
  rw [← List.forall₂_eq_eq_eq]
  exact List.forall₂_map_left_iff.2 (List.forall₂_map_right_iff.2
    (agree.imp fun m m' same => same.counts))

theorem sumNat_congr (get : Counts → UInt64)
    (agree : List.Forall₂ ActionMetrics.Agrees actions actions') :
    sumNat get actions = sumNat get actions' := by
  have by_counts (actions : List ActionMetrics) :
      sumNat get actions = ((actions.map ActionMetrics.counts).map fun c => (get c).toNat).sum := by
    rw [List.map_map]
    rfl
  rw [by_counts, by_counts, counts_eq agree]

theorem sumRates_congr (agree : List.Forall₂ ActionMetrics.Agrees actions actions') :
    sumRates actions = sumRates actions' := by
  have by_counts (actions : List ActionMetrics) :
      sumRates actions = (actions.map ActionMetrics.counts).foldl (fun x c => x + c.rate) 0.0 := by
    rw [List.foldl_map]
    rfl
  rw [by_counts, by_counts, counts_eq agree]

/-- The bins of a counter, whatever the order of the streams. -/
theorem unreconciled_perm (perm : streams.Perm streams') (c : StreamCount) :
    c.unreconciled streams = c.unreconciled streams' :=
  Bins.addAll_perm (perm.map c.ofSeries)

theorem ofStage_agrees {stage : String} {o : StageOverview}
    (agree : List.Forall₂ ActionMetrics.Agrees actions actions') (perm : streams.Perm streams')
    (made : ofStage stage actions streams = .ok o) :
    ∃ o', ofStage stage actions' streams' = .ok o' ∧ o.Agrees o' := by
  have covers := ofStage_ok_iff.1 made
  obtain ⟨elapsed, added⟩ :=
    Bins.exists_addAll (f := (· + ·)) (0.0 : Float) (streams'.map StreamSeries.elapsed)
  refine ⟨{ o with
    phaseMeans := meansOf actions' o.total
    elapsedBins := elapsed
    rateBins := ratesOf o.completedBins elapsed }, ofStage_ok_iff.2 ?_,
    rfl, rfl, rfl, rfl, rfl, rfl, rfl, rfl⟩
  constructor
  case stage => exact covers.stage
  case counter =>
    intro c
    rw [← sumNat_congr c.ofAction agree, ← covers.counter c]
    cases c <;> rfl
  case settled => exact covers.settled
  case rate =>
    rw [← sumRates_congr agree]
    exact covers.rate
  case phaseMeans => rfl
  case bins =>
    intro c
    rw [← unreconciled_perm perm c]
    have before := covers.bins c
    cases c <;> exact before
  case elapsedBins => exact added
  case rateBins => rfl

end StageOverview

namespace StageBlock

variable {b b' : StageBlock}

theorem Agrees.outcome?_eq (agree : b.Agrees b') : b.outcome? = b'.outcome? := by
  obtain ⟨-, facts, -, -, -, overview⟩ := agree
  rw [outcome?, outcome?, facts]
  refine congrArg (fun f => b'.facts.experiment.map f) (funext fun a => ?_)
  rw [Outcome.ofStage, Outcome.ofStage, overview.total, overview.succeeded, overview.failed,
    overview.rate]

theorem Agrees.users?_eq (agree : b.Agrees b') : b.users? = b'.users? := by
  rw [users?, users?, agree.facts, agree.stage]

theorem Agrees.streams?_eq (agree : b.Agrees b') : b.streams? = b'.streams? := by
  rw [streams?, streams?, agree.stage, agree.streams.isEmpty_eq,
    StreamOverview.ofStreams_perm agree.streams]

end StageBlock

/-- What is made of each block the same is the same for all. -/
theorem filterMap_congr_agrees {α : Type} {f : StageBlock → Option α}
    {blocks blocks' : List StageBlock} (agree : List.Forall₂ StageBlock.Agrees blocks blocks')
    (same : ∀ b b', b.Agrees b' → f b = f b') : blocks.filterMap f = blocks'.filterMap f := by
  induction agree with
  | nil => rfl
  | cons first _ ih => rw [List.filterMap_cons, List.filterMap_cons, same _ _ first, ih]

theorem SessionReport.ofBlocks_agrees {blocks blocks' : List StageBlock} {r : SessionReport}
    (agree : List.Forall₂ StageBlock.Agrees blocks blocks') (made : ofBlocks blocks = .ok r) :
    ∃ r', ofBlocks blocks' = .ok r' ∧ r.Agrees r' := by
  obtain ⟨experiments, gathered, rfl⟩ := ofBlocks_ok_iff.1 made
  rw [filterMap_congr_agrees agree fun _ _ same => same.outcome?_eq] at gathered
  refine ⟨_, ofBlocks_ok_iff.2 ⟨experiments, gathered, rfl⟩, ?_⟩
  constructor
  case streams =>
    exact congrArg Table.ofList (filterMap_congr_agrees agree fun _ _ same => same.streams?_eq)
  case experiments => rfl
  case monitors =>
    have facts : blocks.flatMap (fun b => b.facts.monitors) =
        blocks'.flatMap (fun b => b.facts.monitors) := by
      clear made gathered
      induction agree with
      | nil => rfl
      | cons first _ ih => rw [List.flatMap_cons, List.flatMap_cons, first.facts, ih]
    have users := filterMap_congr_agrees agree fun _ _ same => same.users?_eq
    change MonitorReport.ofSeries _ _ = MonitorReport.ofSeries _ _
    rw [facts, users]
  case actions => exact List.rel_flatMap agree fun _ _ same => same.actions
  case overviews =>
    exact List.forall₂_map_left_iff.2 (List.forall₂_map_right_iff.2
      (agree.imp fun _ _ same => same.overview))
  case events => exact flatMap_perm agree fun _ _ same => same.events

end BenchReport
