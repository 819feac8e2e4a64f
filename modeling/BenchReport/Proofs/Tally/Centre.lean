import BenchReport.Proofs.Outcome
import BenchReport.Proofs.Stats.Pooling
import BenchReport.Proofs.Tally.Aggregation
set_option autoImplicit false

namespace BenchReport

open Stats (Estimate)

namespace Tally

def isSampled (t : Tally) (p : Phase) : Bool := !(t.samples p).isEmpty

theorem isSampled_eq_false_iff (t : Tally) (p : Phase) :
    t.isSampled p = false ↔ t.samples p = [] := by
  rw [isSampled, Bool.not_eq_false', List.isEmpty_iff]

/-- The figures of a phase, and what its estimate was fed, are those of its samples. -/
structure FrozenOnce (t : Tally) : Prop where
  summaries (p : Phase) : t.summaries.get p = some (Summary.ofSamples (t.samples p))
  estimates (p : Phase) : t.estimates.get p = Estimate.pooled [Summary.ofSamples (t.samples p)]

structure Unfrozen (t : Tally) : Prop where
  summaries (p : Phase) : t.summaries.get p = none
  estimates (p : Phase) : t.estimates.get p = Estimate.empty

theorem unfrozen_empty (name stage : String) : Unfrozen (empty name stage) :=
  ⟨fun p => PerPhase.get_ofFn _ p, fun p => PerPhase.get_ofFn _ p⟩

theorem Unfrozen.ingest {t u : Tally} {e : Event} (unfrozen : Unfrozen t)
    (ingested : t.ingest e = .ok u) : Unfrozen u := by
  unfold Tally.ingest at ingested
  split at ingested <;> cases ingested
  exact ⟨unfrozen.summaries, unfrozen.estimates⟩

theorem Unfrozen.foldlM_ingest {t u : Tally} {events : List Event} (unfrozen : Unfrozen t)
    (run : events.foldlM Tally.ingest t = .ok u) : Unfrozen u := by
  induction events generalizing t with
  | nil =>
      cases run
      exact unfrozen
  | cons e rest ih =>
      rw [List.foldlM_cons] at run
      obtain ⟨t', ingested, run⟩ := Outcome.bind_ok run
      exact ih (unfrozen.ingest ingested) run

theorem Unfrozen.freeze {t : Tally} (unfrozen : Unfrozen t) : FrozenOnce t.freeze where
  summaries p := by
    simp only [Tally.freeze, Tally.takeQuantiles, Tally.takeMoments, PerPhase.get_ofFn,
      Option.getD_some, unfrozen.summaries, Option.getD_none]
    rfl
  estimates p := by
    simp only [Tally.freeze, Tally.takeQuantiles, Tally.takeMoments, PerPhase.get_ofFn,
      unfrozen.summaries, unfrozen.estimates, Option.getD_none]
    rfl

/-- The figures that a part adds to a merge: none if it was not sampled. -/
def share (p : Phase) (t : Tally) : List (Summary Float) :=
  if t.isSampled p then [Summary.ofSamples (t.samples p)] else []

/-- The central figures of a merge are those of the only part or those estimated from all. -/
structure Centred (s : Summary Float) (parts : List (Summary Float)) : Prop where
  only : ∀ part, parts = [part] → s.SameCentre part
  pooled : 2 ≤ parts.length → s.SameCentre ((Estimate.pooled parts).apply s)

theorem centred_only (s : Summary Float) : Centred s [s] where
  only part same := by
    cases same
    exact ⟨rfl, rfl, rfl, rfl⟩
  pooled several := absurd several (Nat.not_succ_le_self 1)

theorem centred_combine {parts : List (Summary Float)} (some : parts ≠ [])
    (ours theirs : Summary Float) :
    Centred (combine (Estimate.pooled parts) ours theirs) (parts ++ [theirs]) where
  only part same := by
    have length := congrArg List.length same
    rw [List.length_append, List.length_singleton, List.length_singleton] at length
    exact absurd (List.length_eq_zero_iff.1 (by omega)) some
  pooled _ := by
    rw [Estimate.pooled_concat]
    exact ⟨rfl, rfl, rfl, rfl⟩

/-- Samples, figures and estimate of a phase come from parts with these figures. -/
structure MergedFrom (samples : List Float) (figures : Option (Summary Float) × Estimate Float)
    (parts : List (Summary Float)) : Prop where
  sampled : samples = [] ↔ parts = []
  estimate : parts ≠ [] → figures.2 = Estimate.pooled parts
  summary : parts ≠ [] → ∃ s, figures.1 = some s ∧ Centred s parts

def figures (t : Tally) (p : Phase) : Option (Summary Float) × Estimate Float :=
  (t.summaries.get p, t.estimates.get p)

theorem mergedFrom_nothing (figures : Option (Summary Float) × Estimate Float) :
    MergedFrom [] figures [] where
  sampled := ⟨fun _ => rfl, fun _ => rfl⟩
  estimate some := absurd rfl some
  summary some := absurd rfl some

section Steps

variable {t u : Tally} {h k : List Event} {p : Phase} {parts : List (Summary Float)}

theorem share_of_unsampled (none : u.samples p = []) : share p u = [] := by
  rw [share, (u.isSampled_eq_false_iff p).2 none, if_neg Bool.false_ne_true]

theorem share_of_sampled (some : u.samples p ≠ []) :
    share p u = [Summary.ofSamples (u.samples p)] := by
  rw [share, if_pos]
  exact Bool.of_not_eq_false (mt (u.isSampled_eq_false_iff p).1 some)

theorem FrozenOnce.mergedFrom (frozen : FrozenOnce t) (p : Phase) :
    MergedFrom (t.samples p) (t.figures p) (share p t) := by
  by_cases none : t.samples p = []
  · rw [share_of_unsampled none, none]
    exact mergedFrom_nothing _
  · rw [share_of_sampled none]
    exact ⟨⟨fun absent => absurd absent none, fun absent => absurd absent (List.cons_ne_nil _ _)⟩,
      fun _ => frozen.estimates p, fun _ => ⟨_, frozen.summaries p, centred_only _⟩⟩

/-- A stand-in of the other side is dropped. -/
theorem mergePhase_of_unsampled (frozen : FrozenOnce u) (none : u.samples p = []) :
    mergePhase t u p = t.figures p := by
  rw [mergePhase, frozen.summaries p, none]
  rfl

/-- What our side has without samples gives way to the other side. -/
theorem mergePhase_of_first (frozen : FrozenOnce u) (none : t.samples p = [])
    (some : u.samples p ≠ []) : mergePhase t u p = u.figures p := by
  rw [mergePhase, figures, frozen.summaries p, List.isEmpty_eq_false_iff.2 some, none]
  cases t.summaries.get p <;> rfl

theorem mergePhase_of_both (frozen : FrozenOnce u) {ours : Summary Float}
    (summarised : t.summaries.get p = some ours) (t_some : t.samples p ≠ [])
    (u_some : u.samples p ≠ []) :
    mergePhase t u p =
      (some (combine (t.estimates.get p) ours (Summary.ofSamples (u.samples p))),
        (t.estimates.get p).feed (Summary.ofSamples (u.samples p))) := by
  rw [mergePhase, frozen.summaries p, List.isEmpty_eq_false_iff.2 u_some, summarised,
    List.isEmpty_eq_false_iff.2 t_some]
  rfl

/-- A phase of two tallies: either side may be without samples. -/
theorem MergedFrom.mergePhase (merged : MergedFrom (t.samples p) (t.figures p) parts)
    (frozen : FrozenOnce u) :
    MergedFrom (t.samples p ++ u.samples p) (Tally.mergePhase t u p)
      (parts ++ share p u) := by
  by_cases u_none : u.samples p = []
  · rw [u_none, List.append_nil, share_of_unsampled u_none, List.append_nil,
      mergePhase_of_unsampled frozen u_none]
    exact merged
  · by_cases t_none : t.samples p = []
    -- What stands on our side comes of no part, so nothing fed to its estimate may survive.
    · rw [t_none, List.nil_append, merged.sampled.1 t_none, List.nil_append,
        mergePhase_of_first frozen t_none u_none]
      exact frozen.mergedFrom p
    · have parted : parts ≠ [] := mt merged.sampled.2 t_none
      obtain ⟨ours, summarised, -⟩ := merged.summary parted
      have estimate : t.estimates.get p = Estimate.pooled parts := merged.estimate parted
      rw [mergePhase_of_both frozen summarised t_none u_none, estimate, share_of_sampled u_none]
      refine ⟨?_, fun _ => (Estimate.pooled_concat _ _).symm,
        fun _ => ⟨_, rfl, centred_combine parted _ _⟩⟩
      exact ⟨fun none => absurd (List.append_eq_nil_iff.1 none).1 t_none,
        fun none => absurd (List.append_eq_nil_iff.1 none).1 parted⟩

/-- One more worker is merged. -/
theorem MergedFrom.merge (merged : MergedFrom (t.samples p) (t.figures p) parts)
    (frozen : FrozenOnce u) (t_counted : Counted t h) (u_counted : Counted u k)
    (fits : (h ++ k).length < 2 ^ 64) :
    MergedFrom ((t.merge u).samples p) ((t.merge u).figures p) (parts ++ share p u) := by
  rw [List.length_append] at fits
  rcases merge_cases t u with ⟨empty, result⟩ | ⟨empty, result⟩ | result <;> rw [result]
  · have none := u_counted.samples p
    rw [(u_counted.isEmpty_iff (by omega)).1 empty] at none
    rw [share_of_unsampled none, List.append_nil]
    exact merged
  · have none := t_counted.samples p
    rw [(t_counted.isEmpty_iff (by omega)).1 empty] at none
    rw [merged.sampled.1 none, List.nil_append]
    exact frozen.mergedFrom p
  · have both := merged.mergePhase frozen
    rw [samples_joined]
    simp only [Tally.figures, joined, PerPhase.get_ofFn]
    exact both

end Steps

/-- A tally with the events that it counted, frozen once. -/
def FrozenOf (u : Tally) (k : List Event) : Prop := FrozenOnce u ∧ Counted u k

/-- All workers are merged one after another. -/
theorem MergedFrom.foldl {t : Tally} {h : List Event} {p : Phase} {parts : List (Summary Float)}
    (merged : MergedFrom (t.samples p) (t.figures p) parts) (counted : Counted t h)
    {tallies : List Tally} {histories : List (List Event)}
    (workers : List.Forall₂ FrozenOf tallies histories)
    (fits : (h ++ histories.flatten).length < 2 ^ 64) :
    let all := tallies.foldl Tally.merge t
    MergedFrom (all.samples p) (all.figures p) (parts ++ tallies.flatMap (share p)) := by
  induction workers generalizing t h parts with
  | nil =>
      rw [List.flatMap_nil, List.append_nil]
      exact merged
  | @cons u k tallies histories worker _ ih =>
      obtain ⟨frozen, u_counted⟩ := worker
      rw [List.flatten_cons, ← List.append_assoc] at fits
      have front : (h ++ k).length < 2 ^ 64 := by
        rw [List.length_append] at fits
        omega
      rw [List.foldl_cons, List.flatMap_cons, ← List.append_assoc]
      exact ih (merged.merge frozen counted u_counted front) (counted.merge u_counted front) fits

/-- The frozen figures of the parts that were sampled. -/
theorem map_summaries_filter {tallies : List Tally} (frozen : ∀ t ∈ tallies, FrozenOnce t)
    (p : Phase) :
    (tallies.filter (·.isSampled p)).map (·.summaries.get p) =
      (tallies.flatMap (share p)).map some := by
  induction tallies with
  | nil => rfl
  | cons t rest ih =>
      have later := ih fun u mem => frozen u (List.mem_cons_of_mem _ mem)
      rw [List.flatMap_cons, List.map_append, ← later, share]
      cases sampled : t.isSampled p with
      | false =>
          rw [List.filter_cons, sampled]
          rfl
      | true =>
          rw [List.filter_cons, sampled, if_pos rfl, List.map_cons,
            (frozen t List.mem_cons_self).summaries p]
          rfl

end Tally

abbrev Worker := String × List Event

namespace Worker

def tally (action : String) (w : Worker) : Except Error Tally :=
  Tally.freeze <$> w.2.foldlM Tally.ingest (Tally.empty action w.1)

theorem tally_ok (action : String) (w : Worker) (same : ∀ e ∈ w.2, e.name = action) :
    ∃ t, w.tally action = .ok t ∧ Tally.FrozenOf t w.2 := by
  obtain ⟨t, run, -, counted, -⟩ := Tally.foldlM_ingest (Tally.counted_empty action w.1)
    (Tally.tagged_empty action w.1) w.2 same
  refine ⟨t.freeze, by rw [tally, run]; rfl, ?_, counted.freeze⟩
  exact ((Tally.unfrozen_empty action w.1).foldlM_ingest run).freeze

theorem mapM_tally_ok (action : String) (workers : List Worker)
    (same : ∀ w ∈ workers, ∀ e ∈ w.2, e.name = action) :
    ∃ tallies, workers.mapM (tally action) = .ok tallies ∧
      List.Forall₂ Tally.FrozenOf tallies (workers.map (·.2)) := by
  induction workers with
  | nil => exact ⟨[], rfl, .nil⟩
  | cons w rest ih =>
      obtain ⟨t, first, frozen⟩ := w.tally_ok action (same w List.mem_cons_self)
      obtain ⟨tallies, later, all_frozen⟩ :=
        ih fun w' mem => same w' (List.mem_cons_of_mem _ mem)
      exact ⟨t :: tallies, by rw [List.mapM_cons, first, later]; rfl, .cons frozen all_frozen⟩

/-- Workers that counted events of one action are frozen and merged one after another. In each phase
the central figures that come out are those of the only worker that was sampled, or else those of
the estimate that was fed with the frozen figures of the sampled workers and nothing more, in their
order. In exact arithmetic such an estimate is an average in which all of them have the same weight.
A list in memory is shorter than `2 ^ 64`. -/
theorem merge_centred (action stage : String) (workers : List Worker)
    (same : ∀ w ∈ workers, ∀ e ∈ w.2, e.name = action)
    (fits : (workers.flatMap (·.2)).length < 2 ^ 64) :
    (∃ tallies, workers.mapM (tally action) = .ok tallies ∧
      ∀ p, ∃ parts,
        (tallies.filter (·.isSampled p)).map (·.summaries.get p) = parts.map some ∧
        (parts ≠ [] → ∃ s,
          (tallies.foldl Tally.merge (Tally.empty action stage)).summaries.get p = some s ∧
          (∀ part, parts = [part] → s.SameCentre part) ∧
          (2 ≤ parts.length → s.SameCentre ((Estimate.pooled parts).apply s)))) ∧
      ∀ (samples : List (List ℝ)) (s : Summary ℝ), samples ≠ [] →
        let parts := samples.map Summary.ofSamples
        let merged := (Estimate.pooled parts).apply s
        merged.mean = Stats.average (parts.map Summary.mean) ∧
          merged.variance = Stats.average (parts.map Summary.variance) ∧
          merged.stdev ^ 2 = Stats.average (parts.map fun part => part.stdev ^ 2) := by
  refine ⟨?_, fun samples s some => Estimate.exact_pooled some s⟩
  obtain ⟨tallies, run, frozen⟩ := mapM_tally_ok action workers same
  have each : ∀ t ∈ tallies, Tally.FrozenOnce t := ((List.forall₂_and_left _ _).1 frozen).1
  refine ⟨tallies, run, fun p => ⟨tallies.flatMap (Tally.share p),
    Tally.map_summaries_filter each p, fun some => ?_⟩⟩
  have nothing : Tally.MergedFrom ((Tally.empty action stage).samples p)
      ((Tally.empty action stage).figures p) [] := by
    rw [(Tally.counted_empty action stage).samples p]
    exact Tally.mergedFrom_nothing _
  have merged := nothing.foldl (Tally.counted_empty action stage) frozen
    (by rw [List.nil_append, ← List.flatMap_def]; exact fits)
  rw [List.nil_append] at merged
  obtain ⟨s, summarised, centred⟩ := merged.summary some
  exact ⟨s, summarised, centred.only, centred.pooled⟩

/-- Of four workers two were sampled, the first of them behind one that took no time for its event,
the other behind one that saw no event at all. -/
theorem merge_centred_around_unsampled :
    let counted (seconds : Float) :=
      (Event.ofObservation (.timed "login" seconds none) "ramp").toOption.toList
    let workers : List Worker :=
      [("ramp", counted 0.0), ("ramp", counted 0.5), ("ramp", []), ("ramp", counted 0.25)]
    workers.map (·.2.length) = [1, 1, 0, 1] ∧
      ∃ tallies, workers.mapM (tally "login") = .ok tallies ∧ ∃ parts s,
        (tallies.filter (·.isSampled .total)).map (·.summaries.get .total) = parts.map some ∧
        (tallies.foldl Tally.merge (Tally.empty "login" "ramp")).summaries.get .total = some s ∧
        parts.length = 2 ∧ s.SameCentre ((Estimate.pooled parts).apply s) := by
  intro counted workers
  refine ⟨by decide +kernel, ?_⟩
  obtain ⟨⟨tallies, run, phases⟩, -⟩ :=
    merge_centred "login" "ramp" workers (by decide +kernel) (by decide +kernel)
  obtain ⟨parts, sampled, centred⟩ := phases .total
  have length : parts.length = 2 := by
    have same := congrArg List.length sampled
    rw [List.length_map, List.length_map] at same
    have two : ((workers.mapM (tally "login")).toOption.getD []).countP (·.isSampled .total) = 2 :=
      by decide +kernel
    rw [run] at two
    rw [← same, ← List.countP_eq_length_filter]
    exact two
  obtain ⟨s, summarised, -, pooled⟩ := centred (List.ne_nil_of_length_eq_add_one length)
  exact ⟨tallies, run, parts, s, sampled, summarised, length, pooled (Nat.le_of_eq length.symm)⟩

end Worker

end BenchReport
