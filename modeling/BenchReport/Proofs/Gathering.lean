import BenchReport.Proofs.Experiments
set_option autoImplicit false

namespace BenchReport

variable {α : Type} [Scalar α]

/-- The row tells what an outcome of an experiment came to. -/
structure VariantRow.Tells (v : VariantRow α) (experiment : String) (o : Outcome α) : Prop where
  name : v.name = o.variant.name
  experiment : v.experiment = experiment
  weight : v.weight = o.variant.weight
  distribution : v.distribution = o.variant.distribution
  distributionInterval : v.distributionInterval = o.variant.distributionInterval
  completed : v.completed = o.turnout.completed
  succeeded : v.succeeded = o.turnout.succeeded
  failed : v.failed = o.turnout.failed
  rate : v.rate = Scalar.finite o.turnout.rate

namespace ExperimentReport

def outcomesOf (name : String) (outcomes : List (Experiment × Outcome α)) : List (Outcome α) :=
  (outcomes.filter fun o => o.1.name = name).map (·.2)

def mutationsOf (experiment : String) (o : Outcome α) : List MutationRow :=
  o.variant.mutations.map fun m => {
    name := m.name
    experiment
    variant := o.variant.name
    chance := m.chance
    targets := m.targets
    kind := m.kind }

/-- The report is on all outcomes of its experiment and on no others. -/
structure Gathers (r : ExperimentReport α) (outcomes : List (Experiment × Outcome α)) : Prop where
  /-- The first outcome tells whether the experiment is randomized, and its tags. -/
  declared : ∃ first ∈ outcomes.find? (fun o => o.1.name = r.experiment.name),
    r.experiment.randomized = first.1.randomized ∧ r.tags = first.1.tags
  variants : List.Forall₂ (fun o v => v.Tells r.experiment.name o)
    (outcomesOf r.experiment.name outcomes) r.variants
  mutations : r.mutations =
    (outcomesOf r.experiment.name outcomes).flatMap (mutationsOf r.experiment.name)
  completed : r.experiment.completed.toNat =
    Turnout.sumNat Turnout.completed (turnoutsOf r.experiment.name outcomes)
  succeeded : r.experiment.succeeded.toNat =
    Turnout.sumNat Turnout.succeeded (turnoutsOf r.experiment.name outcomes)
  failed : r.experiment.failed.toNat =
    Turnout.sumNat Turnout.failed (turnoutsOf r.experiment.name outcomes)

variable {outcomes : List (Experiment × Outcome α)} {reports : List (ExperimentReport α)}
  {r : ExperimentReport α} {g : String × List (Experiment × Outcome α)}

theorem On.variants (on : r.On g) :
    List.Forall₂ (fun o v => o.1.name = g.1 ∧ v.Tells g.1 o.2) g.2 r.variants := by
  obtain ⟨named, own, first, -, made⟩ := on
  obtain ⟨whole, -, rfl⟩ := ofOutcomes_ok_iff.1 made
  rw [ofWhole, List.forall₂_map_right_iff, List.forall₂_map_right_iff, List.forall₂_same]
  intro o mem
  rw [← named]
  exact ⟨(own o mem).trans named.symm, rfl, rfl, rfl, rfl, rfl, rfl, rfl, rfl, rfl⟩

theorem On.mutations (on : r.On g) :
    r.mutations = g.2.flatMap fun o => mutationsOf o.1.name o.2 := by
  obtain ⟨named, own, first, -, made⟩ := on
  obtain ⟨whole, -, rfl⟩ := ofOutcomes_ok_iff.1 made
  rw [ofWhole, List.flatMap_map]
  refine List.flatMap_congr fun o mem => ?_
  rw [own o mem, ← named]
  rfl

theorem gathers_of_mem (made : ofAll outcomes = .ok reports) (mem : r ∈ reports) :
    r.Gathers outcomes := by
  have grouped := Grouped.ofList_groups (fun o : Experiment × Outcome α => o.1.name) outcomes
  obtain ⟨g, listed, on⟩ := Outcome.exists_of_mem (ofAll_on made) mem
  have items : outcomes.filter (fun o => o.1.name = r.experiment.name) = g.2 := by
    rw [on.named, grouped.items g listed]
  constructor
  case declared =>
    obtain ⟨first, head, of_group⟩ := on.made
    obtain ⟨whole, -, rfl⟩ := ofOutcomes_ok_iff.1 of_group
    rw [← List.head?_filter, items, head]
    exact ⟨first, rfl, rfl, rfl⟩
  case variants =>
    rw [outcomesOf, items, List.forall₂_map_left_iff, on.named]
    exact on.variants.imp fun o v tells => tells.2
  case mutations =>
    rw [outcomesOf, items, on.mutations, List.flatMap_map]
    refine List.flatMap_congr fun o mem => ?_
    rw [on.own o mem, on.named]
  case completed => exact counters_ofAll made mem .completed
  case succeeded => exact counters_ofAll made mem .succeeded
  case failed => exact counters_ofAll made mem .failed

/-- Outcomes are grouped by experiment without loss, if the counters of each experiment fit 64 bits.
There is one report for each experiment, in the order in which the experiments first appear, and it
is on their outcomes. The rows of all variants are those of all outcomes, arranged so that the
outcomes of one experiment keep their order; so are the rows of all mutations. -/
theorem ofAll_gathers (outcomes : List (Experiment × Outcome α))
    (fits : ∀ name, Turnout.Fits (turnoutsOf name outcomes)) :
    ∃ reports, ofAll outcomes = .ok reports ∧
      reports.map (fun r => r.experiment.name) = (outcomes.map fun o => o.1.name).eraseDups ∧
      (∀ r ∈ reports, r.Gathers outcomes) ∧
      ∃ arranged : List (Experiment × Outcome α), arranged.Perm outcomes ∧
        (∀ name, arranged.filter (fun o => o.1.name = name) =
          outcomes.filter fun o => o.1.name = name) ∧
        List.Forall₂ (fun o v => v.Tells o.1.name o.2) arranged (variantRows reports) ∧
        allMutationRows reports = arranged.flatMap fun o => mutationsOf o.1.name o.2 := by
  have grouped := Grouped.ofList_groups (fun o : Experiment × Outcome α => o.1.name) outcomes
  obtain ⟨reports, made⟩ := (exists_ofAll_iff outcomes).2 fits
  have each := ofAll_on made
  refine ⟨reports, made, ?_, fun r mem => gathers_of_mem made mem, _,
    Grouped.flatMap_ofList_perm _ outcomes, fun name => grouped.filter_flatMap name, ?_, ?_⟩
  · rw [names_ofAll made, Grouped.keys_ofList]
  · refine List.rel_flatMap each fun g r on => on.variants.imp fun o v tells => ?_
    rw [tells.1]
    exact tells.2
  · rw [allMutationRows, List.flatMap_assoc]
    have rows : List.Forall₂ (· = ·)
        (List.flatMap (fun g => g.2.flatMap fun o => mutationsOf o.1.name o.2)
          (Grouped.ofList (fun o : Experiment × Outcome α => o.1.name) outcomes))
        (reports.flatMap mutations) := by
      refine List.rel_flatMap each fun g r on => ?_
      rw [on.mutations, List.forall₂_eq_eq_eq]
    rw [List.forall₂_eq_eq_eq] at rows
    exact rows.symm

/-- Two experiments in turns; the second outcome of the first declares it in another way. -/
def inTurns : List (Experiment × Outcome Float) :=
  [(⟨"checkout", true, [⟨"team", "payments"⟩]⟩,
      ⟨⟨"a", 0.5, none, none, [⟨"slow", 0.25, ["login"], "delay", []⟩], []⟩, ⟨3, 2, 1, 1.5⟩⟩),
    (⟨"search", false, []⟩, ⟨⟨"a", 1.0, none, none, [], []⟩, ⟨1, 1, 0, 0.5⟩⟩),
    (⟨"checkout", false, []⟩, ⟨⟨"b", 0.5, none, none, [], []⟩, ⟨4, 4, 0, 2.0⟩⟩)]

theorem ofAll_gathers_inTurns :
    (∀ name, Turnout.Fits (turnoutsOf name inTurns)) ∧
      ∃ reports, ofAll inTurns = .ok reports ∧
        ∃ r ∈ reports, r.Gathers inTurns ∧ r.experiment.name = "checkout" ∧
          r.experiment.randomized = true ∧ r.variants.map VariantRow.name = ["a", "b"] ∧
          r.experiment.completed.toNat = 7 := by
  have fits (name : String) : Turnout.Fits (turnoutsOf name inTurns) := by
    intro c
    have all : Turnout.sumNat c.ofTurnout (inTurns.map fun o => o.2.turnout) < 2 ^ 64 := by
      cases c with
      | completed => decide
      | succeeded => decide
      | failed => decide
    exact Nat.lt_of_le_of_lt (sumNat_turnoutsOf_le _ name inTurns) all
  obtain ⟨reports, made, names, gathers, -⟩ := ofAll_gathers inTurns fits
  have listed : "checkout" ∈ reports.map fun r => r.experiment.name := by
    rw [names]
    decide
  obtain ⟨r, mem, named⟩ := List.mem_map.1 listed
  have whole := gathers r mem
  have variants := whole.variants
  have completed := whole.completed
  obtain ⟨first, found, randomized, -⟩ := whole.declared
  rw [named] at variants completed found
  refine ⟨fits, reports, made, r, mem, whole, named, ?_, ?_, completed⟩
  · cases found
    exact randomized
  · have names : (outcomesOf "checkout" inTurns).map (fun o => o.variant.name) = ["a", "b"] := by
      decide
    rw [← names, eq_comm, ← List.forall₂_eq_eq_eq, List.forall₂_map_left_iff,
      List.forall₂_map_right_iff]
    exact variants.imp fun o v tells => tells.name.symm

end ExperimentReport

end BenchReport
