import BenchReport.Experiment.Plan
import BenchReport.Grouped
import BenchReport.Stage.Overview
set_option autoImplicit false

namespace BenchReport

/-- What the stage of a variant counted, and its actions per second. -/
structure Turnout (α : Type) where
  completed : UInt64
  succeeded : UInt64
  failed : UInt64
  rate : α
  deriving BEq

/-- A variant's shares of its experiment. -/
structure Shares (α : Type) where
  completed : α
  succeeded : α
  failed : α
  rate : α
  deriving BEq

namespace Turnout

open Scalar

variable {α : Type} [Scalar α]

/-- The part of a whole in hundredths; there is no part of nothing. -/
def share (part whole : α) : α :=
  if lt (ofNat 0) whole then round2 (finite (part / whole)) else ofNat 0

/-- What the variants came to together. -/
def total (turnouts : List (Turnout α)) : Except Error (Turnout α) := do
  let completed ← Counter.sum (turnouts.map completed)
  let succeeded ← Counter.sum (turnouts.map succeeded)
  let failed ← Counter.sum (turnouts.map failed)
  return ⟨completed, succeeded, failed, sum (turnouts.map rate)⟩

/-- A counter as a number. -/
def number (n : UInt64) : α := ofNat n.toNat

/-- What a variant has of the whole. -/
def shares (whole t : Turnout α) : Shares α where
  completed := share (number t.completed) (number whole.completed)
  succeeded := share (number t.succeeded) (number whole.succeeded)
  failed := share (number t.failed) (number whole.failed)
  rate := share t.rate whole.rate

/-- The median rate in hundredths. -/
def medianRate (turnouts : List (Turnout α)) : α :=
  round2
    (Stats.quantile ((turnouts.map fun t => finite t.rate).mergeSort before) (ofNat 1 / ofNat 2))

end Turnout

structure ExperimentRow (α : Type) where
  name : String
  randomized : Bool
  completed : UInt64
  succeeded : UInt64
  failed : UInt64
  medianRate : α
  deriving BEq

def ExperimentRow.codec : Codec (ExperimentRow Float) :=
  Codec.record "ExperimentRow"
    (ExperimentRow.mk
      <$> Fields.required "experiment_name" Codec.text name
      <*> Fields.required "experiment_randomized" Codec.bool randomized
      <*> Fields.required "experiment_completed" Codec.count completed
      <*> Fields.required "experiment_succeeded" Codec.count succeeded
      <*> Fields.required "experiment_failed" Codec.count failed
      <*> Fields.required "experiment_median_aps" Codec.float medianRate)

structure VariantRow (α : Type) where
  name : String
  experiment : String
  weight : Float
  distribution : Option String
  distributionInterval : Option Float
  completed : UInt64
  succeeded : UInt64
  failed : UInt64
  rate : α
  completedShare : α
  succeededShare : α
  failedShare : α
  rateShare : α
  deriving BEq

def VariantRow.codec : Codec (VariantRow Float) :=
  Codec.record "VariantRow"
    (VariantRow.mk
      <$> Fields.required "variant_name" Codec.text name
      <*> Fields.required "variant_experiment" Codec.text experiment
      <*> Fields.required "variant_weight" Codec.float weight
      <*> Fields.nullable "variant_distribution" Codec.text distribution
      <*> Fields.nullable "variant_distribution_interval" Codec.float distributionInterval
      <*> Fields.required "variant_completed" Codec.count completed
      <*> Fields.required "variant_succeeded" Codec.count succeeded
      <*> Fields.required "variant_failed" Codec.count failed
      <*> Fields.required "variant_actions_per_second" Codec.float rate
      <*> Fields.required "variant_ratio_completed" Codec.float completedShare
      <*> Fields.required "variant_ratio_succeeded" Codec.float succeededShare
      <*> Fields.required "variant_ratio_failed" Codec.float failedShare
      <*> Fields.required "variant_ratio_aps" Codec.float rateShare)

structure MutationRow where
  name : String
  experiment : String
  variant : String
  chance : Float
  targets : List String
  kind : String
  deriving BEq

def MutationRow.codec : Codec MutationRow :=
  Codec.record "MutationRow"
    (MutationRow.mk
      <$> Fields.required "mutation_name" Codec.text name
      <*> Fields.required "mutation_experiment_name" Codec.text experiment
      <*> Fields.required "mutation_variant_name" Codec.text variant
      <*> Fields.required "mutation_chance" Codec.float chance
      <*> Fields.required "mutation_targets" Codec.text.list targets
      <*> Fields.required "mutation_type" Codec.text kind)

/-- A variant and what it came to. -/
structure Outcome (α : Type) where
  variant : Variant
  turnout : Turnout α
  deriving BEq

/-- The outcome of a variant whose stage was summed up. -/
def Outcome.ofStage (variant : Variant) (o : StageOverview) : Outcome Float :=
  ⟨variant, ⟨o.total, o.succeeded, o.failed, o.rate⟩⟩

structure ExperimentReport (α : Type) where
  experiment : ExperimentRow α
  variants : List (VariantRow α)
  mutations : List MutationRow
  tags : List Tag
  deriving BEq

namespace ExperimentReport

def codec : Codec (ExperimentReport Float) :=
  Codec.record "ExperimentReport"
    (ExperimentReport.mk
      <$> Fields.required "experiment" ExperimentRow.codec experiment
      <*> Fields.required "variants" VariantRow.codec.list variants
      <*> Fields.required "mutations" MutationRow.codec.list mutations
      <*> Fields.required "tags" Tag.codec.list tags)

section

variable {α : Type} [Scalar α]

def variantRow (e : Experiment) (o : Outcome α) (s : Shares α) : VariantRow α where
  name := o.variant.name
  experiment := e.name
  weight := o.variant.weight
  distribution := o.variant.distribution
  distributionInterval := o.variant.distributionInterval
  completed := o.turnout.completed
  succeeded := o.turnout.succeeded
  failed := o.turnout.failed
  rate := Scalar.finite o.turnout.rate
  completedShare := s.completed
  succeededShare := s.succeeded
  failedShare := s.failed
  rateShare := s.rate

def mutationRows (e : Experiment) (o : Outcome α) : List MutationRow :=
  o.variant.mutations.map fun m => ⟨m.name, e.name, o.variant.name, m.chance, m.targets, m.kind⟩

/-- The report on an experiment with these outcomes, of which the whole is known. -/
def ofWhole (e : Experiment) (outcomes : List (Outcome α)) (whole : Turnout α) :
    ExperimentReport α where
  experiment := {
    name := e.name
    randomized := e.randomized
    completed := whole.completed
    succeeded := whole.succeeded
    failed := whole.failed
    medianRate := Turnout.medianRate (outcomes.map Outcome.turnout) }
  variants := outcomes.map fun o => variantRow e o (Turnout.shares whole o.turnout)
  mutations := outcomes.flatMap (mutationRows e)
  tags := e.tags

/-- The report on an experiment with these outcomes. -/
def ofOutcomes (e : Experiment) (outcomes : List (Outcome α)) :
    Except Error (ExperimentReport α) :=
  ofWhole e outcomes <$> Turnout.total (outcomes.map Outcome.turnout)

/-- The outcomes of each experiment name, with the experiment as the first of them declares it. -/
def gathered (outcomes : List (Experiment × Outcome α)) : List (Experiment × List (Outcome α)) :=
  (Grouped.ofList (fun o => o.1.name) outcomes).filterMap fun g =>
    g.2.head?.map fun first => (first.1, g.2.map (·.2))

/-- One report for each experiment name. -/
def ofAll (outcomes : List (Experiment × Outcome α)) : Except Error (List (ExperimentReport α)) :=
  (gathered outcomes).mapM fun g => ofOutcomes g.1 g.2

def variantRows (reports : List (ExperimentReport α)) : List (VariantRow α) :=
  reports.flatMap variants

def allMutationRows (reports : List (ExperimentReport α)) : List MutationRow :=
  reports.flatMap mutations

end

/-- All reports as one record. -/
def collectionCodec : Codec (List (ExperimentReport Float)) :=
  Codec.record "ExperimentReports" (Fields.required "experiments" codec.list id)

end ExperimentReport

end BenchReport
