import BenchReport.Tag
set_option autoImplicit false

namespace BenchReport

structure Experiment where
  name : String
  randomized : Bool
  tags : List Tag
  deriving BEq, DecidableEq

def Experiment.codec : Codec Experiment :=
  Codec.record "Experiment"
    (Experiment.mk
      <$> Fields.required "name" Codec.text name
      <*> Fields.defaulted "randomized" Codec.bool randomized false
      <*> Fields.defaulted "tags" Tag.codec.list tags [])

structure Mutation where
  name : String
  chance : Float
  targets : List String
  kind : String
  tags : List Tag
  deriving BEq, DecidableEq

def Mutation.codec : Codec Mutation :=
  Codec.record "Mutation"
    (Mutation.mk
      <$> Fields.required "name" Codec.text name
      <*> Fields.required "chance" Codec.float chance
      <*> Fields.defaulted "targets" Codec.text.list targets []
      <*> Fields.required "mutation_type" Codec.text kind
      <*> Fields.defaulted "tags" Tag.codec.list tags [])

structure Variant where
  name : String
  weight : Float
  distribution : Option String
  distributionInterval : Option Float
  mutations : List Mutation
  tags : List Tag
  deriving BEq, DecidableEq

def Variant.codec : Codec Variant :=
  Codec.record "Variant"
    (Variant.mk
      <$> Fields.required "name" Codec.text name
      <*> Fields.required "weight" Codec.float weight
      <*> Fields.optional "distribution" Codec.text distribution
      <*> Fields.optional "distribution_interval" Codec.float distributionInterval
      <*> Fields.defaulted "mutations" Mutation.codec.list mutations []
      <*> Fields.defaulted "tags" Tag.codec.list tags [])

/-- Marks a stage as a variant of an experiment. -/
structure Assignment where
  experiment : Experiment
  variant : Variant
  deriving BEq, DecidableEq

def Assignment.codec : Codec Assignment :=
  Codec.record "Assignment"
    (Assignment.mk
      <$> Fields.required "experiment" Experiment.codec experiment
      <*> Fields.required "variant" Variant.codec variant)

end BenchReport
