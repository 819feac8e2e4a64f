import BenchReport.Json.Fields
import BenchReport.Stats.Summary
set_option autoImplicit false

namespace BenchReport.Summary

/-- The figures read into a summary. -/
def collect (median mean variance stdev minimum maximum : Float) (quantiles : Vector Float 13) :
    Summary Float :=
  ⟨median, mean, variance, stdev, minimum, maximum, quantiles⟩

def document : Fields (Summary Float) (Summary Float) :=
  collect
    <$> Fields.required "median" Codec.float median
    <*> Fields.required "mean" Codec.float mean
    <*> Fields.required "variance" Codec.float variance
    <*> Fields.required "stdev" Codec.float stdev
    <*> Fields.required "minimum" Codec.float minimum
    <*> Fields.required "maximum" Codec.float maximum
    <*> Fields.vector 13 fun i =>
      Fields.required (Stats.levelName Stats.levels[i]) Codec.float (·.quantiles[i])

def codec : Codec (Summary Float) := Codec.record "Summary" document

end BenchReport.Summary
