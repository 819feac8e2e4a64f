import BenchReport.Stats.Quantile
set_option autoImplicit false

namespace BenchReport

open Scalar

/-- The percentages at which quantiles are reported. -/
def Stats.levels : Vector Nat 13 := #v[10, 20, 25, 30, 40, 50, 60, 70, 75, 80, 90, 95, 99]

/-- The field that holds the quantile at a percentage. -/
def Stats.levelName (q : Nat) : String := s!"quantile_{q}th"

def Stats.levelNames : List String := levels.toList.map levelName

/-- The figures of one series, the quantiles in the order of their levels. -/
structure Summary (α : Type) where
  median : α
  mean : α
  variance : α
  stdev : α
  minimum : α
  maximum : α
  quantiles : Vector α 13
  deriving BEq, DecidableEq

namespace Summary

variable {α β : Type}

def map (f : α → β) (s : Summary α) : Summary β where
  median := f s.median
  mean := f s.mean
  variance := f s.variance
  stdev := f s.stdev
  minimum := f s.minimum
  maximum := f s.maximum
  quantiles := s.quantiles.map f

/-- The names of the figures in the order of a row. -/
def names : List String :=
  ["median", "mean", "variance", "stdev", "minimum", "maximum"] ++ Stats.levelNames

def values (s : Summary α) : List α :=
  [s.median, s.mean, s.variance, s.stdev, s.minimum, s.maximum] ++ s.quantiles.toList

/-- The figures under their names. -/
def fields (s : Summary α) : List (String × α) := names.zip s.values

/-- The quantile at a percentage, if it is one of the levels. -/
def quantile? (s : Summary α) (q : Nat) : Option α :=
  (Stats.levels.toList.zip s.quantiles.toList).lookup q

variable [Scalar α]

/-- The summary in which every figure is zero. -/
def zero : Summary α where
  median := ofNat 0
  mean := ofNat 0
  variance := ofNat 0
  stdev := ofNat 0
  minimum := ofNat 0
  maximum := ofNat 0
  quantiles := Vector.replicate 13 (ofNat 0)

instance : Inhabited (Summary α) := ⟨zero⟩

/-- The summary with central figures and extremes taken from a series. -/
def withMoments (s : Summary α) (xs : List α) : Summary α :=
  let sorted := Stats.ordered xs
  let variance := Stats.variance sorted
  { s with
    median := Stats.quantile sorted (ofNat 1 / ofNat 2)
    mean := Stats.mean sorted
    variance
    stdev := sqrt variance
    minimum := sorted.headD (ofNat 0)
    maximum := sorted.getLastD (ofNat 0) }

/-- The summary with the quantiles taken from a series. -/
def withQuantiles (s : Summary α) (xs : List α) : Summary α :=
  let sorted := Stats.ordered xs
  { s with quantiles := Stats.levels.map fun q => Stats.quantile sorted (ofNat q / ofNat 100) }

/-- Central figures and extremes of a series; the quantiles stay zero. -/
def describe (xs : List α) : Summary α := zero.withMoments xs

/-- All figures of a series. -/
def ofSamples (xs : List α) : Summary α := (describe xs).withQuantiles xs

/-- The summary with zero for every figure that is not finite. -/
def sanitized (s : Summary α) : Summary α := s.map finite

end Summary

end BenchReport
