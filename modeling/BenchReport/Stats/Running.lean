import BenchReport.Scalar
set_option autoImplicit false

namespace BenchReport.Stats

open Scalar

variable {α : Type} [Scalar α]

/-- The mean of the numbers fed so far. -/
structure RunningMean (α : Type) where
  count : Nat
  mean : α
  deriving BEq, DecidableEq

namespace RunningMean

def empty : RunningMean α := ⟨0, ofNat 0⟩

/-- Feeds a number; one that is not finite counts as zero. -/
def feed (m : RunningMean α) (x : α) : RunningMean α :=
  ⟨m.count + 1, m.mean + (finite x - m.mean) / ofNat (m.count + 1)⟩

end RunningMean

/-- The mean of the variances fed so far. -/
structure RunningVariance (α : Type) where
  pooled : RunningMean α
  deriving BEq, DecidableEq

namespace RunningVariance

def empty : RunningVariance α := ⟨.empty⟩

def feed (v : RunningVariance α) (x : α) : RunningVariance α := ⟨v.pooled.feed (nonneg x)⟩

def value (v : RunningVariance α) : α := v.pooled.mean

end RunningVariance

/-- Standard deviations are pooled by their squares, which agrees with the pooling of variances. -/
structure RunningDeviation (α : Type) where
  squares : RunningMean α
  deriving BEq, DecidableEq

namespace RunningDeviation

def empty : RunningDeviation α := ⟨.empty⟩

def feed (d : RunningDeviation α) (x : α) : RunningDeviation α := ⟨d.squares.feed (x * x)⟩

def value (d : RunningDeviation α) : α := sqrt (nonneg d.squares.mean)

end RunningDeviation

end BenchReport.Stats
