import BenchReport.Scalar
import BenchReport.Table
set_option autoImplicit false

namespace BenchReport.Stats

open Scalar

/-- The microseconds of an hour, which stand for all values out of reach. -/
def hour : Nat := 3600000000

/-- Values of 11 bits have a bucket of their own; each further bit doubles the width. -/
def bucketBits (v : Nat) : Nat := (v ||| 2047).log2 - 10

/-- The least value of the bucket that holds `v`. -/
def bucketOf (v : Nat) : Nat := v >>> bucketBits v <<< bucketBits v

/-- The middle of a bucket, given its least value. -/
def bucketMiddle (low : Nat) : Nat := low + (1 <<< bucketBits low) / 2

/-- How many values were counted in each bucket. A bucket is at most a 1024th of its values wide. -/
structure MedianSketch where
  counts : Table Nat Nat
  deriving BEq, DecidableEq

namespace MedianSketch

def empty : MedianSketch := ⟨Table.empty⟩

def size (s : MedianSketch) : Nat := s.counts.values.foldr (· + ·) 0

/-- Counts a value in microseconds. -/
def record (s : MedianSketch) (micros : Nat) : MedianSketch :=
  let held := if micros < UInt32.size then micros else hour
  ⟨s.counts.alter (bucketOf held) fun n => n.getD 0 + 1⟩

/-- The bucket of the value with the given rank, counted from one. -/
def bucketAt (rank : Nat) : List (Nat × Nat) → Option Nat
  | [] => none
  | (low, n) :: rest => if rank ≤ n then some low else bucketAt (rank - n) rest

/-- The median in microseconds. -/
def median (s : MedianSketch) : Nat :=
  match bucketAt ((s.size + 1) / 2) s.counts.entries with
  | none => 0
  | some low => bucketMiddle low

variable {α : Type} [Scalar α]

/-- A duration in whole microseconds; one that is negative or not finite counts as zero. -/
def micros (seconds : α) : Nat := floor (round (nonneg (finite seconds) * ofNat 1000000))

def feed (s : MedianSketch) (seconds : α) : MedianSketch := s.record (micros seconds)

/-- The median in seconds; of nothing it is zero. -/
def value (s : MedianSketch) : α := ofNat s.median / ofNat 1000000

end MedianSketch

end BenchReport.Stats
