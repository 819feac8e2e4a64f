import BenchReport.Scalar
set_option autoImplicit false

namespace BenchReport.Stats

open Scalar

variable {α : Type} [Scalar α]

/-- The number moved into the interval from zero to one. -/
def clampUnit (q : α) : α :=
  if lt q (ofNat 0) then ofNat 0 else if lt (ofNat 1) q then ofNat 1 else q

/-- The value at the fraction `q` of an ascending series: at position `q * (n - 1)`, interpolated
between the two values beside it. The quantile of nothing is zero. -/
def quantile (sorted : List α) (q : α) : α :=
  match sorted with
  | [] => ofNat 0
  | [x] => x
  | x :: _ =>
    let position := clampUnit q * ofNat (sorted.length - 1)
    let low := floor position
    let below := sorted.getD low x
    let above := sorted.getD (ceil position) x
    below + (above - below) * (position - ofNat low)

/-- The mean; of nothing it is zero. -/
def mean (xs : List α) : α := if xs.isEmpty then ofNat 0 else sum xs / ofNat xs.length

/-- The sample variance, with `n - 1` in the denominator; zero for fewer than two values. -/
def variance (xs : List α) : α :=
  if xs.length < 2 then ofNat 0
  else
    let m := mean xs
    sum (xs.map fun x => (x - m) * (x - m)) / ofNat (xs.length - 1)

/-- The finite values of a series in ascending order; a series without any counts as a zero. -/
def ordered (xs : List α) : List α :=
  let kept := xs.filter isFinite
  if kept.isEmpty then [ofNat 0] else kept.mergeSort before

end BenchReport.Stats
