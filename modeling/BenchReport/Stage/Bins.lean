import BenchReport.Counter
set_option autoImplicit false

namespace BenchReport.Bins

/-- Two series added place by place; where one has ended it counts as `zero`. -/
def add {α : Type} (plus : α → α → Except Error α) (zero : α) :
    List α → List α → Except Error (List α)
  | [], ys => ys.mapM (plus zero)
  | xs, [] => .ok xs
  | x :: xs, y :: ys => do
    let sum ← plus x y
    let rest ← add plus zero xs ys
    return sum :: rest

/-- All series added place by place. -/
def addAll {α : Type} (plus : α → α → Except Error α) (zero : α) (series : List (List α)) :
    Except Error (List α) :=
  series.foldlM (add plus zero) []

/-- Takes a share from every bin, front to back. What a bin cannot give is carried to the next.
Beside the bins it tells what is carried past the last. -/
def takeShares (share : UInt64) : UInt64 → List UInt64 → List UInt64 × UInt64
  | carry, [] => ([], carry)
  | carry, bin :: rest =>
    let wanted := share + carry
    let taken := min wanted bin
    let (rest, left) := takeShares share (wanted - taken) rest
    ((bin - taken) :: rest, left)

/-- Takes an amount from the last bin, from the one before it when that runs dry, and so on. Beside
the bins it tells what could not be taken. -/
def takeBackwards (amount : UInt64) : List UInt64 → List UInt64 × UInt64
  | [] => ([], amount)
  | bin :: rest =>
    let (rest, outstanding) := takeBackwards amount rest
    let taken := min outstanding bin
    ((bin - taken) :: rest, outstanding - taken)

/-- Takes an excess: an equal share from each bin, then the remainder and what was carried past the
last bin from the back. -/
def takeExcess (excess : UInt64) (bins : List UInt64) : List UInt64 × UInt64 :=
  let n := UInt64.ofNat bins.length
  let (bins, carry) := takeShares (excess / n) 0 bins
  takeBackwards (excess % n + carry) bins

/-- Brings the sum of the bins down to a counter; a sum at or below it is left alone. -/
def reconcile (bins : List UInt64) (authoritative : UInt64) : Except Error (List UInt64) := do
  let sum ← Counter.sum bins
  if sum ≤ authoritative || bins.isEmpty then return bins
  let (bins, outstanding) := takeExcess (sum - authoritative) bins
  if 0 < outstanding then throw (.exhausted outstanding)
  return bins

end BenchReport.Bins
