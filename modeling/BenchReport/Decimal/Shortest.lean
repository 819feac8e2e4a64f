set_option autoImplicit false

namespace BenchReport.Decimal

/-- What the bits of a double say. A finite non-zero double is `mantissa * 2 ^ exponent`. -/
inductive Reading where
  | notANumber
  | infinite (negative : Bool)
  | zero (negative : Bool)
  | finite (negative : Bool) (mantissa : Nat) (exponent : Int)
  deriving DecidableEq

/-- The bit above the 52 bits of a mantissa that a double writes out. -/
def hidden : Nat := 1 <<< 52

def Reading.ofBits (bits : UInt64) : Reading :=
  let n : Nat := bits.toNat
  let negative := n.testBit 63
  let biased : Nat := n / hidden % 2048
  let fraction : Nat := n % hidden
  if biased = 2047 then if fraction = 0 then .infinite negative else .notANumber
  else if biased = 0 then if fraction = 0 then .zero negative else .finite negative fraction (-1074)
  else .finite negative (hidden + fraction) ((biased : Int) - 1075)

/-- The decimal `digits * 10 ^ exponent`. -/
structure Digits where
  digits : Nat
  exponent : Int
  deriving DecidableEq

/-- The number `x * base ^ e` as a fraction: numerator and denominator. -/
def scaled (x base : Nat) (e : Int) : Nat × Nat :=
  if 0 ≤ e then (x * Nat.pow base e.toNat, 1) else (x, Nat.pow base (-e).toNat)

/-- The reals that round to a double, as fractions over one denominator. -/
structure Interval where
  low : Nat
  value : Nat
  high : Nat
  denominator : Nat
  closed : Bool

/-- The reals nearer to `m * 2 ^ e` than to the doubles beside it; the ends belong to it when `m` is
even. Below a power of two the doubles lie twice as dense. -/
def Interval.around (m : Nat) (e : Int) : Interval :=
  let below := if m = hidden ∧ -1074 < e then 1 else 2
  let (low, denominator) := scaled (4 * m - below) 2 (e - 2)
  { low
    value := (scaled (4 * m) 2 (e - 2)).1
    high := (scaled (4 * m + 2) 2 (e - 2)).1
    denominator
    closed := m % 2 == 0 }

/-- Whether `c * 10 ^ k` lies in the interval. -/
def Interval.holds (i : Interval) (c : Nat) (k : Int) : Bool :=
  let (n, d) := scaled c 10 k
  let point := n * i.denominator
  if i.closed then i.low * d ≤ point && point ≤ i.high * d
  else i.low * d < point && point < i.high * d

/-- The largest `c` with `c * 10 ^ k` not above the value. -/
def Interval.floorOn (i : Interval) (k : Int) : Nat :=
  let (n, d) := scaled 1 10 k
  i.value * d / (i.denominator * n)

/-- Twice the value less the midpoint of `c` and `c + 1` on the grid is not positive. -/
def Interval.nearerBelow (i : Interval) (c : Nat) (k : Int) : Bool :=
  let (n, d) := scaled 1 10 k
  let middle := (2 * c + 1) * n * i.denominator
  let twice := 2 * i.value * d
  twice < middle || (twice == middle && c % 2 == 0)

/-- The point of the grid `10 ^ k` that reads back and is nearest to the value. -/
def Interval.pointOn (i : Interval) (k : Int) : Option Digits :=
  let c := i.floorOn k
  let below := i.holds c k
  let above := i.holds (c + 1) k
  if below && (!above || i.nearerBelow c k) then some ⟨c, k⟩
  else if above then some ⟨c + 1, k⟩
  else none

/-- The exponent of the leading digit of the value, found from the binary exponent and corrected. -/
def Interval.leading (i : Interval) (m : Nat) (e : Int) : Int :=
  let guess := ((m.log2 : Int) + e) * 1233 / 4096
  let atLeast (k : Int) : Bool :=
    let (n, d) := scaled 1 10 k
    n * i.denominator ≤ i.value * d
  if atLeast (guess + 1) then guess + 1 else if atLeast guess then guess else guess - 1

/-- The number without its trailing zeros, which go into the exponent. -/
def Digits.strip : Nat → Digits → Digits
  | 0, d => d
  | fuel + 1, d =>
    if d.digits ≠ 0 ∧ d.digits % 10 = 0 then strip fuel ⟨d.digits / 10, d.exponent + 1⟩ else d

/-- The shortest decimal of `m * 2 ^ e`. Seventeen digits always read back. -/
def shortest (m : Nat) (e : Int) : Digits :=
  let i := Interval.around m e
  let top := i.leading m e
  let found := (List.range 17).findSome? fun (n : Nat) => i.pointOn (top - n)
  (found.getD ⟨i.floorOn (top - 17), top - 17⟩).strip 20

example : shortest 1 (-1074) = ⟨5, -324⟩ := by decide +kernel
example : shortest 0x1999999999999A (-56) = ⟨1, -1⟩ := by decide +kernel
example : shortest 0x13333333333334 (-54) = ⟨30000000000000004, -17⟩ := by decide +kernel

end BenchReport.Decimal
