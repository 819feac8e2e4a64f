set_option autoImplicit false

namespace BenchReport

/-- Numbers with the operations that figures need. Every figure is defined over any such numbers, so
the definition that runs on doubles is also the one that is read in exact arithmetic. `floor` and
`ceil` are meant for numbers that are not negative, `round` takes a half away from zero, and
`before` is a total order that agrees with `lt`. -/
class Scalar (α : Type) extends Add α, Sub α, Mul α, Div α where
  ofNat : Nat → α
  isFinite : α → Bool
  lt : α → α → Bool
  before : α → α → Bool
  floor : α → Nat
  ceil : α → Nat
  round : α → α
  sqrt : α → α

namespace Scalar

variable {α : Type} [Scalar α]

/-- A number that is not finite counts as zero. -/
def finite (x : α) : α := if isFinite x then x else ofNat 0

/-- A rate is divided by this number: what cannot be divided by becomes one. -/
def divisor (x : α) : α := if isFinite x && lt (ofNat 0) x then x else ofNat 1

/-- The number rounded to hundredths. -/
def round2 (x : α) : α := round (x * ofNat 100) / ofNat 100

/-- The larger of a number and zero. -/
def nonneg (x : α) : α := if lt (ofNat 0) x then x else ofNat 0

def min (x y : α) : α := if lt y x then y else x

def max (x y : α) : α := if lt x y then y else x

/-- The sum from left to right. -/
def sum : List α → α
  | [] => ofNat 0
  | x :: xs => xs.foldl (· + ·) x

end Scalar

namespace Double

/-- The nearest double to a counter. -/
def ofCount (n : UInt64) : Float := n.toFloat

/-- The highest bit of a double, which is set in those with a minus sign. -/
def signBit : Nat := 1 <<< 63

/-- A key that orders all doubles: negative before positive, the negative zero before the zero, and
what is no number beyond the infinities. -/
def orderKey (x : Float) : Int :=
  let n : Nat := x.toBits.toNat
  if n < signBit then n else -((n - signBit : Nat) : Int) - 1

/-- The whole part of a double that is not negative; zero for all others. -/
def floor (x : Float) : Nat := x.toUInt64.toNat

/-- The least whole number that is not below a double. -/
def ceil (x : Float) : Nat :=
  let n := x.toUInt64
  if n.toFloat < x then n.toNat + 1 else n.toNat

/-- The nearest whole number, a half away from zero. From `2 ^ 52` on all doubles are whole. -/
def round (x : Float) : Float :=
  let size := x.abs
  if size < 4503599627370496.0 then
    let n := size.toUInt64.toFloat
    let rounded := if size - n < 0.5 then n else n + 1.0
    if x.toBits.toNat < signBit then rounded else -rounded
  else x

end Double

instance : Scalar Float where
  ofNat n := (UInt64.ofNat n).toFloat
  isFinite := Float.isFinite
  lt x y := decide (x < y)
  before x y := decide (Double.orderKey x ≤ Double.orderKey y)
  floor := Double.floor
  ceil := Double.ceil
  round := Double.round
  sqrt := Float.sqrt

end BenchReport
