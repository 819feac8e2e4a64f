import BenchReport.Decimal.Shortest
set_option autoImplicit false

namespace BenchReport.Decimal

structure Layout where
  /-- The leading exponents written without an exponent part; all of them when absent. -/
  positional : Option (Int × Int)
  /-- Whether a whole number ends in `.0`. -/
  wholeMark : Bool

/-- Documents, and values of documents named in messages: positional from `0.00001` up to sixteen
digits, and always recognisable as a float. -/
def Layout.document : Layout := ⟨some (-5, 15), true⟩

/-- Figures in messages: never an exponent, and whole numbers without a fraction. -/
def Layout.message : Layout := ⟨none, false⟩

/-- The decimal digits of a number, most significant first. -/
def digitChars (n : Nat) : List Char := Nat.toDigits 10 n

/-- A positive decimal without an exponent part. -/
def positionalChars (wholeMark : Bool) (ds : List Char) (leading : Int) : List Char :=
  if leading < 0 then
    ['0', '.'] ++ List.replicate (-leading - 1).toNat '0' ++ ds
  else
    let whole := leading.toNat + 1
    if ds.length ≤ whole then
      ds ++ List.replicate (whole - ds.length) '0' ++ (if wholeMark then ['.', '0'] else [])
    else
      ds.take whole ++ ['.'] ++ ds.drop whole

/-- A positive decimal with one digit before the point and a signed exponent. -/
def exponentChars (ds : List Char) (leading : Int) : List Char :=
  ds.take 1 ++ (if ds.length ≤ 1 then [] else '.' :: ds.drop 1) ++
    ['e', if leading < 0 then '-' else '+'] ++ digitChars leading.natAbs

def Layout.finiteChars (l : Layout) (d : Digits) : List Char :=
  let ds := digitChars d.digits
  let leading := d.exponent + ds.length - 1
  match l.positional with
  | none => positionalChars l.wholeMark ds leading
  | some (lowest, highest) =>
    if lowest ≤ leading ∧ leading ≤ highest then positionalChars l.wholeMark ds leading
    else exponentChars ds leading

def signed (negative : Bool) (cs : List Char) : List Char := if negative then '-' :: cs else cs

/-- The text of a double. -/
def Layout.chars (l : Layout) (x : Float) : List Char :=
  match Reading.ofBits x.toBits with
  | .notANumber => ['N', 'a', 'N']
  | .infinite negative => signed negative ['i', 'n', 'f']
  | .zero negative => signed negative (if l.wholeMark then ['0', '.', '0'] else ['0'])
  | .finite negative m e => signed negative (l.finiteChars (shortest m e))

def Layout.text (l : Layout) (x : Float) : String := String.ofList (l.chars x)

end BenchReport.Decimal
