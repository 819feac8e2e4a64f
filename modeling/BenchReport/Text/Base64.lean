set_option autoImplicit false

namespace BenchReport.Text.Base64

def alphabet : List Char :=
  "ABCDEFGHIJKLMNOPQRSTUVWXYZabcdefghijklmnopqrstuvwxyz0123456789+/".toList

/-- The symbol that stands for six bits. -/
def symbol (v : Nat) : Char := alphabet.getD v 'A'

/-- Three bytes become four symbols; what is left over is filled up with the padding sign. -/
def encode : List UInt8 → List Char
  | [] => []
  | [a] => [symbol (a.toNat / 4), symbol (a.toNat % 4 * 16), '=', '=']
  | [a, b] =>
    [symbol (a.toNat / 4), symbol (a.toNat % 4 * 16 + b.toNat / 16), symbol (b.toNat % 16 * 4), '=']
  | a :: b :: c :: rest =>
    symbol (a.toNat / 4) :: symbol (a.toNat % 4 * 16 + b.toNat / 16) ::
      symbol (b.toNat % 16 * 4 + c.toNat / 64) :: symbol (c.toNat % 64) :: encode rest

/-- What makes a text no base64. Offsets count bytes. -/
inductive Flaw where
  | symbol (offset : Nat) (byte : UInt8)
  | length (count : Nat)
  | lastSymbol (offset : Nat) (byte : UInt8)
  | padding
  deriving DecidableEq

def Flaw.message : Flaw → String
  | .symbol offset byte => s!"Invalid symbol {byte}, offset {offset}."
  | .length count => s!"Invalid input length: {count}"
  | .lastSymbol offset byte => s!"Invalid last symbol {byte}, offset {offset}."
  | .padding => "Invalid padding"

/-- The padding sign as a byte. -/
def padding : UInt8 := 61

/-- The six bits a byte stands for. -/
def sextet? (b : UInt8) : Option Nat :=
  let n := b.toNat
  if 65 ≤ n ∧ n ≤ 90 then some (n - 65)
  else if 97 ≤ n ∧ n ≤ 122 then some (n - 71)
  else if 48 ≤ n ∧ n ≤ 57 then some (n + 4)
  else if n = 43 then some 62
  else if n = 47 then some 63
  else none

/-- The sextets of bytes that must all be symbols. -/
def sextets (offset : Nat) : List UInt8 → Except Flaw (List Nat)
  | [] => .ok []
  | b :: rest =>
    match sextet? b with
    | none => .error (.symbol offset b)
    | some v => (v :: ·) <$> sextets (offset + 1) rest

/-- The last group: its sextets with their symbols, and the number of padding signs after them.
Padding may start at the third place and nothing but padding may follow it. -/
def lastGroup (start : Nat) : Nat → List (UInt8 × Nat) → Option Nat → Nat → List UInt8 →
    Except Flaw (List (UInt8 × Nat) × Nat)
  | _, seen, _, pads, [] => .ok (seen.reverse, pads)
  | place, seen, firstPad, pads, b :: rest =>
    if b = padding then
      if place < 2 then .error (.symbol (start + place) b)
      else lastGroup start (place + 1) seen (firstPad <|> some place) (pads + 1) rest
    else
      match firstPad, sextet? b with
      | some p, _ => .error (.symbol (start + p) padding)
      | none, none => .error (.symbol (start + place) b)
      | none, some v => lastGroup start (place + 1) ((b, v) :: seen) none pads rest

/-- Four sextets become three bytes; two or three that are left over become one or two. -/
def pack : List Nat → List UInt8
  | a :: b :: c :: d :: rest =>
    UInt8.ofNat (a * 4 + b / 16) :: UInt8.ofNat (b % 16 * 16 + c / 4) ::
      UInt8.ofNat (c % 4 * 64 + d) :: pack rest
  | [a, b, c] => [UInt8.ofNat (a * 4 + b / 16), UInt8.ofNat (b % 16 * 16 + c / 4)]
  | [a, b] => [UInt8.ofNat (a * 4 + b / 16)]
  | _ => []

/-- The bits of the last sextet that no byte uses. -/
def unusedBits (count last : Nat) : Nat :=
  if count = 2 then last % 16 else if count = 3 then last % 4 else 0

/-- The bytes a text stands for. -/
def decode (text : List UInt8) : Except Flaw (List UInt8) := do
  let size := text.length
  let start := size - (if size % 4 = 0 then 4 else size % 4)
  match text.getLast? with
  | some b => if size % 4 = 1 ∧ b ≠ padding ∧ sextet? b = none then throw (.symbol (size - 1) b)
  | none => pure ()
  let whole ← sextets 0 (text.take start)
  let (group, pads) ← lastGroup start 0 [] none 0 (text.drop start)
  if size ≠ 0 ∧ group.length < 2 then throw (.length (start + group.length))
  if (pads + group.length) % 4 ≠ 0 then throw .padding
  match group.getLast? with
  | some (b, v) =>
    if unusedBits group.length v ≠ 0 then throw (.lastSymbol (start + group.length - 1) b)
  | none => pure ()
  return pack (whole ++ group.map (·.2))

end BenchReport.Text.Base64
