import BenchReport.Json.Codec
set_option autoImplicit false

namespace BenchReport

structure EventId where
  bits : BitVec 128
  deriving BEq, DecidableEq

namespace EventId

/-- The id of an event that brought none. -/
def none : EventId := ⟨0⟩

/-- The value of hex digits, if all of them are. -/
def ofHex? (cs : List Char) : Option Nat :=
  cs.foldl (fun v c => v.bind fun n => (Json.Token.hexDigit? c).map fun d => n * 16 + d) (some 0)

/-- The digits without the hyphens behind the 8th, 12th, 16th and 20th. -/
def ungroup? (cs : List Char) : Option (List Char) :=
  match cs.drop 8, cs.drop 13, cs.drop 18, cs.drop 23 with
  | '-' :: b, '-' :: c, '-' :: d, '-' :: e =>
    some (cs.take 8 ++ b.take 4 ++ c.take 4 ++ d.take 4 ++ e)
  | _, _, _, _ => Option.none

/-- The 32 digits an id is written with: bare, grouped, or grouped in braces or behind `urn:uuid:`
in any case. -/
def digits? (cs : List Char) : Option (List Char) :=
  if cs.length = 32 then some cs
  else if cs.length = 36 then ungroup? cs
  else if cs.length = 38 then
    if cs.head? = some '{' ∧ cs.getLast? = some '}' then ungroup? (cs.drop 1).dropLast
    else Option.none
  else if cs.length = 45 then
    if (cs.take 9).map Char.toLower = "urn:uuid:".toList then ungroup? (cs.drop 9) else Option.none
  else Option.none

def parse? (s : String) : Option EventId :=
  (digits? s.toList).bind fun ds => (ofHex? ds).map fun n => ⟨BitVec.ofNat 128 n⟩

/-- The 32 lower case digits. -/
def hex (i : EventId) : List Char :=
  (List.range 32).map fun k => Nat.digitChar (i.bits.toNat / Nat.pow 16 (31 - k) % 16)

def display (i : EventId) : String :=
  let h := i.hex
  String.ofList (h.take 8 ++ '-' :: (h.drop 8).take 4 ++ '-' :: (h.drop 12).take 4 ++
    '-' :: (h.drop 16).take 4 ++ '-' :: h.drop 20)

/-- An id made of random bits; six of its bits tell that it is one. -/
def ofRandom (high low : BitVec 64) : EventId :=
  ⟨(high &&& 0xffffffffffff0fff ||| 0x4000) ++ (low &&& 0x3fffffffffffffff ||| 0x8000000000000000)⟩

def codec : Codec EventId :=
  Codec.text.checked display fun s =>
    match parse? s with
    | some i => .ok i
    | Option.none => .error .eventId

end EventId

end BenchReport
