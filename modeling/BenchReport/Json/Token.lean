import BenchReport.Json.Value
set_option autoImplicit false

namespace BenchReport.Json

/-- How a text fails: at a wrong character, or by ending too early. -/
inductive Breakage where
  | garbled
  | cutShort
  deriving DecidableEq

/-- What a spot that cannot be read begins as. -/
inductive Opening where
  | nothing
  | null
  | bool
  | number
  | text
  deriving DecidableEq

/-- A spot that cannot be read. Passing over it may still succeed: an escape that spells no
character or a number too large to hold only matters to one who wants the value. -/
structure Flaw where
  opening : Opening
  reading : Breakage
  passing : Option Breakage
  deriving DecidableEq

namespace Flaw

/-- A character that cannot stand where it does. -/
def garbled : Flaw := ⟨.nothing, .garbled, some .garbled⟩

/-- The end of a text where something should follow. -/
def cutShort : Flaw := ⟨.nothing, .cutShort, some .cutShort⟩

/-- The flaw as it shows where only a text may stand: what begins as something else is wrong from
its first character on, however it goes on. -/
def asText (f : Flaw) : Flaw :=
  match f.opening with
  | .nothing | .text => f
  | _ => garbled

end Flaw

inductive Token where
  | openList
  | closeList
  | openRecord
  | closeRecord
  | comma
  | colon
  | null
  | bool (b : Bool)
  | number (n : Number)
  | text (s : String)
  | flaw (f : Flaw)
  deriving DecidableEq

namespace Token

def garbled (o : Opening) : Token := .flaw ⟨o, .garbled, some .garbled⟩

def cutShort (o : Opening) : Token := .flaw ⟨o, .cutShort, some .cutShort⟩

/-- A number that the end of the text cuts off is incomplete to its reader, but wrong to others. -/
def cutNumber : Token := .flaw ⟨.number, .cutShort, some .garbled⟩

def unreadable (o : Opening) : Token := .flaw ⟨o, .garbled, none⟩

/-- Nothing after the token can be scanned. -/
def isEnd : Token → Bool
  | .flaw f => f.passing.isSome
  | _ => false

/-- The rest of a word such as `true`, of which the first letter was seen. -/
def scanWord (o : Opening) (word : Token) : List Char → List Char → Token × List Char
  | [], cs => (word, cs)
  | _ :: _, [] => (cutShort o, [])
  | w :: ws, c :: cs => if c = w then scanWord o word ws cs else (garbled o, [])

/-- Where a scan stands inside a text: between characters, behind a backslash, or inside the four
hex digits of an escape. -/
inductive Spot where
  | plain
  | escape
  | hex (seen value : Nat)

def hexDigit? (c : Char) : Option Nat :=
  if '0' ≤ c ∧ c ≤ '9' then some (c.toNat - 48)
  else if 'a' ≤ c ∧ c ≤ 'f' then some (c.toNat - 87)
  else if 'A' ≤ c ∧ c ≤ 'F' then some (c.toNat - 55)
  else none

/-- The character a one-letter escape stands for. -/
def escaped? (c : Char) : Option Char :=
  match c with
  | '"' => some '"'
  | '\\' => some '\\'
  | '/' => some '/'
  | 'b' => some (Char.ofNat 8)
  | 'f' => some (Char.ofNat 12)
  | 'n' => some '\n'
  | 'r' => some '\r'
  | 't' => some '\t'
  | _ => none

/-- The UTF-8 bytes of the next characters, counted up to four characters. -/
def bytesAhead (cs : List Char) : Nat := (String.ofList (cs.take 4)).utf8ByteSize

/-- What scanning a text has gathered: its characters in reverse, the first half of a surrogate pair
that waits for the second, and whether an escape stood for no character. -/
structure Spelled where
  reversed : List Char
  half : Option Nat
  spoiled : Bool

namespace Spelled

def start : Spelled := ⟨[], none, false⟩

def push (s : Spelled) (c : Char) : Spelled := ⟨c :: s.reversed, none, s.spoiled⟩

/-- A half that is not followed by its second half spoils the text. -/
def dropHalf (s : Spelled) : Spelled := ⟨s.reversed, none, s.spoiled || s.half.isSome⟩

def spoil (s : Spelled) : Spelled := ⟨s.reversed, none, true⟩

/-- A UTF-16 unit written as an escape. -/
def unit (s : Spelled) (u : Nat) : Spelled :=
  let isFirst := 0xD800 ≤ u && u ≤ 0xDBFF
  let isSecond := 0xDC00 ≤ u && u ≤ 0xDFFF
  match s.half with
  | some h =>
    if isSecond then s.push (Char.ofNat (0x10000 + (h - 0xD800) * 0x400 + (u - 0xDC00)))
    else s.spoil
  | none =>
    if isFirst then { s with half := some u }
    else if isSecond then s.spoil
    else s.push (Char.ofNat u)

/-- The text fails here. One who reads it has already failed at a spoiled escape. -/
def fail (s : Spelled) (b : Breakage) : Token :=
  .flaw ⟨.text, if s.spoiled then .garbled else b, some b⟩

def close (s : Spelled) : Token :=
  if s.spoiled then unreadable .text else .text (String.ofList s.reversed.reverse)

end Spelled

/-- The rest of a text whose opening quote was seen. -/
def scanText : Spot → Spelled → List Char → Token × List Char
  | _, s, [] => (s.fail .cutShort, [])
  | .plain, s, c :: cs =>
    if c = '\\' then scanText .escape s cs
    else
      let s := s.dropHalf
      if c = '"' then (s.close, cs)
      else if c.toNat < 32 then (s.fail .garbled, [])
      else scanText .plain (s.push c) cs
  | .escape, s, c :: cs =>
    if c = 'u' then scanText (.hex 0 0) s cs
    else
      let s := s.dropHalf
      match escaped? c with
      | some e => scanText .plain (s.push e) cs
      | none => (s.fail .garbled, [])
  | .hex seen value, s, c :: cs =>
    match hexDigit? c with
    | none => (s.fail (if seen + bytesAhead (c :: cs) < 4 then .cutShort else .garbled), [])
    | some d =>
      if seen = 3 then scanText .plain (s.unit (value * 16 + d)) cs
      else scanText (.hex (seen + 1) (value * 16 + d)) s cs

def isDigit (c : Char) : Bool := '0' ≤ c && c ≤ '9'

def natOfDigits (ds : List Char) : Nat := ds.foldl (fun n d => n * 10 + (d.toNat - 48)) 0

/-- Digits taken into a significand as long as 64 bits hold it, and the digits that are left. -/
def gather : Nat → List Char → Nat × List Char
  | m, [] => (m, [])
  | m, d :: ds =>
    let next := m * 10 + (d.toNat - 48)
    if next < UInt64.size then gather next ds else (m, d :: ds)

/-- The double of `10 ^ n`, for `n` up to 308. -/
def power (n : Nat) : Float := Float.ofScientific 1 false n

/-- A double divided so many times by `10 ^ 308`; it may run dry before. -/
def lowered : Nat → Float → Float
  | 0, x => x
  | n + 1, x => if x == 0.0 then x else lowered n (x / power 308)

/-- The double of a significand, multiplied or divided by a power of ten; none where that overflows.
Every step rounds, so the double need not be the one nearest to `m * 10 ^ e`. -/
def scaled? (m : Nat) (e : Int) : Option Float :=
  let x := (UInt64.ofNat m).toFloat
  if e < 0 then
    let rounds := (e.natAbs - 1) / 308
    some (lowered rounds x / power (e.natAbs - 308 * rounds))
  else if m = 0 then some x
  else if 308 < e then none
  else
    let x := x * power e.natAbs
    if x.isFinite then some x else none

/-- The double of the digits before and behind the point and an exponent. Digits that the
significand has no place for count for its size before the point, and for nothing behind it. -/
def double? (ds fs : List Char) (e : Int) : Option Float :=
  let (whole, left) := gather 0 ds
  let (m, dropped) := gather whole fs
  scaled? m (e + left.length + dropped.length - fs.length)

def floatToken (negative : Bool) (x : Option Float) : Token :=
  match x with
  | some x => .number (.float (if negative then -x else x))
  | none => unreadable .number

/-- A number without fraction and exponent. A negative zero is a double, as is what 64 bits cannot
hold. -/
def wholeToken (negative : Bool) (ds : List Char) : Token :=
  let n := natOfDigits ds
  if negative then
    if n = 0 || !fitsInt64 (-n) then floatToken true (double? ds [] 0) else .number (.int (-n))
  else if n < UInt64.size then .number (.int n)
  else floatToken false (double? ds [] 0)

/-- The exponent of a number, with what follows it. -/
def scanExponent (cs : List Char) : Except Token (Option Int × List Char) :=
  match cs with
  | c :: rest =>
    if c = 'e' ∨ c = 'E' then
      let (negative, rest) :=
        match rest with
        | '-' :: r => (true, r)
        | '+' :: r => (false, r)
        | r => (false, r)
      let (ds, rest) := rest.span isDigit
      if ds.isEmpty then .error (if rest.isEmpty then cutNumber else garbled .number)
      else
        let n : Int := natOfDigits ds
        .ok (some (if negative then -n else n), rest)
    else .ok (none, cs)
  | [] => .ok (none, [])

/-- The fraction digits of a number, with what follows them. -/
def scanFraction (cs : List Char) : Except Token (Option (List Char) × List Char) :=
  match cs with
  | '.' :: rest =>
    let (ds, rest) := rest.span isDigit
    if ds.isEmpty then .error (if rest.isEmpty then cutNumber else garbled .number)
    else .ok (some ds, rest)
  | cs => .ok (none, cs)

/-- A number whose sign, if any, was seen. -/
def scanNumber (negative : Bool) (cs : List Char) : Token × List Char :=
  let (ds, rest) := cs.span isDigit
  match ds with
  | [] => (if rest.isEmpty then cutNumber else garbled .number, [])
  | '0' :: _ :: _ => (garbled .number, [])
  | _ =>
    match scanFraction rest with
    | .error t => (t, [])
    | .ok (fraction, rest) =>
      match scanExponent rest with
      | .error t => (t, [])
      | .ok (exponent, rest) =>
        match fraction, exponent with
        | none, none => (wholeToken negative ds, rest)
        | _, _ =>
          (floatToken negative (double? ds (fraction.getD []) (exponent.getD 0)), rest)

/-- One token, of which `c` is the first character. -/
def scan (c : Char) (cs : List Char) : Token × List Char :=
  match c with
  | '[' => (.openList, cs)
  | ']' => (.closeList, cs)
  | '{' => (.openRecord, cs)
  | '}' => (.closeRecord, cs)
  | ',' => (.comma, cs)
  | ':' => (.colon, cs)
  | '"' => scanText .plain Spelled.start cs
  | 'n' => scanWord .null .null ['u', 'l', 'l'] cs
  | 't' => scanWord .bool (.bool true) ['r', 'u', 'e'] cs
  | 'f' => scanWord .bool (.bool false) ['a', 'l', 's', 'e'] cs
  | '-' => scanNumber true cs
  | c => if isDigit c then scanNumber false (c :: cs) else (garbled .nothing, [])

def isSpace (c : Char) : Bool := c = ' ' || c = '\n' || c = '\t' || c = '\r'

/-- The tokens of a text; each takes at least one character, which bounds their number by `fuel`. -/
def scanAll : Nat → List Char → List Token
  | 0, _ => []
  | _ + 1, [] => []
  | fuel + 1, c :: cs =>
    if isSpace c then scanAll fuel cs
    else
      let (t, rest) := scan c cs
      if t.isEnd then [t] else t :: scanAll fuel rest

end Token

/-- The tokens of a text, the last of them a flaw where the text cannot be scanned to its end. -/
def tokens (cs : List Char) : List Token := Token.scanAll cs.length cs

end BenchReport.Json
