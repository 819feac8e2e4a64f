import BenchReport.Json.Codec
import BenchReport.Text.Blank
set_option autoImplicit false

namespace BenchReport

structure Timestamp where
  /-- Seconds since 1970. -/
  seconds : Int
  /-- Nanoseconds; a billion or more within a leap second. -/
  nanos : Nat
  deriving BEq, DecidableEq

namespace Timestamp

/-- The time of an event that brought none. -/
def epoch : Timestamp := ⟨0, 0⟩

/-- Days from 1970 to a date of the Gregorian calendar. Years are counted from March, so that a leap
day ends one. -/
def daysOfDate (year : Int) (month day : Nat) : Int :=
  let y := if month ≤ 2 then year - 1 else year
  let era := y.fdiv 400
  let yearOfEra := y - era * 400
  let dayOfYear : Int := (153 * ((month + 9) % 12) + 2) / 5 + day - 1
  let dayOfEra := yearOfEra * 365 + yearOfEra.fdiv 4 - yearOfEra.fdiv 100 + dayOfYear
  era * 146097 + dayOfEra - 719468

/-- The date that lies so many days after 1970: year, month and day. -/
def dateOfDays (days : Int) : Int × Nat × Nat :=
  let z := days + 719468
  let era := z.fdiv 146097
  let dayOfEra := (z - era * 146097).toNat
  let yearOfEra := (dayOfEra - dayOfEra / 1460 + dayOfEra / 36524 - dayOfEra / 146096) / 365
  let dayOfYear := dayOfEra - (365 * yearOfEra + yearOfEra / 4 - yearOfEra / 100)
  let mp := (5 * dayOfYear + 2) / 153
  let day := dayOfYear - (153 * mp + 2) / 5 + 1
  let month := if mp < 10 then mp + 3 else mp - 9
  let year := era * 400 + yearOfEra
  (if month ≤ 2 then year + 1 else year, month, day)

def isLeap (year : Int) : Bool := year % 4 == 0 && (year % 100 != 0 || year % 400 == 0)

def daysInMonth (year : Int) (month : Nat) : Nat :=
  if month = 2 then (if isLeap year then 29 else 28)
  else if month = 4 ∨ month = 6 ∨ month = 9 ∨ month = 11 then 30
  else 31

/-- The years that have dates. -/
def yearHolds (year : Int) : Bool := -262143 ≤ year && year ≤ 262142

def skipBlanks (cs : List Char) : List Char := cs.dropWhile Text.isBlank

/-- A number of one to `width` digits, blanks before it skipped. -/
def number? (width : Nat) (cs : List Char) : Option (Nat × List Char) :=
  let cs := skipBlanks cs
  let ds := (cs.take width).takeWhile Json.Token.isDigit
  if ds.isEmpty then none else some (Json.Token.natOfDigits ds, cs.drop ds.length)

/-- A year: four digits, or any number of them behind a sign. -/
def year? (cs : List Char) : Option (Int × List Char) :=
  let signed (cs : List Char) := do
    match cs with
    | c :: _ => if Json.Token.isDigit c then number? cs.length cs else none
    | [] => none
  match skipBlanks cs with
  | '-' :: rest => (signed rest).map fun (n, r) => (-n, r)
  | '+' :: rest => (signed rest).map fun (n, r) => (n, r)
  | cs => (number? 4 cs).map fun (n, r) => (n, r)

/-- The rest behind a sign that blanks may precede. -/
def after? (c : Char) (cs : List Char) : Option (List Char) :=
  match skipBlanks cs with
  | d :: rest => if d = c then some rest else none
  | [] => none

/-- A fraction of a second in nanoseconds; digits beyond the ninth are cut. -/
def fraction? (cs : List Char) : Option (Nat × List Char) :=
  match cs with
  | '.' :: rest =>
    let ds := rest.takeWhile Json.Token.isDigit
    let kept := ds.take 9
    if ds.isEmpty then none
    else some (Json.Token.natOfDigits kept * Nat.pow 10 (9 - kept.length), rest.drop ds.length)
  | cs => some (0, cs)

/-- Two digits of which the first is below `limit`. -/
def pair? (limit : Char) (cs : List Char) : Option (Nat × List Char) :=
  match cs with
  | a :: b :: rest =>
    if '0' ≤ a ∧ a < limit ∧ Json.Token.isDigit b = true then
      some (Json.Token.natOfDigits [a, b], rest)
    else none
  | _ => none

/-- The offset from UTC in seconds. -/
def offset? (cs : List Char) : Option (Int × List Char) :=
  let cs := skipBlanks cs
  if (cs.take 3).map Char.toUpper = ['U', 'T', 'C'] then some (0, cs.drop 3)
  else
    match cs with
    | [] => none
    | c :: rest =>
      if c = 'Z' ∨ c = 'z' then some (0, rest)
      else
        let sign : Option Int :=
          if c = '+' then some 1 else if c = '-' ∨ c = '−' then some (-1) else none
        sign.bind fun s => do
          let (hours, rest) ← pair? ':' rest
          let rest := rest.dropWhile fun c => c = ':' || Text.isBlank c
          let (minutes, rest) ← pair? '6' rest
          if 24 ≤ hours then none
          return (s * ((hours * 3600 + minutes * 60 : Nat) : Int), rest)

/-- Reads a date, a time of day and an offset, and turns them into UTC. -/
def parse? (s : String) : Option Timestamp := do
  let (year, cs) ← year? s.toList
  let cs ← after? '-' cs
  let (month, cs) ← number? 2 cs
  let cs ← after? '-' cs
  let (day, cs) ← number? 2 cs
  let cs ← match cs with
    | c :: rest => if c = 'T' ∨ c = 't' ∨ c = ' ' then some rest else none
    | [] => none
  let (hour, cs) ← number? 2 cs
  let cs ← after? ':' cs
  let (minute, cs) ← number? 2 cs
  let cs ← after? ':' cs
  let (second, cs) ← number? 2 cs
  let (nanos, cs) ← fraction? cs
  let (offset, cs) ← offset? cs
  if !(skipBlanks cs).isEmpty then none
  if !yearHolds year || month < 1 || 12 < month || day < 1 || daysInMonth year month < day then none
  if 23 < hour || 59 < minute || 60 < second then none
  let leap := second == 60
  let clock : Nat := hour * 3600 + minute * 60 + (if leap then 59 else second)
  let seconds := daysOfDate year month day * 86400 + clock - offset
  if !yearHolds (dateOfDays (seconds.fdiv 86400)).1 then none
  return ⟨seconds, if leap then 1000000000 + nanos else nanos⟩

/-- A number with leading zeros up to a width. -/
def padded (width n : Nat) : List Char :=
  let ds := Nat.toDigits 10 n
  List.replicate (width - ds.length) '0' ++ ds

/-- Years beyond four digits carry a sign. -/
def yearChars (year : Int) : List Char :=
  if 0 ≤ year ∧ year ≤ 9999 then padded 4 year.toNat
  else (if year < 0 then '-' else '+') :: padded 4 year.natAbs

/-- The fraction in as few groups of three digits as hold it. -/
def fractionChars (nanos : Nat) : List Char :=
  if nanos = 0 then []
  else if nanos % 1000000 = 0 then '.' :: padded 3 (nanos / 1000000)
  else if nanos % 1000 = 0 then '.' :: padded 6 (nanos / 1000)
  else '.' :: padded 9 nanos

def display (t : Timestamp) : String :=
  let days := t.seconds.fdiv 86400
  let clock := (t.seconds - days * 86400).toNat
  let (year, month, day) := dateOfDays days
  let extra := t.nanos / 1000000000
  String.ofList (yearChars year ++ '-' :: padded 2 month ++ '-' :: padded 2 day ++
    'T' :: padded 2 (clock / 3600) ++ ':' :: padded 2 (clock / 60 % 60) ++
    ':' :: padded 2 (clock % 60 + extra) ++ fractionChars (t.nanos % 1000000000) ++ ['Z'])

def codec : Codec Timestamp :=
  Codec.text.checked display fun s =>
    match parse? s with
    | some t => .ok t
    | none => .error .timestamp

example : (parse? "2024-05-01T12:00:00.5+02:00").map display = some "2024-05-01T10:00:00.500Z" := by
  decide +kernel

end Timestamp

end BenchReport
