import BenchReport.Json.Token
import BenchReport.Json.Value
set_option autoImplicit false

namespace BenchReport.Toml

def isBlank (c : Char) : Bool := c = ' ' || c = '\t'

def skipBlanks (cs : List Char) : List Char := cs.dropWhile isBlank

/-- The rest behind a line break. -/
def newline? : List Char → Option (List Char)
  | '\n' :: rest => some rest
  | '\r' :: '\n' :: rest => some rest
  | _ => none

/-- Characters that may stand in comments and literal strings: no control characters but the tab. -/
def isPlain (c : Char) : Bool := c = '\t' || (32 ≤ c.toNat && c.toNat ≠ 127)

def skipComment : List Char → List Char
  | '#' :: rest => rest.dropWhile isPlain
  | cs => cs

/-- The rest behind the end of a line, where only blanks and a comment are left on it. -/
def lineEnd? (cs : List Char) : Option (List Char) :=
  match skipComment (skipBlanks cs) with
  | [] => some []
  | cs => newline? cs

/-- The rest behind blanks, comments and line breaks. -/
def skipLines : Nat → List Char → List Char
  | 0, cs => cs
  | fuel + 1, cs =>
    match newline? (skipComment (skipBlanks cs)) with
    | some rest => skipLines fuel rest
    | none => skipBlanks cs

/-- The character whose number is spelled in hex digits. -/
def hexChar? (ds : List Char) : Option Char :=
  (ds.foldl (fun n d => n.bind fun n => (Json.Token.hexDigit? d).map (n * 16 + ·)) (some 0)).bind
    fun n => if n < 0xD800 ∨ (0xE000 ≤ n ∧ n < 0x110000) then some (Char.ofNat n) else none

/-- The character of an escape, read behind its backslash. -/
def escape? : List Char → Option (Char × List Char)
  | 'b' :: rest => some (Char.ofNat 8, rest)
  | 't' :: rest => some ('\t', rest)
  | 'n' :: rest => some ('\n', rest)
  | 'f' :: rest => some (Char.ofNat 12, rest)
  | 'r' :: rest => some ('\r', rest)
  | '"' :: rest => some ('"', rest)
  | '\\' :: rest => some ('\\', rest)
  | 'u' :: rest =>
    if rest.length < 4 then none else (hexChar? (rest.take 4)).map (·, rest.drop 4)
  | 'U' :: rest =>
    if rest.length < 8 then none else (hexChar? (rest.take 8)).map (·, rest.drop 8)
  | _ => none

/-- A string between quotes, read behind the first. -/
def basicString : Nat → List Char → Option (List Char × List Char)
  | 0, _ => none
  | _ + 1, '"' :: rest => some ([], rest)
  | fuel + 1, '\\' :: rest => do
    let (c, rest) ← escape? rest
    let (cs, rest) ← basicString fuel rest
    return (c :: cs, rest)
  | fuel + 1, c :: rest =>
    if isPlain c then do
      let (cs, rest) ← basicString fuel rest
      return (c :: cs, rest)
    else none
  | _ + 1, [] => none

/-- A string between single quotes, read behind the first. -/
def literalString : List Char → Option (List Char × List Char)
  | [] => none
  | '\'' :: rest => some ([], rest)
  | c :: rest =>
    if isPlain c then (literalString rest).map fun (cs, rest) => (c :: cs, rest) else none

/-- The end of a string of several lines: up to two quotes before the three that close it belong to
the string. -/
def closing? (q : Char) (cs : List Char) : Option (List Char × List Char) :=
  let run := (cs.takeWhile (· = q)).length
  if run < 3 then none
  else
    let kept := min (run - 3) 2
    some (List.replicate kept q, cs.drop (kept + 3))

/-- The rest behind blanks and line breaks. -/
def skipBreaks : List Char → List Char
  | '\r' :: '\n' :: rest => skipBreaks rest
  | '\n' :: rest => skipBreaks rest
  | c :: rest => if isBlank c then skipBreaks rest else c :: rest
  | [] => []

/-- The rest behind an escaped line break and all blanks and breaks that follow. -/
def continuation? (cs : List Char) : Option (List Char) :=
  (newline? (skipBlanks cs)).map skipBreaks

/-- A string of several lines, read behind its opening quotes. -/
def longString (q : Char) (escapes : Bool) : Nat → List Char → Option (List Char × List Char)
  | 0, _ => none
  | fuel + 1, cs =>
    match closing? q cs with
    | some done => some done
    | none =>
      match newline? cs with
      | some rest => do
        let (more, rest) ← longString q escapes fuel rest
        return ('\n' :: more, rest)
      | none =>
        match cs with
        | [] => none
        | c :: rest =>
          if escapes = true ∧ c = '\\' then
            match continuation? rest with
            | some rest => longString q escapes fuel rest
            | none => do
              let (c, rest) ← escape? rest
              let (more, rest) ← longString q escapes fuel rest
              return (c :: more, rest)
          else if isPlain c then do
            let (more, rest) ← longString q escapes fuel rest
            return (c :: more, rest)
          else none

/-- A line break right behind the opening quotes is no part of the string. -/
def firstBreak (cs : List Char) : List Char := (newline? cs).getD cs

/-- A string of any of the four kinds. -/
def stringOf (cs : List Char) : Option (String × List Char) :=
  let chars : Option (List Char × List Char) := match cs with
    | '"' :: '"' :: '"' :: rest => longString '"' true (cs.length + 1) (firstBreak rest)
    | '\'' :: '\'' :: '\'' :: rest => longString '\'' false (cs.length + 1) (firstBreak rest)
    | '"' :: rest => basicString (cs.length + 1) rest
    | '\'' :: rest => literalString rest
    | _ => none
  chars.map fun (s, rest) => (String.ofList s, rest)

def isKeyChar (c : Char) : Bool := c.isAlphanum || c = '_' || c = '-'

def key (cs : List Char) : Option (String × List Char) :=
  match cs with
  | '"' :: rest => (basicString (cs.length + 1) rest).map fun (s, rest) => (String.ofList s, rest)
  | '\'' :: rest => (literalString rest).map fun (s, rest) => (String.ofList s, rest)
  | _ =>
    let s := cs.takeWhile isKeyChar
    if s.isEmpty then none else some (String.ofList s, cs.drop s.length)

/-- Keys joined by points. -/
def keyPath : Nat → List Char → Option (List String × List Char)
  | 0, _ => none
  | fuel + 1, cs => do
    let (k, rest) ← key (skipBlanks cs)
    match skipBlanks rest with
    | '.' :: rest => do
      let (ks, rest) ← keyPath fuel rest
      return (k :: ks, rest)
    | rest => return ([k], rest)

/-- Digits, each single underscore between two of them dropped. -/
def moreDigits (isDigit : Char → Bool) : List Char → Option (List Char × List Char)
  | [] => some ([], [])
  | '_' :: c :: rest =>
    if isDigit c then (moreDigits isDigit rest).map fun (ds, rest) => (c :: ds, rest) else none
  | ['_'] => none
  | c :: rest =>
    if isDigit c then (moreDigits isDigit rest).map fun (ds, rest) => (c :: ds, rest)
    else some ([], c :: rest)

def digits (isDigit : Char → Bool) : List Char → Option (List Char × List Char)
  | c :: rest =>
    if isDigit c then (moreDigits isDigit rest).map fun (ds, rest) => (c :: ds, rest) else none
  | [] => none

/-- Decimal digits without leading zeros. -/
def wholeDigits : List Char → Option (List Char × List Char)
  | '0' :: rest => some (['0'], rest)
  | cs => digits Json.Token.isDigit cs

/-- An integer of 64 bits. -/
def integerOf (negative : Bool) (n : Nat) : Option Json :=
  let i : Int := if negative then -n else n
  if Json.fitsInt64 i then some (Json.int i) else none

/-- An integer in base 16, 8 or 2, read behind its mark. -/
def based (base : Nat) (cs : List Char) : Option (Json × List Char) := do
  let value (c : Char) : Option Nat := (Json.Token.hexDigit? c).filter (· < base)
  let (ds, rest) ← digits (fun c => (value c).isSome) cs
  let j ← integerOf false (ds.foldl (fun n d => n * base + (value d).getD 0) 0)
  return (j, rest)

/-- The exponent of a double. -/
def exponent : List Char → Option (Int × List Char)
  | '+' :: rest =>
    (digits Json.Token.isDigit rest).map fun (ds, r) => (Json.Token.natOfDigits ds, r)
  | '-' :: rest =>
    (digits Json.Token.isDigit rest).map fun (ds, r) => (-Json.Token.natOfDigits ds, r)
  | cs => (digits Json.Token.isDigit cs).map fun (ds, r) => (Json.Token.natOfDigits ds, r)

/-- The double nearest to `m * 10 ^ e`; none where that overflows. -/
def nearest? (m : Nat) (e : Int) : Option Float :=
  let size : Int := (Nat.toDigits 10 m).length
  if m = 0 then some 0.0
  else if 310 < size + e then none
  else if size + e < -400 then some 0.0
  else
    let x := Float.ofScientific m (e < 0) e.natAbs
    if x.isFinite then some x else none

/-- A double; one that is too large is refused, unless it is negative. -/
def floatOf (negative : Bool) (whole fraction : List Char) (e : Int) : Option Json :=
  match nearest? (Json.Token.natOfDigits (whole ++ fraction)) (e - fraction.length) with
  | some x => some (Json.float (if negative then -x else x))
  | none => if negative then some (Json.float (-1.0 / 0.0)) else none

/-- A decimal number behind its sign. -/
def decimal (negative : Bool) (cs : List Char) : Option (Json × List Char) := do
  let (whole, rest) ← wholeDigits cs
  match rest with
  | '.' :: rest => do
    let (fraction, rest) ← digits Json.Token.isDigit rest
    match rest with
    | c :: more =>
      if c = 'e' ∨ c = 'E' then do
        let (e, rest) ← exponent more
        let j ← floatOf negative whole fraction e
        return (j, rest)
      else do
        let j ← floatOf negative whole fraction 0
        return (j, rest)
    | [] => do
      let j ← floatOf negative whole fraction 0
      return (j, [])
  | c :: more =>
    if c = 'e' ∨ c = 'E' then do
      let (e, rest) ← exponent more
      let j ← floatOf negative whole [] e
      return (j, rest)
    else do
      let j ← integerOf negative (Json.Token.natOfDigits whole)
      return (j, rest)
  | [] => do
    let j ← integerOf negative (Json.Token.natOfDigits whole)
    return (j, [])

/-- What follows a sign, or stands without one: a decimal number, infinity, or no number. -/
def unsigned (negative : Bool) : List Char → Option (Json × List Char)
  | 'i' :: 'n' :: 'f' :: rest =>
    some (Json.float (if negative then -1.0 / 0.0 else 1.0 / 0.0), rest)
  | 'n' :: 'a' :: 'n' :: rest => some (Json.float (0.0 / 0.0), rest)
  | cs => decimal negative cs

def number : List Char → Option (Json × List Char)
  | '0' :: 'x' :: rest => based 16 rest
  | '0' :: 'o' :: rest => based 8 rest
  | '0' :: 'b' :: rest => based 2 rest
  | '+' :: rest => unsigned false rest
  | '-' :: rest => unsigned true rest
  | cs => unsigned false cs

/-- A number of exactly so many digits, within limits. -/
def fixed (width low high : Nat) (cs : List Char) : Option (Nat × List Char) :=
  let ds := cs.take width
  let n := Json.Token.natOfDigits ds
  if ds.length = width ∧ ds.all Json.Token.isDigit ∧ low ≤ n ∧ n ≤ high then
    some (n, cs.drop width)
  else none

/-- The rest behind a sign. -/
def behind (c : Char) : List Char → Option (List Char)
  | d :: rest => if d = c then some rest else none
  | [] => none

def isLeapYear (year : Nat) : Bool := year % 4 = 0 && (year % 100 ≠ 0 || year % 400 = 0)

def daysInMonth (year month : Nat) : Nat :=
  if month = 2 then (if isLeapYear year then 29 else 28)
  else if month = 4 ∨ month = 6 ∨ month = 9 ∨ month = 11 then 30
  else 31

/-- The rest behind a date. -/
def date? (cs : List Char) : Option (List Char) := do
  let (year, cs) ← fixed 4 0 9999 cs
  let cs ← behind '-' cs
  let (month, cs) ← fixed 2 1 12 cs
  let cs ← behind '-' cs
  let (_, cs) ← fixed 2 1 (daysInMonth year month) cs
  return cs

/-- The rest behind a time of day. -/
def time? (cs : List Char) : Option (List Char) := do
  let (_, cs) ← fixed 2 0 23 cs
  let cs ← behind ':' cs
  let (_, cs) ← fixed 2 0 59 cs
  let cs ← behind ':' cs
  let (_, cs) ← fixed 2 0 60 cs
  match cs with
  | '.' :: rest =>
    if (rest.takeWhile Json.Token.isDigit).isEmpty then return cs
    else return rest.dropWhile Json.Token.isDigit
  | _ => return cs

/-- The rest behind an offset from UTC; none has to stand there. -/
def offset? : List Char → Option (List Char)
  | 'Z' :: rest => some rest
  | 'z' :: rest => some rest
  | c :: rest =>
    if c = '+' ∨ c = '-' then do
      let (_, cs) ← fixed 2 0 23 rest
      let cs ← behind ':' cs
      let (_, cs) ← fixed 2 0 59 cs
      return cs
    else some (c :: rest)
  | [] => some []

/-- The rest behind a date, a time of day, or both. -/
def moment? (cs : List Char) : Option (List Char) :=
  match date? cs with
  | none => time? cs
  | some rest =>
    match rest with
    | c :: more =>
      if c = 'T' ∨ c = 't' ∨ c = ' ' then
        match time? more with
        | some rest => offset? rest
        | none => some rest
      else some rest
    | [] => some []

/-- The field that holds a point in time: no setting has a field of that name. -/
def momentField : String := "$moment"

/-- A point in time; it stands for a record that no setting accepts. -/
def moment (cs : List Char) : Option (Json × List Char) :=
  (moment? cs).map fun rest =>
    (.record [(momentField, .text (String.ofList (cs.take (cs.length - rest.length))))], rest)

end BenchReport.Toml
