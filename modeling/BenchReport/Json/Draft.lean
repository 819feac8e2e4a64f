import BenchReport.Json.Token
set_option autoImplicit false

namespace BenchReport.Json

/-- A tree read from a text. A list or record that the text does not close properly carries the way
it breaks off; in place of a key that cannot be read stands its flaw. So one who walks a draft in
text order meets the first trouble first, be it a wrong value or malformed text. -/
inductive Draft where
  | flaw (f : Flaw)
  | null
  | bool (b : Bool)
  | number (n : Number)
  | text (s : String)
  | list (items : List Draft) (stop : Option Breakage)
  | record (members : List (Except Flaw String × Draft)) (stop : Option Breakage)
  deriving Inhabited

namespace Draft

/-- How the text fails for one who passes over a key. -/
def passingKey : Except Flaw String → Option Breakage
  | .error f => f.passing
  | .ok _ => none

/-- How the text fails for one who reads a key. -/
def readingKey : Except Flaw String → Option Breakage
  | .error f => some f.reading
  | .ok _ => none

mutual

/-- How the text fails for one who passes over the value. -/
def passing : Draft → Option Breakage
  | .flaw f => f.passing
  | .list items stop => passingItems items <|> stop
  | .record members stop => passingMembers members <|> stop
  | _ => none
termination_by structural d => d

def passingItems : List Draft → Option Breakage
  | [] => none
  | d :: rest => passing d <|> passingItems rest
termination_by structural l => l

def passingMembers : List (Except Flaw String × Draft) → Option Breakage
  | [] => none
  | (key, d) :: rest => passingKey key <|> passing d <|> passingMembers rest
termination_by structural l => l

end

mutual

/-- How the text fails for one who reads the whole value. -/
def reading : Draft → Option Breakage
  | .flaw f => some f.reading
  | .list items stop => readingItems items <|> stop
  | .record members stop => readingMembers members <|> stop
  | _ => none
termination_by structural d => d

def readingItems : List Draft → Option Breakage
  | [] => none
  | d :: rest => reading d <|> readingItems rest
termination_by structural l => l

def readingMembers : List (Except Flaw String × Draft) → Option Breakage
  | [] => none
  | (key, d) :: rest => readingKey key <|> reading d <|> readingMembers rest
termination_by structural l => l

end

/-- The nesting a reader follows; one who passes over a value follows any. -/
def depthLimit : Nat := 127

/-- A list or record inside `depth` others. -/
def nested (depth : Nat) (d : Draft) : Draft :=
  if depth < depthLimit then d else .flaw ⟨.nothing, .garbled, d.passing⟩

/-- What is wrong where something should start, but does not. -/
def missing : List Token → Flaw
  | [] => .cutShort
  | _ => .garbled

def breakOff : List Token → Breakage
  | [] => .cutShort
  | _ => .garbled

mutual

/-- The value at the front of the tokens and the tokens behind it. Every call takes a token or hands
over to one that does, so twice the number of tokens is enough fuel. -/
def ofTokens (depth : Nat) : Nat → List Token → Draft × List Token
  | 0, ts => (.flaw (missing ts), [])
  | fuel + 1, ts =>
    match ts with
    | .null :: rest => (.null, rest)
    | .bool b :: rest => (.bool b, rest)
    | .number n :: rest => (.number n, rest)
    | .text s :: rest => (.text s, rest)
    | .flaw f :: rest => (.flaw f, rest)
    | .openList :: .closeList :: rest => (nested depth (.list [] none), rest)
    | .openList :: [] => (nested depth (.list [] (some .cutShort)), [])
    | .openList :: rest =>
      let (items, stop, rest) := itemsOfTokens (depth + 1) fuel rest
      (nested depth (.list items stop), rest)
    | .openRecord :: .closeRecord :: rest => (nested depth (.record [] none), rest)
    | .openRecord :: rest =>
      let (members, stop, rest) := membersOfTokens (depth + 1) fuel rest
      (nested depth (.record members stop), rest)
    | ts => (.flaw (missing ts), [])

/-- The items of a list from a value on. -/
def itemsOfTokens (depth : Nat) : Nat → List Token → List Draft × Option Breakage × List Token
  | 0, _ => ([], some .cutShort, [])
  | fuel + 1, ts =>
    let (item, rest) := ofTokens depth fuel ts
    match rest with
    | .closeList :: rest => ([item], none, rest)
    | .comma :: rest =>
      let (items, stop, rest) := itemsOfTokens depth fuel rest
      (item :: items, stop, rest)
    | rest => ([item], some (breakOff rest), [])

/-- The members of a record from a key on. -/
def membersOfTokens (depth : Nat) :
    Nat → List Token → List (Except Flaw String × Draft) × Option Breakage × List Token
  | 0, _ => ([], some .cutShort, [])
  | fuel + 1, ts =>
    match ts with
    | .text key :: rest => memberOfTokens depth fuel (.ok key) rest
    | .flaw f :: rest =>
      if f.asText.passing.isNone then memberOfTokens depth fuel (.error f) rest
      else ([(.error f.asText, .flaw f.asText)], none, [])
    | ts => ([(.error (missing ts), .flaw (missing ts))], none, [])

/-- The members of a record whose first key was read. -/
def memberOfTokens (depth : Nat) (fuel : Nat) (key : Except Flaw String) (ts : List Token) :
    List (Except Flaw String × Draft) × Option Breakage × List Token :=
  match fuel, ts with
  | 0, _ => ([], some .cutShort, [])
  | fuel + 1, .colon :: rest =>
    let (value, rest) := ofTokens depth fuel rest
    match rest with
    | .closeRecord :: rest => ([(key, value)], none, rest)
    | .comma :: rest =>
      let (members, stop, rest) := membersOfTokens depth fuel rest
      ((key, value) :: members, stop, rest)
    | rest => ([(key, value)], some (breakOff rest), [])
  | _ + 1, ts => ([(key, .flaw (missing ts))], none, [])

end

mutual

/-- The value of a draft that reads without a flaw. Of repeated keys the last binding stays, and
keys ascend. -/
def toJson : Draft → Json
  | .flaw _ => .null
  | .null => .null
  | .bool b => .bool b
  | .number n => .number n
  | .text s => .text s
  | .list items _ => .list (itemsToJson items)
  | .record members _ => .record (Table.ofList (membersToJson members)).entries
termination_by structural d => d

def itemsToJson : List Draft → List Json
  | [] => []
  | d :: rest => toJson d :: itemsToJson rest
termination_by structural l => l

def membersToJson : List (Except Flaw String × Draft) → List (String × Json)
  | [] => []
  | (key, d) :: rest => (key.toOption.getD "", toJson d) :: membersToJson rest
termination_by structural l => l

end

mutual

/-- A value as a draft without flaws. -/
def ofJson : Json → Draft
  | .null => .null
  | .bool b => .bool b
  | .number n => .number n
  | .text s => .text s
  | .list items => .list (itemsOfJson items) none
  | .record fields => .record (membersOfJson fields) none
termination_by structural j => j

def itemsOfJson : List Json → List Draft
  | [] => []
  | j :: rest => ofJson j :: itemsOfJson rest
termination_by structural l => l

def membersOfJson : List (String × Json) → List (Except Flaw String × Draft)
  | [] => []
  | (k, j) :: rest => (.ok k, ofJson j) :: membersOfJson rest
termination_by structural l => l

end

/-- The draft of a text, and the tokens that follow its value. -/
def ofText (s : String) : Draft × List Token :=
  let ts := tokens s.toList
  ofTokens 0 (2 * ts.length + 2) ts

end Draft

end BenchReport.Json
