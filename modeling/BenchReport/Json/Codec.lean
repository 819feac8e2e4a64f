import BenchReport.Json.Fault
import BenchReport.Json.Write
set_option autoImplicit false

namespace BenchReport

open Json

/-- What a draft was made from. Text is read while it is decoded, so that what stands at a wrong
place makes the text malformed; a value was read before; settings come from a settings document. -/
inductive Medium where
  | text
  | value
  | settings
  deriving DecidableEq

/-- How values of a type are written and read. -/
structure Codec (α : Type) where
  write : α → Json
  read : Medium → Draft → Except Fault α

namespace Codec

variable {α β : Type}

def text : Codec String where
  write := .text
  read _ d := match d with
    | .text s => .ok s
    | d => .error (d.mismatch "a string")

def bool : Codec Bool where
  write := .bool
  read _ d := match d with
    | .bool b => .ok b
    | d => .error (d.mismatch "a boolean")

/-- Integers from `low` to `high`. -/
def integer (low high : Int) (expected : String) : Codec Int where
  write := Json.int
  read _ d := match d with
    | .number (.int i) =>
      if low ≤ i ∧ i ≤ high then .ok i else .error (.unfit (.number (.int i)) expected)
    | d => .error (d.mismatch expected)

/-- Any JSON codec seen through a pair of maps. -/
def along (c : Codec α) (into : β → α) (out : α → β) : Codec β where
  write b := c.write (into b)
  read m d := out <$> c.read m d

/-- A codec whose values must pass a further test on reading. -/
def checked (c : Codec α) (into : β → α) (out : α → Except Fault β) : Codec β where
  write b := c.write (into b)
  read m d := c.read m d >>= out

/-- A counter of 64 bits. -/
def count : Codec UInt64 :=
  (integer 0 (UInt64.size - 1) "u64").along (fun n => (n.toNat : Int))
    (fun i => UInt64.ofNat i.toNat)

def word32 : Codec UInt32 :=
  (integer 0 (UInt32.size - 1) "u32").along (fun n => (n.toNat : Int))
    (fun i => UInt32.ofNat i.toNat)

def word16 : Codec UInt16 :=
  (integer 0 (UInt16.size - 1) "u16").along (fun n => (n.toNat : Int))
    (fun i => UInt16.ofNat i.toNat)

/-- The double nearest to an integer of at most 64 bits. -/
def floatOfInt (i : Int) : Float :=
  if i < 0 then -(UInt64.ofNat i.natAbs).toFloat else (UInt64.ofNat i.natAbs).toFloat

/-- A double; an integer is read as the nearest one. -/
def float : Codec Float where
  write := Json.float
  read _ d := match d with
    | .number (.float x) => .ok x
    | .number (.int i) => .ok (floatOfInt i)
    | d => .error (d.mismatch "f64")

/-- Any value at all. -/
def json : Codec Json where
  write j := j
  read _ d := match d.reading with
    | some b => .error (.malformed b)
    | none => .ok d.toJson

/-- An absent value is written as null. -/
def option (c : Codec α) : Codec (Option α) where
  write
    | some a => c.write a
    | none => .null
  read m d := match d with
    | .null => .ok none
    | .flaw ⟨.null, b, _⟩ => .error (.malformed b)
    | d => some <$> c.read m d

/-- The items one after another, then the end of the list. -/
def readItems (c : Codec α) (m : Medium) (stop : Option Breakage) :
    List Draft → Except Fault (List α)
  | [] => match stop with
    | some b => .error (.malformed b)
    | none => .ok []
  | d :: rest => do
    let a ← c.read m d
    let as ← readItems c m stop rest
    return a :: as

def list (c : Codec α) : Codec (List α) where
  write as := .list (as.map c.write)
  read m d := match d with
    | .list items stop => readItems c m stop items
    | d => .error (d.mismatch "a sequence")

/-- The members one after another, each key read by `key`. -/
def readMembers {κ : Type} (key : String → Except Fault κ) (c : Codec α) (m : Medium)
    (stop : Option Breakage) : List (Except Flaw String × Draft) → Except Fault (List (κ × α))
  | [] => match stop with
    | some b => .error (.malformed b)
    | none => .ok []
  | (.error f, _) :: _ => .error (.malformed f.reading)
  | (.ok k, d) :: rest => do
    let k ← key k
    let a ← c.read m d
    let as ← readMembers key c m stop rest
    return (k, a) :: as

/-- A record with free keys, which `name` writes and `key` reads; the last of repeated keys
stays. -/
def table {κ : Type} [Ord κ] [Std.TransOrd κ] (name : κ → String) (key : String → Except Fault κ)
    (c : Codec α) : Codec (Table κ α) where
  write t := .record (t.entries.map fun e => (name e.1, c.write e.2))
  read m d := match d with
    | .record members stop => Table.ofList <$> readMembers key c m stop members
    | d => .error (d.mismatch "a map")

/-- A record whose keys are any texts. -/
def texts (c : Codec α) : Codec (Table String α) := table id .ok c

/-- The word among `words` that is spelled `s`. -/
def findWord (words : List α) (spell : α → String) (s : String) : Except Fault α :=
  match words.find? (spell · == s) with
  | some a => .ok a
  | none => .error (.unknownWord s (words.map spell))

/-- The one member of a record that spells a word by its key: its value must say nothing. -/
def readWordMember (find : String → Except Fault α) (m : Medium) (key : String) (value : Draft) :
    Except Fault α := do
  let a ← find key
  match m, value with
  | .settings, .record [] none => return a
  | .settings, .list [] none => return a
  | .settings, d => throw (d.mismatch "an empty table")
  | _, .null => return a
  | _, d => throw (d.mismatch "unit")

/-- A value out of a fixed vocabulary: a text, or a record whose only key is the word. -/
def word (words : List α) (spell : α → String) : Codec α where
  write a := .text (spell a)
  read m d := match m, d with
    | _, .text s => findWord words spell s
    | _, .flaw f => .error (.malformed f.asText.reading)
    | .text, .record ((.error f, _) :: _) _ => .error (.malformed f.reading)
    | .text, .record ((.ok k, v) :: more) stop => do
      let a ← readWordMember (findWord words spell) m k v
      if !more.isEmpty then throw (.malformed .garbled)
      match stop with
      | some b => throw (.malformed b)
      | none => return a
    | .text, _ => .error (.malformed .garbled)
    | _, .record [(.ok k, v)] none => readWordMember (findWord words spell) m k v
    | _, .record _ _ => .error (.unfit .record "map with a single key")
    | _, d => .error (d.mismatch "string or map")

/-- The value a text spells, with nothing behind it. -/
def ofText (c : Codec α) (s : String) : Except Fault α := do
  let (d, rest) := Draft.ofText s
  let a ← c.read .text d
  if rest.isEmpty then return a else throw (.malformed .garbled)

/-- The value a JSON value stands for. -/
def ofJson (c : Codec α) (j : Json) : Except Fault α := c.read .value (Draft.ofJson j)

/-- The compact text of a value. -/
def toText (c : Codec α) (a : α) : String := (c.write a).compact

end Codec

end BenchReport
