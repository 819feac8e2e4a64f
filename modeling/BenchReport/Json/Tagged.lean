import BenchReport.Json.Fields
set_option autoImplicit false

namespace BenchReport

open Json

/-- The forms of a tagged record. The fields of a form are read after the record was closed. -/
structure Variants (α : Type) where
  tag : String
  words : List String
  word : α → String
  write : α → List (String × Json)
  read : String → Draft → Except Fault α

namespace Variants

variable {α : Type}

/-- The word of a tag. A value that was read before may also give its number. -/
def readTag (v : Variants α) (m : Medium) (d : Draft) : Except Fault String :=
  match m, d with
  | _, .text s => Codec.findWord v.words id s
  | .value, .number (.int i) =>
    if i < 0 then .error (d.mismatch "variant identifier")
    else match v.words[i.toNat]? with
      | some w => .ok w
      | none =>
        .error (.unfit (.number (.int i)) s!"variant index 0 <= i < {v.words.length}")
  | _, d => .error (d.mismatch "variant identifier")

/-- The members in text order: the tag is read where it stands, all others are kept whole. -/
def readMembers (v : Variants α) (m : Medium) (stop : Option Breakage) :
    Option String → List (Except Flaw String × Draft) → List (Except Flaw String × Draft) →
      Except Fault α
  | seen, kept, [] => match stop, seen with
    | some b, _ => .error (.malformed b)
    | none, none => .error (.missing v.tag)
    | none, some w => v.read w (.record kept.reverse none)
  | _, _, (.error f, _) :: _ => .error (.malformed f.reading)
  | seen, kept, (.ok k, d) :: rest =>
    if k = v.tag then
      match seen with
      | some _ => .error (.duplicate v.tag)
      | none => do
        let w ← v.readTag m d
        readMembers v m stop (some w) kept rest
    else match d.reading with
      | some b => .error (.malformed b)
      | none => readMembers v m stop seen ((.ok k, d) :: kept) rest

/-- A tagged record; it may also be a list that starts with the word. -/
def codec (v : Variants α) : Codec α where
  write a := .record ((v.tag, .text (v.word a)) :: v.write a)
  read m d := match d with
    | .record members stop => v.readMembers m stop none [] members
    | .list [] (some b) => .error (.malformed b)
    | .list [] none => .error (.missing v.tag)
    | .list (first :: rest) stop => do
      let w ← v.readTag m first
      match Draft.reading (.list rest stop) with
      | some b => throw (.malformed b)
      | none => v.read w (.list rest none)
    | d => .error (d.mismatch "internally tagged enum")

/-- The form that members spell which no other field of a record names. -/
def readFree (v : Variants α) (free : List Member) : Except Fault α := do
  let w ← match free.filter fun m => m.name == v.tag with
    | [] => throw (Fault.missing v.tag)
    | [t] => v.readTag .value t.value
    | _ => throw (Fault.duplicate v.tag)
  let own := free.filter fun m => m.name != v.tag
  v.read w (.record (own.map fun m => (.ok m.name, m.value)) none)

/-- The tag and the fields of a form as part of a record. -/
def fields (v : Variants α) : Fields α α where
  named := []
  gathered := []
  gathers := true
  write a := (v.tag, .text (v.word a)) :: v.write a
  ofMembers _ known ms :=
    match v.readFree (ms.filter fun m => !known.contains m.name) with
    | .ok a => .ok a
    | .error e => .error ⟨Fields.afterwards ms, e⟩
  ofItems _ title taken _ _ := .error (.length taken title)
  size := 0

end Variants

end BenchReport
