import BenchReport.Json.Codec
set_option autoImplicit false

namespace BenchReport

open Json

/-- A member of a record and the place at which it stands. -/
structure Member where
  place : Nat
  name : String
  value : Draft

/-- A fault and the place in the record at which it shows. -/
structure Trouble where
  place : Nat
  fault : Fault
  deriving DecidableEq

/-- The earlier of two troubles; of two at one place the first. -/
def Trouble.earlier (a b : Trouble) : Trouble := if b.place < a.place then b else a

/-- Applies a reading to another; of two troubles the earlier is kept. -/
def Trouble.both {α β : Type} (f : Except Trouble (α → β)) (a : Except Trouble α) :
    Except Trouble β :=
  match f, a with
  | .ok f, .ok a => .ok (f a)
  | .error s, .ok _ => .error s
  | .ok _, .error t => .error t
  | .error s, .error t => .error (s.earlier t)

/-- Fields of a record: how those of a `σ` are written, and how they are read into an `α`. Fields
that are read where they stand are `named`; a part set into the record has its fields `gathered` and
read after the record was closed. Of all troubles the reader reports the one that stands first in
the text. -/
structure Fields (σ α : Type) where
  named : List String
  gathered : List String
  /-- Whether members that are not named are kept for a part of the record. -/
  gathers : Bool
  write : σ → List (String × Json)
  /-- From all members, given the names of all fields of the record. -/
  ofMembers : Medium → List String → List Member → Except Trouble α
  /-- From the items of a list, of which so many were taken: the value and the items left. -/
  ofItems : Medium → String → Nat → List Draft → Option Breakage → Except Fault (α × List Draft)
  size : Nat

namespace Fields

variable {σ τ α β : Type}

/-- The place of what shows only at the end of a record with these members. -/
def closing (ms : List Member) : Nat := ms.length + 1

/-- The place of what shows in a part read after the record was closed. -/
def afterwards (ms : List Member) : Nat := ms.length + 2

protected def pure (a : α) : Fields σ α where
  named := []
  gathered := []
  gathers := false
  write _ := []
  ofMembers _ _ _ := .ok a
  ofItems _ _ _ items _ := .ok (a, items)
  size := 0

protected def seq (f : Fields σ (α → β)) (x : Fields σ α) : Fields σ β where
  named := f.named ++ x.named
  gathered := f.gathered ++ x.gathered
  gathers := f.gathers || x.gathers
  write s := f.write s ++ x.write s
  ofMembers m known ms := Trouble.both (f.ofMembers m known ms) (x.ofMembers m known ms)
  ofItems m title taken items stop := do
    let (g, items) ← f.ofItems m title taken items stop
    let (a, items) ← x.ofItems m title (taken + f.size) items stop
    return (g a, items)
  size := f.size + x.size

instance : Applicative (Fields σ) where
  pure := Fields.pure
  seq f x := Fields.seq f (x ())

/-- A field: what it is when the record lacks it, what it is when a list is too short for it, and
whether a value of it is written. -/
structure Policy (β : Type) where
  absent : Option β
  short : Option β
  shown : β → Bool

/-- The field `name`, read where it stands. -/
def field (name : String) (c : Codec β) (get : σ → β) (p : Policy β) : Fields σ β where
  named := [name]
  gathered := []
  gathers := false
  write s := if p.shown (get s) then [(name, c.write (get s))] else []
  ofMembers m _ ms :=
    match ms.filter (·.name == name) with
    | [] => match p.absent with
      | some b => .ok b
      | none => .error ⟨closing ms, .missing name⟩
    | x :: more => match c.read m x.value with
      | .error e => .error ⟨x.place, e⟩
      | .ok b => match more with
        | [] => .ok b
        | y :: _ => .error ⟨y.place, .duplicate name⟩
  ofItems m title taken items stop := match items, stop with
    | d :: rest, _ => (·, rest) <$> c.read m d
    | [], some b => .error (.malformed b)
    | [], none => match p.short with
      | some b => .ok (b, [])
      | none => .error (.length taken title)
  size := 1

/-- A field that must be there. -/
def required (name : String) (c : Codec β) (get : σ → β) : Fields σ β :=
  field name c get ⟨none, none, fun _ => true⟩

/-- A field with a value of its own when it is not there. -/
def defaulted (name : String) (c : Codec β) (get : σ → β) (b : β) : Fields σ β :=
  field name c get ⟨some b, some b, fun _ => true⟩

/-- A field that may be null or absent, but has its place in a list. -/
def nullable (name : String) (c : Codec β) (get : σ → Option β) : Fields σ (Option β) :=
  field name c.option get ⟨some none, none, fun _ => true⟩

/-- A field that may be null or absent everywhere. -/
def optional (name : String) (c : Codec β) (get : σ → Option β) : Fields σ (Option β) :=
  field name c.option get ⟨some none, some none, fun _ => true⟩

/-- A field that is not written when it is absent. -/
def sparse (name : String) (c : Codec β) (get : σ → Option β) : Fields σ (Option β) :=
  field name c.option get ⟨some none, some none, Option.isSome⟩

/-- The fields of a part set into the record beside its own. -/
def inline (sub : Fields τ β) (get : σ → τ) : Fields σ β where
  named := []
  gathered := sub.named ++ sub.gathered
  gathers := true
  write s := sub.write (get s)
  ofMembers _ known ms :=
    match sub.ofMembers .value known ms with
    | .ok b => .ok b
    | .error t => .error ⟨afterwards ms, t.fault⟩
  ofItems _ title taken _ _ := .error (.length taken title)
  size := 0

/-- The values of members, one after another. -/
def valuesOf (c : Codec β) (place : Nat) : List Member → Except Trouble (List (String × β))
  | [] => .ok []
  | m :: rest =>
    match c.read .value m.value, valuesOf c place rest with
    | .error e, _ => .error ⟨place, e⟩
    | .ok _, .error t => .error t
    | .ok b, .ok bs => .ok ((m.name, b) :: bs)

/-- All members that no other field of the record names. -/
def others (c : Codec β) (get : σ → Table String β) : Fields σ (Table String β) where
  named := []
  gathered := []
  gathers := true
  write s := (get s).entries.map fun e => (e.1, c.write e.2)
  ofMembers _ known ms :=
    Table.ofList <$> valuesOf c (afterwards ms) (ms.filter fun m => !known.contains m.name)
  ofItems _ title taken _ _ := .error (.length taken title)
  size := 0

/-- The same field once for each index below `n`. -/
def vector : (n : Nat) → (Fin n → Fields σ β) → Fields σ (Vector β n)
  | 0, _ => pure #v[]
  | n + 1, f => Vector.push <$> vector n (fun i => f i.castSucc) <*> f (Fin.last n)

end Fields

namespace Codec

variable {α : Type}

/-- The members of a record at their places, without those whose key cannot be read. -/
def placed (place : Nat) : List (Except Flaw String × Draft) → List Member
  | [] => []
  | (.error _, _) :: rest => placed (place + 1) rest
  | (.ok k, d) :: rest => ⟨place, k, d⟩ :: placed (place + 1) rest

/-- The first trouble of the text itself among members that are not read where they stand: `keep`
tells which are, and members that a record gathers are read as a whole. -/
def textTrouble (keep : String → Bool) (gathers : Bool) (stop : Option Breakage) (place : Nat) :
    List (Except Flaw String × Draft) → Except Trouble Unit
  | [] => match stop with
    | some b => .error ⟨place, .malformed b⟩
    | none => .ok ()
  | (.error f, _) :: _ => .error ⟨place, .malformed f.reading⟩
  | (.ok k, d) :: rest =>
    if keep k then textTrouble keep gathers stop (place + 1) rest
    else match (if gathers then d.reading else d.passing) with
      | some b => .error ⟨place, .malformed b⟩
      | none => textTrouble keep gathers stop (place + 1) rest

/-- The fault of a reading, its place forgotten. -/
def settle (r : Except Trouble α) : Except Fault α :=
  match r with
  | .ok a => .ok a
  | .error t => .error t.fault

/-- Items that a list holds beyond the fields of a record. -/
def surplus (m : Medium) (title : String) (count : Nat) (stop : Option Breakage) :
    List Draft → Except Fault Unit
  | [] => match stop with
    | some b => .error (.malformed b)
    | none => .ok ()
  | _ :: _ => match m with
    | .text => .error (.malformed .garbled)
    | .value => .error (.length count title)
    | .settings => .ok ()

def elements (n : Nat) : String := if n = 1 then "1 element" else s!"{n} elements"

/-- A record. Unless a part is set into it, it may also be a list of its fields in order. -/
def record (name : String) (fs : Fields α α) : Codec α where
  write a := .record (fs.write a)
  read m d := match d with
    | .record members stop =>
      let known := fs.named ++ fs.gathered
      let ms := placed 0 members
      settle (Trouble.both
        (Trouble.both (.ok fun _ a => a)
          (textTrouble fs.named.contains fs.gathers stop 0 members))
        (fs.ofMembers m known ms))
    | .list items stop =>
      if fs.gathers then .error (.mismatch .list ("struct " ++ name))
      else do
        let title := "struct " ++ name ++ " with " ++ elements fs.size
        let (a, rest) ← fs.ofItems m title 0 items stop
        surplus m "fewer elements in array" items.length stop rest
        return a
    | d => .error (d.mismatch ("struct " ++ name))

end Codec

end BenchReport
