import BenchReport.Json.Value
set_option autoImplicit false

namespace BenchReport.Toml

inductive Node where
  | value (j : Json)
  /-- A table: `implied` when only a path through it was named, `dotted` when by a dotted key. -/
  | table (implied dotted : Bool) (members : List (String × Node))
  /-- A list of tables, in the order of their headings. -/
  | tables (elements : List (List (String × Node)))
  deriving Inhabited

abbrev Members := List (String × Node)

namespace Members

/-- The members with `k` bound to a node, at its place if it has one. -/
def bind (k : String) (n : Node) : Members → Members
  | [] => [(k, n)]
  | (k', n') :: rest => if k' = k then (k, n) :: rest else (k', n') :: bind k n rest

/-- The members without `k`. -/
def drop (k : String) (ms : Members) : Members := ms.filter fun m => m.1 ≠ k

/-- Changes the table at a path, and tells the change whether a dotted key made the table. Tables on
the way that are not there yet are made; a dotted key opens no table that has a heading of its
own. -/
def within (dotted : Bool) (change : Bool → Members → Option Members) :
    List String → Bool → Members → Option Members
  | [], isDotted, ms => change isDotted ms
  | k :: path, _, ms =>
    match ms.lookup k with
    | none =>
      (within dotted change path dotted []).map fun inner => ms.bind k (.table true dotted inner)
    | some (.value _) => none
    | some (.table implied isDotted inner) =>
      if dotted && !implied then none
      else
        (within dotted change path isDotted inner).map fun inner =>
          ms.bind k (.table implied isDotted inner)
    | some (.tables elements) =>
      (within dotted change path false (elements.getLastD [])).map fun last =>
        ms.bind k (.tables (elements.dropLast ++ [last]))

/-- Binds a key that is not bound yet. Plain keys do not add to tables made by dotted keys, and
dotted keys add only to those. -/
def define (path : List String) (k : String) (j : Json) (ms : Members) : Option Members :=
  within true
    (fun isDotted ms =>
      if isDotted == path.isEmpty then none
      else match ms.lookup k with
        | some _ => none
        | none => some (ms ++ [(k, .value j)]))
    path false ms

end Members

mutual

def Node.toJson : Node → Json
  | .value j => j
  | .table _ _ members => .record (membersToJson members)
  | .tables elements => .list (elementsToJson elements)
termination_by structural n => n

/-- The members as fields of a record. -/
def membersToJson : List (String × Node) → List (String × Json)
  | [] => []
  | (k, n) :: rest => (k, n.toJson) :: membersToJson rest
termination_by structural l => l

/-- The tables of a list as records. -/
def elementsToJson : List (List (String × Node)) → List Json
  | [] => []
  | ms :: rest => .record (membersToJson ms) :: elementsToJson rest
termination_by structural l => l

end

/-- A document while it is read: what was closed, and the table that is open. -/
structure Draft where
  root : Members
  /-- The heading of the open table. -/
  path : List String
  /-- Whether the open table belongs to a list of tables. -/
  inList : Bool
  opened : Members

namespace Draft

def empty : Draft := ⟨[], [], false, []⟩

/-- Closes the open table. -/
def close (d : Draft) : Option Members :=
  match d.path.getLast? with
  | none => some d.opened
  | some k =>
    Members.within false
      (fun _ ms =>
        if d.inList then
          match ms.lookup k with
          | none => some (ms.bind k (.tables [d.opened]))
          | some (.tables elements) => some (ms.bind k (.tables (elements ++ [d.opened])))
          | some _ => none
        else match ms.lookup k with
          | none => some (ms ++ [(k, .table false false d.opened)])
          | some _ => none)
      d.path.dropLast false d.root

/-- The members that a heading finds in the table it names; a table is opened by one heading
only. -/
def found (k : String) (ms : Members) : Option Members :=
  match ms.lookup k with
  | none => some []
  | some (.table true false members) => some members
  | some _ => none

/-- The table at a path, if it is there. -/
def tableAt (path : List String) (ms : Members) : Option Members :=
  match path with
  | [] => some ms
  | k :: path =>
    match ms.lookup k with
    | some (.table _ _ members) => tableAt path members
    | some (.tables elements) => tableAt path (elements.getLastD [])
    | _ => none

/-- Closes the open table and opens the one of a heading. -/
def openTable (d : Draft) (path : List String) : Option Draft := do
  let root ← d.close
  let k ← path.getLast?
  let members ← found k ((tableAt path.dropLast root).getD [])
  let root ← Members.within false (fun _ ms => (found k ms).map fun _ => ms.drop k) path.dropLast
    false root
  return ⟨root, path, false, members⟩

/-- Closes the open table and opens a further one of a list. -/
def openElement (d : Draft) (path : List String) : Option Draft := do
  let root ← d.close
  let k ← path.getLast?
  let root ← Members.within false
    (fun _ ms => match ms.lookup k with
      | none => some (ms.bind k (.tables []))
      | some (.tables _) => some ms
      | some _ => none)
    path.dropLast false root
  return ⟨root, path, true, []⟩

end Draft

end BenchReport.Toml
