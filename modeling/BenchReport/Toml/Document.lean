import BenchReport.Toml.Scan
import BenchReport.Toml.Section
set_option autoImplicit false

namespace BenchReport.Toml

/-- How many lists and tables may stand inside each other, and how many keys in a path. -/
def depthLimit : Nat := 80

mutual

/-- A value. Nesting takes two from the fuel for each character, so twice their number is enough. -/
def value (depth : Nat) : Nat → List Char → Option (Json × List Char)
  | 0, _ => none
  | fuel + 1, cs =>
    match cs with
    | '[' :: rest =>
      if depth + 1 < depthLimit then
        (listItems (depth + 1) fuel rest).map fun (l, rest) => (.list l, rest)
      else none
    | '{' :: rest =>
      if depth + 1 < depthLimit then
        match skipBlanks rest with
        | '}' :: rest => some (.record [], rest)
        | rest => (pairs (depth + 1) fuel [] rest).map fun (ms, rest) =>
          (.record (membersToJson ms), rest)
      else none
    | 't' :: 'r' :: 'u' :: 'e' :: rest => some (.bool true, rest)
    | 'f' :: 'a' :: 'l' :: 's' :: 'e' :: rest => some (.bool false, rest)
    | '"' :: _ => (stringOf cs).map fun (s, rest) => (.text s, rest)
    | '\'' :: _ => (stringOf cs).map fun (s, rest) => (.text s, rest)
    | cs => moment cs <|> number cs

/-- The items of a list up to its end. -/
def listItems (depth : Nat) : Nat → List Char → Option (List Json × List Char)
  | 0, _ => none
  | fuel + 1, cs =>
    match skipLines cs.length cs with
    | ']' :: rest => some ([], rest)
    | cs => do
      let (j, rest) ← value depth fuel cs
      match skipLines rest.length rest with
      | ']' :: rest => return ([j], rest)
      | ',' :: rest => do
        let (js, rest) ← listItems depth fuel rest
        return (j :: js, rest)
      | _ => none

/-- The pairs of a table on one line up to its end, added to those before. -/
def pairs (depth : Nat) : Nat → Members → List Char → Option (Members × List Char)
  | 0, _, _ => none
  | fuel + 1, ms, cs => do
    let (path, rest) ← keyPath cs.length cs
    if depthLimit ≤ path.length then none
    match rest with
    | '=' :: rest => do
      let (j, rest) ← value depth fuel (skipBlanks rest)
      let ms ← ms.define path.dropLast (path.getLastD "") j
      match skipBlanks rest with
      | '}' :: rest => return (ms, rest)
      | ',' :: rest => pairs depth fuel ms rest
      | _ => none
    | _ => none

end

/-- A key with its value, up to the end of the line. -/
def pairLine (d : Draft) (cs : List Char) : Option (Draft × List Char) := do
  let (path, rest) ← keyPath cs.length cs
  if depthLimit ≤ path.length then none
  let rest ← behind '=' rest
  let (j, rest) ← value 0 (2 * rest.length + 2) (skipBlanks rest)
  let rest ← lineEnd? rest
  let opened ← d.opened.define path.dropLast (path.getLastD "") j
  return ({ d with opened }, rest)

/-- A heading, read behind its opening brackets. -/
def heading (list : Bool) (d : Draft) (cs : List Char) : Option (Draft × List Char) := do
  let (path, rest) ← keyPath cs.length cs
  if depthLimit ≤ path.length then none
  let rest ← behind ']' rest
  let rest ← if list then behind ']' rest else some rest
  let rest ← lineEnd? rest
  let d ← if list then d.openElement path else d.openTable path
  return (d, rest)

/-- The lines of a document, each at least a character long. -/
def lines : Nat → Draft → List Char → Option Draft
  | 0, d, _ => some d
  | fuel + 1, d, cs =>
    match skipBlanks cs with
    | [] => some d
    | '[' :: '[' :: rest => (heading true d rest).bind fun (d, rest) => lines fuel d rest
    | '[' :: rest => (heading false d rest).bind fun (d, rest) => lines fuel d rest
    | cs =>
      match lineEnd? cs with
      | some rest => lines fuel d rest
      | none => (pairLine d cs).bind fun (d, rest) => lines fuel d rest

/-- The record a document spells; a byte order mark at its front is passed over. -/
def read (s : String) : Option Json :=
  let cs := s.toList
  let cs := if cs.head? = some (Char.ofNat 0xFEFF) then cs.drop 1 else cs
  ((lines cs.length .empty cs).bind Draft.close).map fun ms => .record (membersToJson ms)

end BenchReport.Toml
