import BenchReport.Json.Value
import BenchReport.Decimal.Layout
set_option autoImplicit false

namespace BenchReport.Json

/-- A control character below the space has a short escape or is written by its number. -/
def escapeChar (c : Char) : List Char :=
  match c with
  | '"' => ['\\', '"']
  | '\\' => ['\\', '\\']
  | '\n' => ['\\', 'n']
  | '\r' => ['\\', 'r']
  | '\t' => ['\\', 't']
  | c =>
    if c.toNat = 8 then ['\\', 'b']
    else if c.toNat = 12 then ['\\', 'f']
    else if c.toNat < 32 then
      ['\\', 'u', '0', '0', Nat.digitChar (c.toNat / 16), Nat.digitChar (c.toNat % 16)]
    else [c]

/-- A text between quotes. -/
def textChars (s : String) : List Char := '"' :: s.toList.flatMap escapeChar ++ ['"']

/-- A double that is not finite has no number; it is written as null. -/
def numberChars : Number → List Char
  | .int i => if i < 0 then '-' :: Decimal.digitChars i.natAbs else Decimal.digitChars i.natAbs
  | .float x => if x.isFinite then Decimal.Layout.document.chars x else ['n', 'u', 'l', 'l']

def boolChars : Bool → List Char
  | true => ['t', 'r', 'u', 'e']
  | false => ['f', 'a', 'l', 's', 'e']

mutual

/-- The value on one line without blanks. -/
def compactChars : Json → List Char
  | .null => ['n', 'u', 'l', 'l']
  | .bool b => boolChars b
  | .number n => numberChars n
  | .text s => textChars s
  | .list items => '[' :: compactItems items ++ [']']
  | .record fields => '{' :: compactFields fields ++ ['}']
termination_by structural j => j

def compactItems : List Json → List Char
  | [] => []
  | x :: rest => compactChars x ++ (if rest.isEmpty then [] else ',' :: compactItems rest)
termination_by structural l => l

def compactFields : List (String × Json) → List Char
  | [] => []
  | (k, v) :: rest =>
    textChars k ++ ':' :: compactChars v ++ (if rest.isEmpty then [] else ',' :: compactFields rest)
termination_by structural l => l

end

/-- A line break and the blanks of a level. -/
def newLine (level : Nat) : List Char := '\n' :: List.replicate (2 * level) ' '

mutual

/-- The value with one item or field per line; empty lists and records stay on theirs. -/
def prettyChars (level : Nat) : Json → List Char
  | .null => ['n', 'u', 'l', 'l']
  | .bool b => boolChars b
  | .number n => numberChars n
  | .text s => textChars s
  | .list items =>
    if items.isEmpty then ['[', ']']
    else '[' :: prettyItems (level + 1) items ++ newLine level ++ [']']
  | .record fields =>
    if fields.isEmpty then ['{', '}']
    else '{' :: prettyFields (level + 1) fields ++ newLine level ++ ['}']
termination_by structural j => j

def prettyItems (level : Nat) : List Json → List Char
  | [] => []
  | x :: rest =>
    newLine level ++ prettyChars level x ++
      (if rest.isEmpty then [] else ',' :: prettyItems level rest)
termination_by structural l => l

def prettyFields (level : Nat) : List (String × Json) → List Char
  | [] => []
  | (k, v) :: rest =>
    newLine level ++ textChars k ++ [':', ' '] ++ prettyChars level v ++
      (if rest.isEmpty then [] else ',' :: prettyFields level rest)
termination_by structural l => l

end

def compact (j : Json) : String := String.ofList j.compactChars

def pretty (j : Json) : String := String.ofList (j.prettyChars 0)

example : (Json.list [.null, .int (-5), .text "a\nb"]).compactChars =
    "[null,-5,\"a\\nb\"]".toList := by
  decide

end BenchReport.Json
