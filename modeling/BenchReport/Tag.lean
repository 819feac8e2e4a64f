import BenchReport.Json.Fields
import BenchReport.Text.Blank
set_option autoImplicit false

namespace BenchReport

structure Tag where
  name : String
  value : String
  deriving DecidableEq

namespace Tag

/-- Tags are ordered by name, those of one name by value. -/
instance : Ord Tag := ⟨compareLex (compareOn name) (compareOn value)⟩

instance : Std.TransOrd Tag :=
  inferInstanceAs (Std.TransCmp (compareLex (compareOn name) (compareOn value)))

instance : Std.LawfulEqOrd Tag where
  eq_of_compare {a b} h := by
    have h : compareLex (compareOn name) (compareOn value) a b = .eq := h
    rw [compareLex_eq_eq] at h
    cases a; cases b
    simp_all [compareOn]
  compare_self {a} := by
    show compareLex (compareOn name) (compareOn value) a a = .eq
    rw [compareLex_eq_eq]
    simp [compareOn]

/-- The tag as text. -/
def display (t : Tag) : String := t.name ++ ":" ++ t.value

/-- What separates a name from its value. -/
def isSeparator (c : Char) : Bool := c == ':' || c == '='

/-- Why a text is no tag. -/
inductive Flaw where
  | noSeparator
  | blankName
  deriving DecidableEq

/-- Reads a tag: the first separator splits, and the blanks around both parts are dropped. -/
def parse (s : String) : Except Flaw Tag :=
  let cs := s.toList
  match cs.dropWhile (!isSeparator ·) with
  | [] => .error .noSeparator
  | _ :: value =>
    match Text.trimChars (cs.takeWhile (!isSeparator ·)) with
    | [] => .error .blankName
    | name => .ok ⟨String.ofList name, String.ofList (Text.trimChars value)⟩

def codec : Codec Tag :=
  Codec.record "Tag"
    (Tag.mk <$> Fields.required "name" Codec.text Tag.name
      <*> Fields.required "value" Codec.text Tag.value)

end Tag

/-- A set of tags. -/
abbrev TagSet := Table Tag Unit

namespace TagSet

def insert (s : TagSet) (t : Tag) : TagSet := Table.insert s t ()

/-- The set with further tags. -/
def insertAll (s : TagSet) (ts : List Tag) : TagSet := ts.foldl insert s

/-- The tags in their order. -/
def tags (s : TagSet) : List Tag := Table.keys s

end TagSet

end BenchReport
