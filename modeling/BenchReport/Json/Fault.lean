import BenchReport.Json.Draft
import BenchReport.Decimal.Layout
import BenchReport.Text.Base64
import BenchReport.Text.Quoted
set_option autoImplicit false

namespace BenchReport.Json

/-- What stands where something else was expected. -/
inductive Found where
  | null
  | bool (b : Bool)
  | number (n : Number)
  | text (s : String)
  | list
  | record
  deriving DecidableEq

def Found.message : Found → String
  | .null => "null"
  | .bool b => s!"boolean `{b}`"
  | .number (.int i) => s!"integer `{i}`"
  | .number (.float x) => "floating point `" ++ Decimal.Layout.document.text x ++ "`"
  | .text s => "string " ++ Text.quoted s
  | .list => "sequence"
  | .record => "map"

inductive Fault where
  /-- The text fails. -/
  | malformed (how : Breakage)
  /-- A value of another kind. -/
  | mismatch (found : Found) (expected : String)
  /-- A value of the right kind that is not admitted. -/
  | unfit (found : Found) (expected : String)
  | missing (field : String)
  | duplicate (field : String)
  /-- A list with too few or too many items. -/
  | length (count : Nat) (expected : String)
  | unknownWord (word : String) (words : List String)
  | noAlternative (form : String)
  | base64 (flaw : Text.Base64.Flaw)
  | eventId
  | timestamp
  deriving DecidableEq

/-- The words a word could have been. -/
def alternatives : List String → String
  | [] => "there are no variants"
  | [a] => s!"expected `{a}`"
  | [a, b] => s!"expected `{a}` or `{b}`"
  | words => "expected one of " ++ ", ".intercalate (words.map fun w => s!"`{w}`")

def Fault.message : Fault → String
  | .malformed .garbled => "malformed text"
  | .malformed .cutShort => "text ends too early"
  | .mismatch found expected => s!"invalid type: {found.message}, expected {expected}"
  | .unfit found expected => s!"invalid value: {found.message}, expected {expected}"
  | .missing field => s!"missing field `{field}`"
  | .duplicate field => s!"duplicate field `{field}`"
  | .length count expected => s!"invalid length {count}, expected {expected}"
  | .unknownWord word words => s!"unknown variant `{word}`, {alternatives words}"
  | .noAlternative form => s!"data did not match any variant of untagged enum {form}"
  | .base64 flaw => flaw.message
  | .eventId => "not an event id"
  | .timestamp => "not a timestamp"

/-- What stands at a draft that is not a flaw. -/
def Draft.found : Draft → Found
  | .flaw _ => .null
  | .null => .null
  | .bool b => .bool b
  | .number n => .number n
  | .text s => .text s
  | .list _ _ => .list
  | .record _ _ => .record

/-- The fault of a draft that is of another kind than expected. -/
def Draft.mismatch (d : Draft) (expected : String) : Fault :=
  match d with
  | .flaw f => .malformed f.reading
  | d => .mismatch d.found expected

end BenchReport.Json
