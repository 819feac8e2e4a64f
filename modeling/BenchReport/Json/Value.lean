import BenchReport.Table
set_option autoImplicit false

namespace BenchReport

/-- A JSON number: integers that fit 64 bits stay integers, all others are doubles. -/
inductive Number where
  | int (i : Int)
  | float (x : Float)
  deriving BEq, DecidableEq

inductive Json where
  | null
  | bool (b : Bool)
  | number (n : Number)
  | text (s : String)
  | list (items : List Json)
  | record (fields : List (String × Json))
  deriving BEq, Inhabited

namespace Json

/-- Whether an integer fits 64 bits with a sign. -/
def fitsInt64 (i : Int) : Bool := Int64.minValue.toInt ≤ i && i ≤ Int64.maxValue.toInt

def int (i : Int) : Json := .number (.int i)

def float (x : Float) : Json := .number (.float x)

/-- The field `k` of a record. -/
def field? (k : String) : Json → Option Json
  | .record fields => fields.lookup k
  | _ => none

def asText? : Json → Option String
  | .text s => some s
  | _ => none

end Json

end BenchReport
