import BenchReport.Error
import BenchReport.Stats.Summary
set_option autoImplicit false

namespace BenchReport

/-- The number of a metric. Integers stay integers when they are written. -/
inductive MetricValue where
  | integer (i : Int64)
  | float (x : Float)
  deriving BEq, DecidableEq

namespace MetricValue

def toFloat : MetricValue → Float
  | integer i => Codec.floatOfInt i.toInt
  | float x => x

/-- A counter as a metric: the greatest integer stands for all that are greater. -/
def ofCount (n : UInt64) : MetricValue :=
  integer (if Json.fitsInt64 n.toNat then Int64.ofInt n.toNat else Int64.maxValue)

/-- The value with zero for what is not finite. -/
def sanitized : MetricValue → MetricValue
  | integer i => integer i
  | float x => float (Scalar.finite x)

def codec : Codec MetricValue where
  write
    | integer i => Json.int i.toInt
    | float x => Json.float x
  read _ d := match d.reading with
    | some how => .error (.malformed how)
    | none => match d with
      | .number (.int i) =>
        .ok (if Json.fitsInt64 i then integer (Int64.ofInt i)
          else float (Codec.floatOfInt i))
      | .number (.float x) => .ok (float x)
      | _ => .error (.noAlternative "MetricValue")

end MetricValue

/-- How a backend should read a metric. -/
inductive MetricKind where
  | count
  | rate
  | distribution
  | sample
  deriving DecidableEq

namespace MetricKind

def all : List MetricKind := [.count, .rate, .distribution, .sample]

def name : MetricKind → String
  | .count => "COUNT"
  | .rate => "RATE"
  | .distribution => "DISTRIBUTION"
  | .sample => "SAMPLE"

def codec : Codec MetricKind := Codec.word all name

end MetricKind

structure CustomMetric where
  name : String
  shortName : String
  value : MetricValue
  /-- Either `custom`, or the phase whose row the metric is put into. -/
  group : String
  kind : MetricKind
  deriving BEq, DecidableEq

namespace CustomMetric

/-- The group of a metric that belongs to no phase. -/
def ownGroup : String := "custom"

def fields : Fields CustomMetric CustomMetric :=
  CustomMetric.mk
    <$> Fields.required "name" Codec.text name
    <*> Fields.defaulted "short_name" Codec.text shortName ""
    <*> Fields.required "value" MetricValue.codec value
    <*> Fields.defaulted "group" Codec.text group ownGroup
    <*> Fields.required "metric_type" MetricKind.codec kind

def codec : Codec CustomMetric := Codec.record "CustomMetric" fields

/-- The fields of a row that say whose row it is. -/
def identityNames : List String := ["name", "stage", "group"]

/-- The fields that a row has on its own. -/
def reservedNames : List String := identityNames ++ Summary.names

/-- A metric shares its row with the row's own fields, so it needs a name that none of them has. -/
def validate (m : CustomMetric) : Except Error Unit :=
  if Text.isBlankText m.name then .error .blankMetric
  else if reservedNames.contains m.name then .error (.reservedMetric m.name)
  else .ok ()

/-- The integer that a double is, if it fits 64 bits. -/
def whole? (x : Float) : Option Int64 :=
  if x.isFinite && Double.round x == x && x.abs < 9223372036854775808.0 then
    let size : Int := x.abs.toUInt64.toNat
    some (Int64.ofInt (if x < 0.0 then -size else size))
  else none

/-- A count that is whole becomes an integer, what is not finite becomes zero, and an absent short
name becomes the name. -/
def normalized (m : CustomMetric) : CustomMetric where
  name := m.name
  shortName := if m.shortName = "" then m.name else m.shortName
  value := match m.kind, m.value with
    | .count, .float x => match whole? x with
      | some i => .integer i
      | none => MetricValue.sanitized (.float x)
    | _, v => v.sanitized
  group := m.group
  kind := m.kind

end CustomMetric

end BenchReport
