import BenchReport.Json.Fields
set_option autoImplicit false

namespace BenchReport

inductive Phase where
  | total
  | waiting
  | connecting
  | writing
  | reading
  deriving DecidableEq

namespace Phase

def all : List Phase := [.total, .waiting, .connecting, .writing, .reading]

def name : Phase → String
  | .total => "total"
  | .waiting => "waiting"
  | .connecting => "connecting"
  | .writing => "writing"
  | .reading => "reading"

/-- The place of a phase among all. -/
def place : Phase → Nat
  | .total => 0
  | .waiting => 1
  | .connecting => 2
  | .writing => 3
  | .reading => 4

instance : Ord Phase := ⟨compareOn place⟩

instance : Std.TransOrd Phase := inferInstanceAs (Std.TransCmp (compareOn place))

theorem place_injective {p q : Phase} (same : p.place = q.place) : p = q := by
  cases p <;> cases q <;> first | rfl | cases same

instance : Std.LawfulEqOrd Phase where
  eq_of_compare same := place_injective (Nat.compare_eq_eq.1 same)

theorem mem_all (p : Phase) : p ∈ all := by cases p <;> decide

def codec : Codec Phase := Codec.word all name

end Phase

/-- One value for each phase. -/
structure PerPhase (α : Type) where
  total : α
  waiting : α
  connecting : α
  writing : α
  reading : α
  deriving BEq, DecidableEq

namespace PerPhase

variable {α β : Type}

def get (v : PerPhase α) : Phase → α
  | .total => v.total
  | .waiting => v.waiting
  | .connecting => v.connecting
  | .writing => v.writing
  | .reading => v.reading

/-- The values a function gives the phases. -/
def ofFn (f : Phase → α) : PerPhase α where
  total := f .total
  waiting := f .waiting
  connecting := f .connecting
  writing := f .writing
  reading := f .reading

/-- The phases with their values, in their order. -/
def toList (v : PerPhase α) : List (Phase × α) := Phase.all.map fun p => (p, v.get p)

/-- The phases that have a value, in their order. -/
def present (v : PerPhase (Option α)) : List (Phase × α) :=
  v.toList.filterMap fun e => e.2.map (e.1, ·)

/-- The value of a phase replaced. -/
def set (v : PerPhase α) (p : Phase) (a : α) : PerPhase α :=
  ofFn fun p' => if p' = p then a else v.get p'

@[simp] theorem get_ofFn (f : Phase → α) (p : Phase) : (ofFn f).get p = f p := by
  cases p <;> rfl

@[ext] theorem ext {v w : PerPhase α} (h : ∀ p, v.get p = w.get p) : v = w := by
  cases v; cases w
  have ht := h .total; have hw := h .waiting; have hc := h .connecting
  have hr := h .writing; have hd := h .reading
  simp only [get] at ht hw hc hr hd
  simp [ht, hw, hc, hr, hd]

/-- Some of the phases with their values: a record whose keys are phase names. -/
def codec (c : Codec α) : Codec (PerPhase (Option α)) where
  write v := .record (v.present.map fun e => (e.1.name, c.write e.2))
  read m d := match d with
    | .record members stop => do
      let found ← Codec.readMembers (Codec.findWord Phase.all Phase.name) c m stop members
      return found.foldl (fun v e => v.set e.1 (some e.2)) (ofFn fun _ => none)
    | d => .error (d.mismatch "a map")

end PerPhase

/-- The seconds an action spent in each phase; a phase that an engine does not measure stays
zero. -/
abbrev Timings := PerPhase Float

namespace Timings

def zero : Timings := PerPhase.ofFn fun _ => 0.0

/-- The sum of the phases beside the total. -/
def partSum (t : Timings) : Float := t.waiting + t.connecting + t.writing + t.reading

def fields : Fields Timings Timings :=
  PerPhase.mk
    <$> Fields.defaulted "total" Codec.float PerPhase.total 0.0
    <*> Fields.defaulted "waiting" Codec.float PerPhase.waiting 0.0
    <*> Fields.defaulted "connecting" Codec.float PerPhase.connecting 0.0
    <*> Fields.defaulted "writing" Codec.float PerPhase.writing 0.0
    <*> Fields.defaulted "reading" Codec.float PerPhase.reading 0.0

def codec : Codec Timings := Codec.record "Timings" fields

/-- The first phase whose value is negative or not finite. -/
def fault? (t : Timings) : Option (Phase × Float) :=
  t.toList.find? fun e => !e.2.isFinite || decide (e.2 < 0.0)

end Timings

end BenchReport
