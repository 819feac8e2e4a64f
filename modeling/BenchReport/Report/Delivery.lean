import BenchReport.Report.Backend
set_option autoImplicit false

namespace BenchReport

/-- Which categories were submitted and which were skipped, each in order. -/
structure Delivery where
  submitted : List Category
  skipped : List Category
  deriving DecidableEq

namespace Delivery

def none : Delivery := ⟨[], []⟩

def submit (d : Delivery) (c : Category) : Delivery := { d with submitted := d.submitted ++ [c] }

def skip (d : Delivery) (c : Category) : Delivery := { d with skipped := d.skipped ++ [c] }

end Delivery

namespace Backend

variable {σ : Type}

/-- Takes a step unless the run is cancelled. It tells the outcome, and whether the run is cancelled
now. -/
def step (title : String) (call : StateM σ Reply) (cancelled : Bool) :
    StateM σ (Except Error Unit × Bool) :=
  if cancelled then return (.error (.abandoned title), true)
  else do
    match ← call with
    | .done result cancelled => return (result, cancelled)
    | .dropped => return (.error (.abandoned title), true)

/-- Submits the categories one after another, up to the first failure that is not a refusal. -/
def submitAll (b : Backend σ) (p : Payload) :
    List Category → Bool → Delivery → StateM σ (Except Error Delivery × Bool)
  | [], cancelled, d => return (.ok d, cancelled)
  | c :: rest, cancelled, d =>
    if p.has c && b.supports c then do
      match ← step c.step (b.submit c p) cancelled with
      | (.ok (), cancelled) => submitAll b p rest cancelled (d.submit c)
      | (.error e, cancelled) =>
        if e.kind = .unsupported then submitAll b p rest cancelled (d.skip c)
        else return (.error e, cancelled)
    else submitAll b p rest cancelled (d.skip c)

/-- Delivers a payload. Once connected, the backend is asked to close: after a failure in any case,
and its answer then does not count; after the last submission unless the run was cancelled
meanwhile. -/
def deliver (b : Backend σ) (p : Payload) (cancelled : Bool) :
    StateM σ (Except Error Delivery) := do
  match ← step "connect" b.connect cancelled with
  | (.error e, _) => return .error e
  | (.ok (), cancelled) =>
    match ← b.submitAll p Category.all cancelled .none with
    | (.error e, _) => do
      let _ ← b.close
      return .error e
    | (.ok d, cancelled) =>
      match ← step "close" b.close cancelled with
      | (.error e, _) => return .error e
      | (.ok (), _) => return .ok d

end Backend

end BenchReport
