import BenchReport.Report.Payload
set_option autoImplicit false

namespace BenchReport

/-- What becomes of a call to a backend. -/
inductive Reply where
  /-- The call came to its end. By then the run may have been cancelled. -/
  | done (result : Except Error Unit) (cancelled : Bool)
  /-- The run was cancelled while the call was waiting, and the call was given up. -/
  | dropped

structure Backend (σ : Type) where
  name : String
  /-- The categories it takes; no other is handed to it. -/
  categories : List Category
  connect : StateM σ Reply
  submit : Category → Payload → StateM σ Reply
  close : StateM σ Reply

namespace Backend

variable {σ : Type}

def supports (b : Backend σ) (c : Category) : Bool := b.categories.contains c

/-- The answer of a call that never waits. -/
def answer (r : Except Error Unit) : Reply := .done r false

end Backend

end BenchReport
