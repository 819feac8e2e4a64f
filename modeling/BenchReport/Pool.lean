import BenchReport.Error
set_option autoImplicit false

namespace BenchReport

/-- A job: its answer, or nothing if it ends without one. -/
structure Job (α : Type) where
  answer : Option (Except Error α)

/-- How far a call has come. -/
inductive Progress where
  /-- It is about to look whether the pool is closed. -/
  | arrived
  /-- It found the pool open and is about to ask for a slot. -/
  | asking
  /-- It waits for a slot; woken up, it looks again. -/
  | waiting
  /-- It was turned away. -/
  | refused
  /-- It has a slot for its job, which has not begun. -/
  | granted
  | running
  /-- Its job has ended, with an answer or without one, and still has the slot. -/
  | ended
  /-- The slot was given back. -/
  | released
  /-- It was told how its job ended. -/
  | answered
  deriving DecidableEq

/-- Whether a pool takes calls. Closing is announced before slots are shut off. -/
inductive Gate where
  | opened
  | closing
  | shut
  deriving DecidableEq

namespace Pool

/-- A call to run a job. -/
structure Request (α : Type) where
  job : Job α
  progress : Progress

end Pool

/-- A pool with a fixed number of slots. A call waits until a slot is free, then its job runs to its
end. When the pool is closed, calls that still wait are turned away, as are later ones; jobs that
have their slot go on. -/
structure Pool (α : Type) where
  size : Nat
  gate : Gate
  /-- The slots that no job holds. -/
  free : Nat
  /-- All calls, each at the place of its ticket. -/
  requests : List (Pool.Request α)

namespace Pool

variable {α : Type}

/-- The most slots a pool can have: an eighth of what 64 bits count. -/
def slotLimit : Nat := UInt64.size / 8 - 1

/-- A pool of at least one slot. -/
def ofSize (size : Nat) : Pool α where
  size := max size 1
  gate := .opened
  free := max size 1
  requests := []

def closed (p : Pool α) : Bool := p.gate ≠ .opened

/-- The ticket of the next call. -/
def next (p : Pool α) : Nat := p.requests.length

/-- What a caller is told when its job has ended. -/
def result (j : Job α) : Except Error α := j.answer.getD (.error .jobLost)

/-- What a call was answered. -/
def Request.answer? (r : Request α) : Option (Except Error α) :=
  match r.progress with
  | .refused => some (.error .poolClosed)
  | .answered => some (result r.job)
  | _ => none

/-- What the call with a ticket was answered. -/
def answer? (p : Pool α) (ticket : Nat) : Option (Except Error α) :=
  p.requests[ticket]?.bind Request.answer?

/-- A call to run a job. -/
def call (p : Pool α) (j : Job α) : Pool α :=
  { p with requests := p.requests ++ [⟨j, .arrived⟩] }

/-- Where the next step of a call leads, and the free slots then. -/
def turn (p : Pool α) : Progress → Progress × Nat
  | .arrived | .waiting => (if p.closed then .refused else .asking, p.free)
  | .asking =>
    if p.gate = .shut then (.refused, p.free)
    else if p.free = 0 then (.waiting, p.free)
    else (.granted, p.free - 1)
  | .granted => (.running, p.free)
  | .running => (.ended, p.free)
  -- A job that ended without an answer gives its slot back like any other.
  | .ended => (.released, p.free + 1)
  | .released => (.answered, p.free)
  | .refused => (.refused, p.free)
  | .answered => (.answered, p.free)

/-- The call with a ticket takes its next step. -/
def advance (p : Pool α) (ticket : Nat) : Pool α :=
  match p.requests[ticket]? with
  | none => p
  | some r =>
    let (progress, free) := p.turn r.progress
    { p with free, requests := p.requests.set ticket { r with progress } }

/-- Calls that look from now on, or look again, find the pool closed. -/
def announce (p : Pool α) : Pool α :=
  { p with gate := match p.gate with
    | .opened => .closing
    | gate => gate }

/-- A pool that was announced to be closed gives no more slots. -/
def shut (p : Pool α) : Pool α :=
  { p with gate := match p.gate with
    | .opened => .opened
    | _ => .shut }

/-- What can happen to a pool. -/
inductive Move (α : Type) where
  | call (j : Job α)
  | advance (ticket : Nat)
  | announce
  | shut

def step (p : Pool α) : Move α → Pool α
  | .call j => p.call j
  | .advance ticket => p.advance ticket
  | .announce => p.announce
  | .shut => p.shut

/-- The pool after one thing happened after another. -/
def run (p : Pool α) (moves : List (Move α)) : Pool α := moves.foldl step p

/-- A call looks, asks, and begins its job if it was given a slot. -/
def start (p : Pool α) (ticket : Nat) : Pool α := p.run (List.replicate 3 (.advance ticket))

/-- A job ends, gives its slot back, and its caller is told. -/
def finish (p : Pool α) (ticket : Nat) : Pool α := p.run (List.replicate 3 (.advance ticket))

/-- The tickets of the calls without a slot that were not answered. -/
def pending (p : Pool α) : List Nat :=
  (List.range p.next).filter fun ticket => p.requests[ticket]?.any fun r =>
    r.progress = .arrived || r.progress = .asking || r.progress = .waiting

/-- Closes the pool and wakes the calls that wait. -/
def close (p : Pool α) : Pool α := p.run (.announce :: .shut :: p.pending.map .advance)

/-- Runs a job at once. -/
def runNow (p : Pool α) (j : Job α) : Pool α := ((p.call j).start p.next).finish p.next

end Pool

end BenchReport
