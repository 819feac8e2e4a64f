import BenchReport.Pool
import Mathlib
set_option autoImplicit false

namespace BenchReport

namespace Progress

def holdsSlot : Progress → Bool
  | .granted | .running | .ended => true
  | _ => false

/-- The call was given a slot, whether its job still has it or not. -/
def gotSlot : Progress → Bool
  | .granted | .running | .ended | .released | .answered => true
  | _ => false

def stepsLeft : Progress → Nat
  | .granted => 4
  | .running => 3
  | .ended => 2
  | .released => 1
  | _ => 0

end Progress

namespace Pool

variable {α : Type} {p : Pool α} {t : Nat} {r : Request α} {g : Progress}

def held (p : Pool α) : Nat := p.requests.countP (·.progress.holdsSlot)

def busy (p : Pool α) : Nat := p.requests.countP (·.progress = .running)

theorem busy_le_held (p : Pool α) : p.busy ≤ p.held := by
  refine List.countP_mono_left fun r _ runs => ?_
  rw [of_decide_eq_true runs]
  rfl

/-- What a call takes of the free slots it holds, and what it gives back it held. -/
theorem turn_conserves (p : Pool α) (g : Progress) :
    (p.turn g).2 + (if (p.turn g).1.holdsSlot then 1 else 0) =
      p.free + (if g.holdsSlot then 1 else 0) := by
  cases g with
  | arrived | waiting => cases closed : p.closed <;> simp [turn, closed, Progress.holdsSlot]
  | asking =>
      by_cases shut : p.gate = .shut
      · simp [turn, shut, Progress.holdsSlot]
      · by_cases none : p.free = 0
        · simp [turn, shut, none, Progress.holdsSlot]
        · simp only [turn, shut, none, if_false, Progress.holdsSlot, if_true, Bool.false_eq_true]
          omega
  | granted | running | ended | released | refused | answered => rfl

theorem advance_conserves (p : Pool α) (t : Nat) :
    (p.advance t).free + (p.advance t).held = p.free + p.held := by
  unfold advance
  split
  · rfl
  · rename_i r found
    obtain ⟨inside, rfl⟩ := List.getElem?_eq_some_iff.1 found
    have conserved := turn_conserves p p.requests[t].progress
    have own : (if p.requests[t].progress.holdsSlot then 1 else 0) ≤ p.held :=
      List.boole_getElem_le_countP (p := fun r : Request α => r.progress.holdsSlot) inside
    simp only [held, List.countP_set inside] at own ⊢
    omega

theorem step_conserves (p : Pool α) (m : Move α) :
    (p.step m).free + (p.step m).held = p.free + p.held := by
  cases m with
  | call j =>
      have added : (p.call j).held = p.held + 0 := List.countP_append
      rw [Nat.add_zero] at added
      exact congrArg (p.free + ·) added
  | advance t => exact advance_conserves p t
  | announce => rfl
  | shut => rfl

theorem run_conserves (p : Pool α) (moves : List (Move α)) :
    (p.run moves).free + (p.run moves).held = p.free + p.held := by
  induction moves generalizing p with
  | nil => rfl
  | cons m rest ih => exact (ih (p.step m)).trans (step_conserves p m)

theorem size_run (p : Pool α) (moves : List (Move α)) : (p.run moves).size = p.size := by
  induction moves generalizing p with
  | nil => rfl
  | cons m rest ih =>
      refine (ih (p.step m)).trans ?_
      cases m with
      | call j => rfl
      | advance t =>
          change (p.advance t).size = p.size
          unfold advance
          split <;> rfl
      | announce => rfl
      | shut => rfl

def Move.isTurnOf (t : Nat) : Move α → Bool
  | .advance u => u = t
  | _ => false

def turnsOf (t : Nat) (moves : List (Move α)) : Nat := moves.countP (Move.isTurnOf t)

theorem turnsOf_own {m : Move α} (own : m.isTurnOf t = true) (rest : List (Move α)) :
    turnsOf t (m :: rest) = turnsOf t rest + 1 := List.countP_cons_of_pos own

theorem turnsOf_other {m : Move α} (other : m.isTurnOf t = false) (rest : List (Move α)) :
    turnsOf t (m :: rest) = turnsOf t rest :=
  List.countP_cons_of_neg (by rw [other]; exact Bool.false_ne_true)

/-- Only its own steps bring a call further. -/
theorem requests_step (found : p.requests[t]? = some r) (m : Move α) :
    (p.step m).requests[t]? = some
      { r with progress := if m.isTurnOf t then (p.turn r.progress).1 else r.progress } := by
  obtain ⟨inside, rfl⟩ := List.getElem?_eq_some_iff.1 found
  cases m with
  | call j => exact (List.getElem?_append_left inside).trans found
  | announce => exact found
  | shut => exact found
  | advance u =>
      change (p.advance u).requests[t]? = _
      unfold advance
      split
      · rename_i none
        have other : u ≠ t := fun same => by
          rw [same, found] at none
          cases none
        rw [found, Move.isTurnOf, decide_eq_false other]
        rfl
      · rename_i s at_u
        by_cases same : u = t
        · subst same
          rw [found, Option.some_inj] at at_u
          subst at_u
          simp [Move.isTurnOf, inside]
        · rw [Move.isTurnOf, decide_eq_false same]
          exact (List.getElem?_set_ne same).trans found

/-- A pool that is closed stays closed, and one that gives no slots goes on to give none. -/
theorem closed_step (closed : p.closed = true) (m : Move α) : (p.step m).closed = true := by
  cases m with
  | call j => exact closed
  | advance u =>
      change (p.advance u).closed = true
      unfold advance
      split <;> exact closed
  | announce =>
      cases gate : p.gate <;> simp [step, announce, Pool.closed, gate]
  | shut =>
      cases gate : p.gate <;> simp_all [step, Pool.shut, Pool.closed]

theorem gate_step (shut : p.gate = .shut) (m : Move α) : (p.step m).gate = .shut := by
  cases m with
  | call j => exact shut
  | advance u =>
      change (p.advance u).gate = .shut
      unfold advance
      split <;> exact shut
  | announce => simp [step, announce, shut]
  | shut => simp [step, Pool.shut, shut]

/-- The pool is closed to a call that has come so far. -/
def ClosedTo (p : Pool α) : Progress → Prop
  | .arrived | .waiting => p.closed = true
  | .asking => p.gate = .shut
  | .refused => True
  | _ => False

theorem ClosedTo.step (late : p.ClosedTo g) (m : Move α) : (p.step m).ClosedTo g := by
  cases g with
  | arrived | waiting => exact closed_step late m
  | asking => exact gate_step late m
  | refused => trivial
  | granted | running | ended | released | answered => exact late.elim

theorem ClosedTo.turn (late : p.ClosedTo g) : (p.turn g).1 = .refused := by
  cases g with
  | arrived | waiting => exact if_pos late
  | asking =>
      have shut : p.gate = .shut := late
      rw [Pool.turn, if_pos shut]
  | refused => rfl
  | granted | running | ended | released | answered => exact late.elim

theorem ClosedTo.not_gotSlot (late : p.ClosedTo g) : g.gotSlot = false := by
  cases g with
  | arrived | asking | waiting | refused => rfl
  | granted | running | ended | released | answered => exact late.elim

theorem closedTo_of_shut (shut : p.gate = .shut) (none : g.gotSlot = false) : p.ClosedTo g := by
  have closed : p.closed = true := by simp [Pool.closed, shut]
  cases g with
  | arrived | waiting => exact closed
  | asking => exact shut
  | refused => trivial
  | granted | running | ended | released | answered => cases none

theorem refused_run (found : p.requests[t]? = some r) (refused : r.progress = .refused)
    (moves : List (Move α)) : (p.run moves).requests[t]? = some r := by
  induction moves generalizing p with
  | nil => exact found
  | cons m rest ih =>
      have kept := requests_step found m
      rw [refused, show (p.turn .refused).1 = .refused from rfl, ite_self, ← refused] at kept
      exact ih kept

/-- The pool stays closed to a call, which is turned away at its next step. -/
theorem ClosedTo.run (late : p.ClosedTo r.progress) (found : p.requests[t]? = some r)
    (moves : List (Move α)) :
    ∃ g, (p.run moves).requests[t]? = some { r with progress := g } ∧
      g.gotSlot = false ∧ (0 < turnsOf t moves → g = .refused) := by
  induction moves generalizing p with
  | nil => exact ⟨_, found, late.not_gotSlot, fun taken => absurd taken (Nat.lt_irrefl 0)⟩
  | cons m rest ih =>
      have next := requests_step found m
      cases own : m.isTurnOf t with
      | true =>
          rw [own, if_pos rfl, late.turn] at next
          exact ⟨_, refused_run next rfl rest, rfl, fun _ => rfl⟩
      | false =>
          rw [own, if_neg Bool.false_ne_true] at next
          rw [turnsOf_other own]
          exact ih (late.step m) next

theorem gotSlot_turn (got : g.gotSlot = true) :
    (p.turn g).1.gotSlot = true ∧ (p.turn g).1.stepsLeft = g.stepsLeft - 1 := by
  cases g with
  | granted | running | ended | released | answered => exact ⟨rfl, rfl⟩
  | arrived | asking | waiting | refused => cases got

theorem answered_of_stepsLeft (got : g.gotSlot = true) (none : g.stepsLeft = 0) :
    g = .answered := by
  cases g with
  | answered => rfl
  | granted | running | ended | released => cases none
  | arrived | asking | waiting | refused => cases got

/-- Nothing but its own steps counts for a call that was given a slot. -/
theorem gotSlot_run (got : r.progress.gotSlot = true) (found : p.requests[t]? = some r)
    (moves : List (Move α)) :
    ∃ g, (p.run moves).requests[t]? = some { r with progress := g } ∧ g.gotSlot = true ∧
      g.stepsLeft = r.progress.stepsLeft - turnsOf t moves := by
  induction moves generalizing p r with
  | nil => exact ⟨_, found, got, rfl⟩
  | cons m rest ih =>
      have next := requests_step found m
      cases own : m.isTurnOf t with
      | true =>
          rw [own, if_pos rfl] at next
          obtain ⟨still, left⟩ := gotSlot_turn (p := p) got
          obtain ⟨g, after, kept, fewer⟩ := ih still next
          refine ⟨g, after, kept, ?_⟩
          change g.stepsLeft = (p.turn r.progress).1.stepsLeft - turnsOf t rest at fewer
          rw [fewer, turnsOf_own own, left]
          omega
      | false =>
          rw [own, if_neg Bool.false_ne_true] at next
          rw [turnsOf_other own]
          exact ih got next

/-- A call is never given a slot, and is told that the pool is closed as soon as it takes a step. -/
def TurnsAway (p : Pool α) (t : Nat) : Prop :=
  ∀ moves, (∃ r, (p.run moves).requests[t]? = some r ∧ r.progress.gotSlot = false) ∧
    (0 < turnsOf t moves → (p.run moves).answer? t = some (.error .poolClosed))

/-- A call that was given a slot is not turned away any more. Its four steps to the end, of which
the second is its job's, can be taken whatever else happens, and it is told how its job ended. -/
def Serves (p : Pool α) (t : Nat) (j : Job α) : Prop :=
  ∀ moves, (∃ r, (p.run moves).requests[t]? = some r ∧ r.job = j ∧ r.progress.gotSlot = true) ∧
    (4 ≤ turnsOf t moves → (p.run moves).answer? t = some (j.answer.getD (.error .jobLost)))

theorem ClosedTo.turnsAway (late : p.ClosedTo r.progress) (found : p.requests[t]? = some r) :
    p.TurnsAway t := by
  intro moves
  obtain ⟨g, after, none, refused⟩ := late.run found moves
  refine ⟨⟨_, after, none⟩, fun taken => ?_⟩
  rw [answer?, after, refused taken]
  rfl

theorem serves_of_gotSlot (got : r.progress.gotSlot = true) (found : p.requests[t]? = some r) :
    p.Serves t r.job := by
  intro moves
  obtain ⟨g, after, kept, left⟩ := gotSlot_run got found moves
  refine ⟨⟨_, after, rfl, kept⟩, fun taken => ?_⟩
  have few : r.progress.stepsLeft ≤ 4 := by cases r.progress <;> decide
  rw [answer?, after, answered_of_stepsLeft kept (by omega)]
  rfl

/-- Whatever the interleaving of calls, of their steps and of closings: no more jobs run than there
are slots, and slots that are free and slots that are held make up all of them. A call that has not
looked yet or waits when closing is announced, one that has no slot when slots are shut off, and one
made later are turned away; one that has its slot is served. -/
theorem run_safe (size : Nat) (moves : List (Move α)) :
    let p := (ofSize size : Pool α).run moves
    p.size = max size 1 ∧ p.busy ≤ p.size ∧ p.free + p.held = p.size ∧
      (∀ t r, p.requests[t]? = some r →
        p.closed = true ∧ (r.progress = .arrived ∨ r.progress = .waiting) ∨
          p.gate = .shut ∧ r.progress.gotSlot = false → p.TurnsAway t) ∧
      (p.closed = true → ∀ j, (p.call j).TurnsAway p.next) ∧
      ∀ t r, p.requests[t]? = some r → r.progress.gotSlot = true → p.Serves t r.job := by
  intro p
  have sized : p.size = max size 1 := size_run (ofSize size) moves
  have conserved : p.free + p.held = max size 1 := run_conserves (ofSize size) moves
  have bounded := busy_le_held p
  refine ⟨sized, by omega, by omega, ?_, ?_, ?_⟩
  · rintro t r found (⟨closed, early⟩ | ⟨shut, none⟩)
    · have late : p.ClosedTo r.progress := by
        rcases early with early | early
        · rw [early]
          exact closed
        · rw [early]
          exact closed
      exact late.turnsAway found
    · exact (closedTo_of_shut shut none).turnsAway found
  · intro closed j
    have arrived : (p.call j).requests[p.next]? = some ⟨j, .arrived⟩ := List.getElem?_concat_length
    exact ClosedTo.turnsAway (r := ⟨j, .arrived⟩) closed arrived
  · intro t r found got
    exact serves_of_gotSlot got found

/-- The only slot is held by a job that will end without an answer, and another call waits for it,
when the pool is closed. -/
def closedWhileRunning : List (Move Unit) :=
  .call ⟨none⟩ :: List.replicate 3 (.advance 0) ++ .call ⟨some (.ok ())⟩ ::
    List.replicate 2 (.advance 1) ++ [.announce]

/-- The job ends after that and gives its slot back, but the call that waited does not get it. -/
theorem run_safe_closed_while_running :
    let p := (ofSize 1 : Pool Unit).run closedWhileRunning
    let q := p.run (.shut :: List.replicate 4 (.advance 0) ++ [.advance 1])
    p.requests[0]? = some ⟨⟨none⟩, .running⟩ ∧ p.requests[1]? = some ⟨⟨some (.ok ())⟩, .waiting⟩ ∧
      p.closed = true ∧ p.free = 0 ∧ (p.call ⟨none⟩).TurnsAway 2 ∧
      q.free = 1 ∧ q.answer? 0 = some (.error .jobLost) ∧
      q.answer? 1 = some (.error .poolClosed) := by
  intro p q
  obtain ⟨-, -, -, turned, later, served⟩ := run_safe 1 closedWhileRunning
  have running : p.requests[0]? = some ⟨⟨none⟩, .running⟩ := rfl
  have waiting : p.requests[1]? = some ⟨⟨some (.ok ())⟩, .waiting⟩ := rfl
  have served_first := served 0 _ running rfl (.shut :: List.replicate 4 (.advance 0) ++ [.advance 1])
  have turned_second := turned 1 _ waiting (.inl ⟨rfl, .inr rfl⟩)
    (.shut :: List.replicate 4 (.advance 0) ++ [.advance 1])
  exact ⟨running, waiting, rfl, rfl, later rfl ⟨none⟩, rfl, served_first.2 (by decide),
    turned_second.2 (by decide)⟩

end Pool

end BenchReport
