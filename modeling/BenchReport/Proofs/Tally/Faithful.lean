import BenchReport.Proofs.Tally.Messages
set_option autoImplicit false

namespace BenchReport

namespace Tally

/-- What the tally says is true of the events of a list. -/
structure Faithful (t : Tally) (h : List Event) : Prop where
  total : t.total.toNat = h.length
  succeeded : t.succeeded.toNat = h.countP Event.succeeded
  failed : t.failed.toNat = h.countP fun e => !e.succeeded
  /-- A message stands with the number of its occurrences. -/
  errors (m : String) : (t.errors.get? m).elim 0 UInt64.toNat = (messages h).count m
  /-- A message that did not occur does not stand there. -/
  noZero (m : String) : t.errors.get? m ≠ some 0
  errorSum : (t.errors.values.map UInt64.toNat).sum = t.failed.toNat
  /-- A phase has an entry when it was sampled: its positive timings in the order of the events. -/
  timings (p : Phase) (xs : List Float) :
    t.timings.get? p = some xs ↔
      xs = (h.map fun e => e.header.timings.get p).filter (fun x => 0.0 < x) ∧ xs ≠ []

/-- The tally counted the events of a list, some of which may have been taken from it since. -/
def Untaken (t : Tally) (h : List Event) : Prop := Counted { t with events := h } h

section Steps

variable {t u : Tally} {h k : List Event} {e : Event}

theorem untaken_empty (name stage : String) : Untaken (empty name stage) [] :=
  counted_empty name stage

theorem Untaken.count (c : Untaken t h) : Untaken (t.count e) (h ++ [e]) :=
  Counted.count c

theorem Untaken.ingest (c : Untaken t h) (ingested : t.ingest e = .ok u) :
    Untaken u (h ++ [e]) := by
  unfold Tally.ingest at ingested
  split at ingested <;> cases ingested
  exact c.count

theorem Untaken.takeMoments (c : Untaken t h) : Untaken t.takeMoments h :=
  ⟨c.total, c.succeeded, c.failed, c.errors, c.timings, rfl⟩

theorem Untaken.takeQuantiles (c : Untaken t h) : Untaken t.takeQuantiles h :=
  Counted.takeQuantiles c

theorem Untaken.takeEvents (c : Untaken t h) : Untaken t.takeEvents.2 h := c

theorem Untaken.merge (c : Untaken t h) (d : Untaken u k) (fits : (h ++ k).length < 2 ^ 64) :
    Untaken (t.merge u) (h ++ k) := by
  have bounded := fits
  rw [List.length_append] at bounded
  rcases merge_cases t u with ⟨empty, merged⟩ | ⟨empty, merged⟩ | merged <;> rw [merged]
  · rw [(Counted.isEmpty_iff d (by omega)).1 empty, List.append_nil]
    exact c
  · rw [(Counted.isEmpty_iff c (by omega)).1 empty, List.nil_append]
    exact Counted.rename d t.name t.stage
  · exact Counted.joined c d

theorem Untaken.timings_eq_some_iff (c : Untaken t h) (p : Phase) (xs : List Float) :
    t.timings.get? p = some xs ↔ xs = sampled p h ∧ xs ≠ [] := by
  have entry : t.timings.get? p = series? (sampled p h) := c.timings p
  rw [entry]
  cases sampled p h with
  | nil => exact iff_of_false nofun fun told => told.2 told.1
  | cons x rest =>
      show some (x :: rest) = some xs ↔ _
      rw [Option.some.injEq]
      exact ⟨fun same => ⟨same.symm, same ▸ List.cons_ne_nil x rest⟩, fun told => told.1.symm⟩

/-- As long as no counter can have wrapped, what was counted is true. -/
theorem Untaken.faithful (c : Untaken t h) (fits : h.length < 2 ^ 64) : Faithful t h := by
  have exact_count (n : Nat) (le : n ≤ h.length) : (UInt64.ofNat n).toNat = n :=
    UInt64.toNat_ofNat_of_lt (Nat.lt_of_le_of_lt le fits)
  have errors (m : String) : t.errors.get? m = counter? ((messages h).count m) := by
    rw [count_messages]
    exact c.errors m
  have few := Nat.lt_of_le_of_lt (length_messages_le h) fits
  have rare (m : String) : (messages h).count m < 2 ^ 64 :=
    Nat.lt_of_le_of_lt List.count_le_length few
  have failed : t.failed.toNat = (messages h).length := by
    rw [length_messages]
    exact (congrArg UInt64.toNat c.failed).trans (exact_count _ List.countP_le_length)
  constructor
  case total => exact (congrArg UInt64.toNat c.total).trans (exact_count _ (Nat.le_refl _))
  case succeeded =>
    refine (congrArg UInt64.toNat c.succeeded).trans
      ((exact_count _ List.countP_le_length).trans (List.countP_congr fun e _ => ?_))
    simp [Event.succeeded]
  case failed =>
    refine failed.trans ((length_messages h).trans (List.countP_congr fun e _ => ?_))
    cases error : e.header.error <;> simp [Event.succeeded, error]
  case errors =>
    intro m
    rw [errors, counter?_toNat (rare m)]
  case noZero =>
    intro m
    rw [errors]
    exact counter?_ne_zero (rare m)
  case errorSum => rw [failed, t.errors.sum_counters (messages h) few errors]
  case timings => exact c.timings_eq_some_iff

end Steps

end Tally

end BenchReport
