import BenchReport.Proofs.Tally.History
set_option autoImplicit false

namespace BenchReport

namespace Tally

def messages (h : List Event) : List String := h.filterMap fun e => e.header.error

theorem count_messages (h : List Event) (m : String) :
    (messages h).count m = h.countP fun e => e.header.error = some m := by
  rw [messages, List.count, List.countP_filterMap]
  congr 1
  funext e
  cases e.header.error <;> simp [Bool.beq_eq_decide_eq]

theorem length_messages (h : List Event) :
    (messages h).length = h.countP fun e => e.header.error ≠ none := by
  rw [messages, List.length_filterMap_eq_countP]
  congr 1
  funext e
  cases e.header.error <;> simp

theorem length_messages_le (h : List Event) : (messages h).length ≤ h.length :=
  List.length_filterMap_le ..

theorem counter?_toNat {n : Nat} (fits : n < 2 ^ 64) :
    (counter? n).elim 0 UInt64.toNat = n := by
  unfold counter?
  split
  · rename_i none
    exact none.symm
  · exact UInt64.toNat_ofNat_of_lt fits

theorem counter?_ne_zero {n : Nat} (fits : n < 2 ^ 64) : counter? n ≠ some 0 := by
  intro zero
  have held := counter?_toNat fits
  rw [zero] at held
  have none : n = 0 := held.symm
  rw [none] at zero
  cases zero

end Tally

namespace Table

variable {κ : Type} [Ord κ] [Std.LawfulEqOrd κ] [DecidableEq κ]

/-- Counters of the members of a list, one for each that occurs, add up to its length. -/
theorem sum_counters (t : Table κ UInt64) (l : List κ) (fits : l.length < 2 ^ 64)
    (counts : ∀ k, t.get? k = Tally.counter? (l.count k)) :
    (t.values.map UInt64.toNat).sum = l.length := by
  have members : t.keys.Perm l.dedup := by
    rw [List.perm_ext_iff_of_nodup t.nodup_keys l.nodup_dedup]
    intro k
    have absent := t.get?_eq_none_iff k
    rw [counts k, Tally.counter?] at absent
    rw [List.mem_dedup]
    by_cases none : l.count k = 0
    · simp only [none, ↓reduceIte, true_iff] at absent
      simp only [absent, List.count_eq_zero.1 none]
    · simp only [none, ↓reduceIte, reduceCtorEq, false_iff, not_not] at absent
      simp only [absent, List.count_pos_iff.1 (Nat.pos_of_ne_zero none)]
  have values : t.values.map UInt64.toNat = t.keys.map fun k => l.count k := by
    rw [Table.values, Table.keys, List.map_map, List.map_map]
    refine List.map_congr_left fun e mem => ?_
    have bound := (t.mem_entries_iff e.1 e.2).1 mem
    have held := Tally.counter?_toNat (Nat.lt_of_le_of_lt (List.count_le_length (a := e.1)) fits)
    rw [← counts e.1, bound] at held
    exact held
  rw [values, (members.map _).sum_eq]
  exact List.sum_map_count_dedup_eq_length l

end Table

namespace Tally

/-- The counts of the messages add up to the counter of failures, also where it has wrapped. -/
def AddsUp (t : Tally) : Prop := t.errors.values.sum = t.failed

variable {t u : Tally} {e : Event}

theorem AddsUp.count (balanced : t.AddsUp) : (t.count e).AddsUp := by
  rw [AddsUp] at balanced ⊢
  cases error : e.header.error with
  | none => simpa only [Tally.count, error] using balanced
  | some message =>
      simp only [Tally.count, error, countError]
      rw [Table.sum_alter, balanced]

theorem AddsUp.ingest (balanced : t.AddsUp) (taken : t.ingest e = .ok u) : u.AddsUp := by
  unfold Tally.ingest at taken
  split at taken <;> cases taken
  exact balanced.count

theorem AddsUp.merge (balanced : t.AddsUp) (other : u.AddsUp) : (t.merge u).AddsUp := by
  rcases merge_cases t u with ⟨-, merged⟩ | ⟨-, merged⟩ | merged <;> rw [merged]
  · exact balanced
  · exact other
  · rw [AddsUp] at balanced other ⊢
    rw [← show t.failed + u.failed = (joined t u).failed from rfl, ← balanced, ← other]
    exact Table.sum_foldl_alter u.errors.entries t.errors

end Tally

end BenchReport
