import BenchReport.Action
import BenchReport.Proofs.Outcome
set_option autoImplicit false

namespace BenchReport.Action

/-- The actions stand in their order, those of equal order as they did before. -/
structure Arranges (actions sorted : List Action) : Prop where
  perm : sorted.Perm actions
  ascending : sorted.Pairwise fun a b => a.order ≤ b.order
  stable (n : UInt32) : sorted.filter (·.order == n) = actions.filter (·.order == n)

section

variable {xs ys : List Action}

theorem head_le {x a : Action} (ascending : (x :: xs).Pairwise fun a b => a.order ≤ b.order)
    (mem : a ∈ x :: xs) : x.order ≤ a.order := by
  rcases List.mem_cons.1 mem with rfl | later
  · exact UInt32.le_refl _
  · exact List.rel_of_pairwise_cons ascending later

theorem mem_of_filters (same : ∀ n, xs.filter (·.order == n) = ys.filter (·.order == n))
    {a : Action} (mem : a ∈ xs) : a ∈ ys := by
  have kept : a ∈ xs.filter (·.order == a.order) := List.mem_filter.2 ⟨mem, beq_self_eq_true _⟩
  rw [same] at kept
  exact List.mem_of_mem_filter kept

/-- Actions in order are determined by those of each order, as they stand among each other. -/
theorem eq_of_filters (xs_ascending : xs.Pairwise fun a b => a.order ≤ b.order)
    (ys_ascending : ys.Pairwise fun a b => a.order ≤ b.order)
    (same : ∀ n, xs.filter (·.order == n) = ys.filter (·.order == n)) : xs = ys := by
  induction xs generalizing ys with
  | nil =>
      cases ys with
      | nil => rfl
      | cons y rest =>
          have none := mem_of_filters (fun n => (same n).symm) List.mem_cons_self
          cases none
  | cons x xs ih =>
      cases ys with
      | nil =>
          have none := mem_of_filters same List.mem_cons_self
          cases none
      | cons y ys =>
          have below := head_le xs_ascending
            (mem_of_filters (fun n => (same n).symm) List.mem_cons_self)
          have above := head_le ys_ascending (mem_of_filters same List.mem_cons_self)
          have level : x.order = y.order := UInt32.le_antisymm below above
          have first := same x.order
          rw [List.filter_cons, List.filter_cons, if_pos (beq_self_eq_true _),
            if_pos (beq_iff_eq.2 level.symm), List.cons.injEq] at first
          obtain ⟨rfl, -⟩ := first
          have later : xs = ys := by
            apply ih xs_ascending.of_cons ys_ascending.of_cons
            intro n
            have whole := same n
            rw [List.filter_cons, List.filter_cons] at whole
            split at whole
            · exact (List.cons.inj whole).2
            · exact whole
          rw [later]

/-- There is one way to put actions in order. -/
theorem Arranges.unique {actions : List Action} (left : Arranges actions xs)
    (right : Arranges actions ys) : xs = ys :=
  eq_of_filters left.ascending right.ascending fun n => (left.stable n).trans (right.stable n).symm

end

theorem arranges_mergeSort (actions : List Action) :
    Arranges actions (actions.mergeSort fun a b => a.order ≤ b.order) := by
  have trans (a b c : Action) : decide (a.order ≤ b.order) = true →
      decide (b.order ≤ c.order) = true → decide (a.order ≤ c.order) = true := by
    simp only [decide_eq_true_eq]
    exact UInt32.le_trans
  have total (a b : Action) : (decide (a.order ≤ b.order) || decide (b.order ≤ a.order)) = true := by
    simp only [Bool.or_eq_true, decide_eq_true_eq]
    exact UInt32.le_total _ _
  have perm := List.mergeSort_perm actions fun a b => decide (a.order ≤ b.order)
  have ascending := List.pairwise_mergeSort trans total actions
  refine ⟨perm, ascending.imp of_decide_eq_true, ?_⟩
  intro n
  -- The actions of one order are in order as they stand, so sorting keeps them as a sublist.
  have level : (actions.filter (·.order == n)).Pairwise fun a b => decide (a.order ≤ b.order) := by
    apply List.pairwise_of_forall_mem_list
    intro a a_mem b b_mem
    have a_level : a.order = n := beq_iff_eq.1 (List.mem_filter.1 a_mem).2
    have b_level : b.order = n := beq_iff_eq.1 (List.mem_filter.1 b_mem).2
    rw [a_level, b_level]
    exact decide_eq_true (UInt32.le_refl n)
  have kept := (List.sublist_mergeSort trans total level List.filter_sublist).filter (·.order == n)
  rw [List.filter_filter] at kept
  simp only [Bool.and_self] at kept
  exact (kept.eq_of_length (perm.filter _).length_eq.symm).symm

variable {records : List Json}

theorem ofRecords_error_iff {e : Error} :
    ofRecords records = .error e ↔
      ∃ front x back, records = front ++ x :: back ∧ (∀ r ∈ front, ∃ a, ofRecord r = .ok a) ∧
        ofRecord x = .error e := by
  rw [← Outcome.mapM_error_iff]
  constructor
  · intro failed
    rcases Outcome.bind_error failed with first | ⟨actions, -, last⟩
    · exact first
    · cases last
  · intro failed
    rw [ofRecords, failed]
    rfl

theorem ofRecords_ok_iff {sorted : List Action} :
    ofRecords records = .ok sorted ↔
      ∃ actions, List.Forall₂ (fun r a => ofRecord r = .ok a) records actions ∧
        Arranges actions sorted := by
  constructor
  · intro ok
    obtain ⟨actions, read, ok⟩ := Outcome.bind_ok ok
    cases ok
    exact ⟨actions, Outcome.mapM_ok_iff.1 read, arranges_mergeSort actions⟩
  · rintro ⟨actions, each, arranged⟩
    rw [ofRecords, Outcome.mapM_ok_iff.2 each, arranged.unique (arranges_mergeSort actions)]
    rfl

theorem ofRecords_refused_iff :
    (∃ e, ofRecords records = .error e) ↔ ∃ r ∈ records, ∃ e, ofRecord r = .error e := by
  constructor
  · rintro ⟨e, failed⟩
    obtain ⟨front, x, back, rfl, -, refused⟩ := ofRecords_error_iff.1 failed
    exact ⟨x, List.mem_append_right front List.mem_cons_self, e, refused⟩
  · rintro ⟨r, mem, e, refused⟩
    cases read : ofRecords records with
    | error e' => exact ⟨e', rfl⟩
    | ok sorted =>
        obtain ⟨actions, each, -⟩ := ofRecords_ok_iff.1 read
        obtain ⟨a, -, accepted⟩ := Outcome.exists_of_mem each.flip mem
        rw [refused] at accepted
        cases accepted

/-- Records are refused together exactly if one of them is refused, and as the first of these is.
Otherwise they come to the actions of the records one by one, put in their order, where actions of
equal order stand as they were stored. -/
theorem ofRecords_all_or_none (records : List Json) :
    ((∃ e, ofRecords records = .error e) ↔ ∃ r ∈ records, ∃ e, ofRecord r = .error e) ∧
    (∀ e, ofRecords records = .error e ↔
      ∃ front x back, records = front ++ x :: back ∧ (∀ r ∈ front, ∃ a, ofRecord r = .ok a) ∧
        ofRecord x = .error e) ∧
    ∀ sorted, ofRecords records = .ok sorted ↔
      ∃ actions, List.Forall₂ (fun r a => ofRecord r = .ok a) records actions ∧
        Arranges actions sorted :=
  ⟨ofRecords_refused_iff, fun _ => ofRecords_error_iff, fun _ => ofRecords_ok_iff⟩

end BenchReport.Action
