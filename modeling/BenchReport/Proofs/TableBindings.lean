import BenchReport.Table
import Mathlib
set_option autoImplicit false

namespace BenchReport.Table

variable {κ α β : Type} [Ord κ]

/-- Keys of a list of bindings stand in strictly ascending order. -/
def Ascending (l : List (κ × α)) : Prop := l.Pairwise fun a b => compare a.1 b.1 = .lt

section Lists

variable [Std.LawfulEqOrd κ] {k k' : κ} {x : α} {f : Option α → α} {l : List (κ × α)}

theorem lookup_cons_self : lookup k ((k, x) :: l) = some x := if_pos Std.compare_self

theorem lookup_cons_of_ne (other : k ≠ k') : lookup k ((k', x) :: l) = lookup k l := by
  rw [lookup, if_neg]
  rwa [Std.compare_eq_iff_eq]

theorem lookup_eq_none_iff : lookup k l = none ↔ k ∉ l.map (·.1) := by
  induction l with
  | nil => simp [lookup]
  | cons e rest ih =>
      obtain ⟨k', x'⟩ := e
      by_cases same : k = k'
      · subst same
        simp [lookup_cons_self]
      · rw [lookup_cons_of_ne same, ih]
        simp [same]

theorem mem_of_lookup (found : lookup k l = some x) : (k, x) ∈ l := by
  induction l with
  | nil => cases found
  | cons e rest ih =>
      obtain ⟨k', x'⟩ := e
      by_cases same : k = k'
      · subst same
        rw [lookup_cons_self] at found
        cases found
        exact List.mem_cons_self
      · rw [lookup_cons_of_ne same] at found
        exact List.mem_cons_of_mem _ (ih found)

theorem nodup_of_ascending (ascending : Ascending l) : (l.map (·.1)).Nodup := by
  refine List.pairwise_map.2 (ascending.imp ?_)
  intro a b before same
  rw [same, Std.compare_self] at before
  cases before

theorem lookup_of_mem (distinct : (l.map (·.1)).Nodup) (bound : (k, x) ∈ l) :
    lookup k l = some x := by
  induction l with
  | nil => cases bound
  | cons e rest ih =>
      obtain ⟨k', x'⟩ := e
      obtain ⟨fresh, distinct_rest⟩ := List.nodup_cons.1 distinct
      rcases List.mem_cons.1 bound with same | later
      · cases same
        exact lookup_cons_self
      · have other : k ≠ k' := by
          rintro rfl
          exact fresh (List.mem_map.2 ⟨_, later, rfl⟩)
        rw [lookup_cons_of_ne other]
        exact ih distinct_rest later

theorem lookup_alterEntries_self [Std.TransOrd κ] (ascending : Ascending l) :
    lookup k (alterEntries k f l) = some (f (lookup k l)) := by
  induction l with
  | nil => exact lookup_cons_self
  | cons e rest ih =>
      obtain ⟨k', x'⟩ := e
      obtain ⟨smaller, ascending_rest⟩ := List.pairwise_cons.1 ascending
      simp only [alterEntries]
      split
      · rename_i before
        have fresh : lookup k ((k', x') :: rest) = none := by
          rw [lookup_eq_none_iff, List.map_cons, List.mem_cons, List.mem_map]
          rintro (rfl | ⟨e, later, rfl⟩)
          · rw [Std.compare_self] at before
            cases before
          · have after := Std.TransCmp.lt_trans before (smaller e later)
            rw [Std.compare_self] at after
            cases after
        rw [lookup_cons_self, fresh]
      · rename_i same
        rw [Std.compare_eq_iff_eq] at same
        subst same
        rw [lookup_cons_self, lookup_cons_self]
      · rename_i behind
        have other : k ≠ k' := by
          rintro rfl
          rw [Std.compare_self] at behind
          cases behind
        rw [lookup_cons_of_ne other, lookup_cons_of_ne other, ih ascending_rest]

theorem lookup_alterEntries_of_ne (other : k' ≠ k) :
    lookup k' (alterEntries k f l) = lookup k' l := by
  induction l with
  | nil => exact lookup_cons_of_ne other
  | cons e rest ih =>
      obtain ⟨k'', x''⟩ := e
      simp only [alterEntries]
      split
      · exact lookup_cons_of_ne other
      · rename_i same
        rw [Std.compare_eq_iff_eq] at same
        subst same
        rw [lookup_cons_of_ne other, lookup_cons_of_ne other]
      · by_cases same : k' = k''
        · subst same
          rw [lookup_cons_self, lookup_cons_self]
        · rw [lookup_cons_of_ne same, lookup_cons_of_ne same, ih]

end Lists

section Bindings

variable [Std.LawfulEqOrd κ]

theorem nodup_keys (t : Table κ α) : t.keys.Nodup := nodup_of_ascending t.ascending

theorem get?_eq_none_iff (t : Table κ α) (k : κ) : t.get? k = none ↔ k ∉ t.keys :=
  lookup_eq_none_iff

theorem isEmpty_iff (t : Table κ α) : t.isEmpty = true ↔ ∀ k, t.get? k = none := by
  rw [isEmpty, List.isEmpty_iff]
  constructor
  · intro none k
    rw [get?_eq_none_iff, keys, none]
    exact List.not_mem_nil
  · intro missing
    refine List.eq_nil_iff_forall_not_mem.2 fun e mem => ?_
    exact (get?_eq_none_iff t e.1).1 (missing e.1) (List.mem_map_of_mem mem)

theorem mem_entries_iff (t : Table κ α) (k : κ) (x : α) :
    (k, x) ∈ t.entries ↔ t.get? k = some x :=
  ⟨lookup_of_mem t.nodup_keys, mem_of_lookup⟩

theorem get?_map (t : Table κ α) (f : α → β) (k : κ) : (t.map f).get? k = (t.get? k).map f := by
  obtain ⟨entries, ascending⟩ := t
  change lookup k (entries.map fun e => (e.1, f e.2)) = (lookup k entries).map f
  clear ascending
  induction entries with
  | nil => rfl
  | cons e rest ih =>
      obtain ⟨k', x'⟩ := e
      by_cases same : k = k'
      · subst same
        rw [List.map_cons, lookup_cons_self, lookup_cons_self, Option.map_some]
      · rw [List.map_cons, lookup_cons_of_ne same, lookup_cons_of_ne same, ih]

variable [Std.TransOrd κ]

theorem get?_alter_self (t : Table κ α) (k : κ) (f : Option α → α) :
    (t.alter k f).get? k = some (f (t.get? k)) :=
  lookup_alterEntries_self t.ascending

theorem get?_alter_of_ne (t : Table κ α) {k k' : κ} (f : Option α → α) (other : k' ≠ k) :
    (t.alter k f).get? k' = t.get? k' :=
  lookup_alterEntries_of_ne other

/-- Tables that bind every key to the same are equal. -/
theorem ext_get? {s t : Table κ α} (same : ∀ k, s.get? k = t.get? k) : s = t := by
  apply ext_entries
  have distinct : ∀ u : Table κ α, u.entries.Nodup := fun u =>
    List.Pairwise.of_map (·.1) (fun _ _ differ same => differ (congrArg (·.1) same)) u.nodup_keys
  have perm : s.entries.Perm t.entries := by
    rw [List.perm_ext_iff_of_nodup (distinct s) (distinct t)]
    rintro ⟨k, x⟩
    rw [mem_entries_iff, mem_entries_iff, same]
  refine perm.eq_of_pairwise ?_ s.ascending t.ascending
  intro a b _ _ before after
  have looped := Std.TransCmp.lt_trans before after
  rw [Std.compare_self] at looped
  cases looped

/-- Rebinding the keys of a list one after another, each once. -/
theorem get?_foldl_alter (f : β → Option α → α) (l : List (κ × β)) (t : Table κ α) (k : κ)
    (distinct : (l.map (·.1)).Nodup) :
    (l.foldl (fun t e => t.alter e.1 (f e.2)) t).get? k =
      (lookup k l).elim (t.get? k) fun x => some (f x (t.get? k)) := by
  induction l generalizing t with
  | nil => rfl
  | cons e rest ih =>
      obtain ⟨k', x'⟩ := e
      obtain ⟨fresh, distinct_rest⟩ := List.nodup_cons.1 distinct
      rw [List.foldl_cons, ih _ distinct_rest]
      by_cases same : k = k'
      · subst same
        rw [lookup_eq_none_iff.2 fresh, lookup_cons_self]
        exact get?_alter_self t k (f x')
      · rw [lookup_cons_of_ne same, get?_alter_of_ne t (f x') same]

/-- Of all bindings of a key in a list the last one stays. -/
theorem get?_ofList [DecidableEq κ] (l : List (κ × α)) (k : κ) :
    (ofList l).get? k = (l.reverse.find? fun e => e.1 = k).map (·.2) := by
  induction l using List.reverseRecOn with
  | nil => rfl
  | append_singleton l e ih =>
      rw [ofList, List.foldl_concat, List.reverse_append, List.reverse_singleton,
        List.singleton_append]
      change ((ofList l).alter e.1 fun _ => e.2).get? k = _
      by_cases same : e.1 = k
      · rw [← same, get?_alter_self, List.find?_cons_of_pos (by simp)]
        rfl
      · rw [get?_alter_of_ne _ _ (Ne.symm same), ih, List.find?_cons_of_neg (by simpa using same)]

/-- A table made of a list of distinct keys binds what the list binds. -/
theorem get?_ofList_of_nodup {l : List (κ × α)} (distinct : (l.map (·.1)).Nodup) (k : κ) :
    (ofList l).get? k = lookup k l := by
  refine (get?_foldl_alter (fun x _ => x) l empty k distinct).trans ?_
  change (lookup k l).elim none some = lookup k l
  cases lookup k l <;> rfl

theorem get?_ofList_iff {l : List (κ × α)} (distinct : (l.map (·.1)).Nodup) (k : κ) (x : α) :
    (ofList l).get? k = some x ↔ (k, x) ∈ l := by
  rw [get?_ofList_of_nodup distinct]
  exact ⟨mem_of_lookup, lookup_of_mem distinct⟩

/-- A table is made again from its own bindings. -/
theorem ofList_entries (t : Table κ α) : ofList t.entries = t :=
  ext_get? fun k => get?_ofList_of_nodup t.nodup_keys k

/-- What stands in a table after a binding was in it before or is the binding. -/
theorem mem_insert {t : Table κ α} {k : κ} {x : α} {e : κ × α}
    (mem : e ∈ (t.insert k x).entries) : e = (k, x) ∨ e ∈ t.entries := by
  obtain ⟨k', x'⟩ := e
  rw [mem_entries_iff, insert] at mem
  by_cases same : k' = k
  · rw [same, get?_alter_self, Option.some.injEq] at mem
    rw [same, mem]
    exact .inl rfl
  · rw [get?_alter_of_ne t _ same] at mem
    exact .inr ((mem_entries_iff t k' x').2 mem)

/-- A table made of a list binds only what the list binds. -/
theorem mem_of_mem_ofList {l : List (κ × α)} {e : κ × α} (mem : e ∈ (ofList l).entries) :
    e ∈ l := by
  have kept : ∀ t : Table κ α, e ∈ (l.foldl (fun t e => t.insert e.1 e.2) t).entries →
      e ∈ l ∨ e ∈ t.entries := by
    clear mem
    induction l with
    | nil => exact fun _ before => .inr before
    | cons e' rest ih =>
        intro t mem
        rcases ih (t.insert e'.1 e'.2) mem with later | inserted
        · exact .inl (List.mem_cons_of_mem e' later)
        · rcases mem_insert inserted with bound | before
          · exact .inl (bound ▸ List.mem_cons_self)
          · exact .inr before
  exact (kept empty mem).resolve_right List.not_mem_nil

theorem get?_modify (t : Table κ α) (k k' : κ) (f : α → α) [DecidableEq κ] :
    (t.modify k f).get? k' = if k' = k then (t.get? k).map f else t.get? k' := by
  rw [modify]
  by_cases same : k' = k
  · rw [if_pos same, same]
    cases bound : t.get? k with
    | none => exact bound
    | some x => exact get?_alter_self t k _
  · rw [if_neg same]
    cases t.get? k with
    | none => rfl
    | some x => exact get?_alter_of_ne t _ same

/-- Tables that bind each key to related values have related entries in the same order. -/
theorem forall₂_entries {R : α → β → Prop} {s : Table κ α} {t : Table κ β}
    (related : ∀ k, Option.Rel R (s.get? k) (t.get? k)) :
    List.Forall₂ (fun e e' => e.1 = e'.1 ∧ R e.2 e'.2) s.entries t.entries := by
  have same : s.map (fun _ => ()) = t.map (fun _ => ()) := by
    refine ext_get? fun k => ?_
    have bound := related k
    rw [get?_map, get?_map]
    generalize s.get? k = x, t.get? k = y at bound ⊢
    cases bound <;> rfl
  have keys : List.Forall₂ (· = ·) (s.entries.map (·.1)) (t.entries.map (·.1)) := by
    rw [List.forall₂_eq_eq_eq]
    have listed := congrArg Table.keys same
    rw [Table.keys, Table.keys, Table.map, Table.map, List.map_map, List.map_map] at listed
    exact listed
  have by_key := List.forall₂_map_left_iff.1 (List.forall₂_map_right_iff.1 keys)
  refine List.forall₂_iff_zip.2 ⟨by_key.length_eq, fun {e e'} mem => ?_⟩
  have same_key : e.1 = e'.1 := List.forall₂_zip by_key mem
  have bound := (mem_entries_iff s e.1 e.2).1 (List.of_mem_zip mem).1
  have bound' := (mem_entries_iff t e'.1 e'.2).1 (List.of_mem_zip mem).2
  have values := related e.1
  rw [bound, same_key, bound'] at values
  cases values with
  | some values => exact ⟨same_key, values⟩

end Bindings

section Counters

variable [Std.TransOrd κ]

/-- Adding to one counter of a table adds to the sum of all. -/
theorem sum_alter (t : Table κ UInt64) (k : κ) (x : UInt64) :
    (t.alter k fun n => n.getD 0 + x).values.sum = t.values.sum + x := by
  obtain ⟨l, ascending⟩ := t
  change ((alterEntries k (fun n => n.getD 0 + x) l).map (·.2)).sum = (l.map (·.2)).sum + x
  clear ascending
  induction l with
  | nil => simp [alterEntries]
  | cons e rest ih =>
      obtain ⟨k', y⟩ := e
      simp only [alterEntries]
      split
      · simp only [Option.getD_none, List.map_cons, List.sum_cons, UInt64.zero_add]
        ac_rfl
      · simp only [Option.getD_some, List.map_cons, List.sum_cons]
        ac_rfl
      · simp only [List.map_cons, List.sum_cons, ih]
        ac_rfl

theorem sum_foldl_alter (l : List (κ × UInt64)) (t : Table κ UInt64) :
    (l.foldl (fun t e => t.alter e.1 fun n => n.getD 0 + e.2) t).values.sum =
      t.values.sum + (l.map (·.2)).sum := by
  induction l generalizing t with
  | nil => simp
  | cons e rest ih =>
      rw [List.foldl_cons, ih, sum_alter, List.map_cons, List.sum_cons]
      ac_rfl

end Counters

end BenchReport.Table
