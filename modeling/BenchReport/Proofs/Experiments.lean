import BenchReport.Experiment.Report
import BenchReport.Proofs.Overviews
set_option autoImplicit false

namespace BenchReport

namespace Grouped

variable {α κ : Type} [DecidableEq κ] {key : α → κ} {xs : List α} {groups : List (κ × List α)}
  {k : κ} {x : α} {g : κ × List α}

/-- The groups of a list: one for each key, with all items of the key in their order. -/
structure Groups (key : α → κ) (xs : List α) (groups : List (κ × List α)) : Prop where
  distinct : (groups.map Prod.fst).Nodup
  keys (k : κ) : k ∈ groups.map Prod.fst ↔ k ∈ xs.map key
  items : ∀ g ∈ groups, g.2 = xs.filter fun x => key x = g.1

theorem keys_put (k : κ) (x : α) (groups : List (κ × List α)) :
    (put k x groups).map Prod.fst =
      if k ∈ groups.map Prod.fst then groups.map Prod.fst else groups.map Prod.fst ++ [k] := by
  induction groups with
  | nil => rfl
  | cons head rest ih =>
      obtain ⟨k', ys⟩ := head
      by_cases same : k' = k
      · simp only [put, same, ↓reduceIte, List.map_cons, List.mem_cons, true_or]
      · simp only [put, same, Ne.symm same, ↓reduceIte, List.map_cons, List.mem_cons, false_or, ih]
        split <;> rfl

theorem nodup_keys_put (distinct : (groups.map Prod.fst).Nodup) :
    ((put k x groups).map Prod.fst).Nodup := by
  rw [keys_put]
  split
  · exact distinct
  · rename_i fresh
    exact List.nodup_append.2 ⟨distinct, List.nodup_singleton k, fun a mem b last => by
      rw [List.mem_singleton.1 last]
      exact fun same => fresh (same ▸ mem)⟩

theorem mem_keys_put {k' : κ} :
    k' ∈ (put k x groups).map Prod.fst ↔ k' ∈ groups.map Prod.fst ∨ k' = k := by
  rw [keys_put]
  split
  · rename_i known
    exact ⟨.inl, fun either => either.elim id fun same => same ▸ known⟩
  · rw [List.mem_append, List.mem_singleton]

/-- A group of another key is as it was. That of the key has the item at its end. -/
theorem mem_put (distinct : (groups.map Prod.fst).Nodup) (mem : g ∈ put k x groups) :
    g.1 ≠ k ∧ g ∈ groups ∨
      g.1 = k ∧ ((∃ ys, (k, ys) ∈ groups ∧ g.2 = ys ++ [x]) ∨
        k ∉ groups.map Prod.fst ∧ g.2 = [x]) := by
  induction groups with
  | nil =>
      rw [put, List.mem_singleton] at mem
      subst mem
      exact .inr ⟨rfl, .inr ⟨List.not_mem_nil, rfl⟩⟩
  | cons head rest ih =>
      obtain ⟨k', ys⟩ := head
      obtain ⟨fresh, distinct_rest⟩ := List.nodup_cons.1 distinct
      rw [put] at mem
      split at mem
      · rename_i same
        subst same
        rcases List.mem_cons.1 mem with rfl | mem
        · exact .inr ⟨rfl, .inl ⟨ys, List.mem_cons_self, rfl⟩⟩
        · refine .inl ⟨fun same => fresh ?_, List.mem_cons_of_mem _ mem⟩
          exact List.mem_map.2 ⟨g, mem, same⟩
      · rename_i differs
        rcases List.mem_cons.1 mem with rfl | mem
        · exact .inl ⟨differs, List.mem_cons_self⟩
        · rcases ih distinct_rest mem with ⟨other, old⟩ | ⟨own, ⟨zs, old, items⟩ | ⟨new, items⟩⟩
          · exact .inl ⟨other, List.mem_cons_of_mem _ old⟩
          · exact .inr ⟨own, .inl ⟨zs, List.mem_cons_of_mem _ old, items⟩⟩
          · refine .inr ⟨own, .inr ⟨fun known => ?_, items⟩⟩
            exact (List.mem_cons.1 known).elim (fun same => differs same.symm) new

theorem Groups.put (grouped : Groups key xs groups) :
    Groups key (xs ++ [x]) (put (key x) x groups) where
  distinct := nodup_keys_put grouped.distinct
  keys k := by
    rw [mem_keys_put, grouped.keys, List.map_append, List.mem_append, List.map_singleton,
      List.mem_singleton]
  items g mem := by
    rw [List.filter_append]
    rcases mem_put grouped.distinct mem with ⟨other, old⟩ | ⟨own, ⟨ys, old, items⟩ | ⟨new, items⟩⟩
    · rw [grouped.items g old, List.filter_cons_of_neg (by simpa using Ne.symm other),
        List.filter_nil, List.append_nil]
    · have before := grouped.items _ old
      rw [own, items, ← before, List.filter_cons_of_pos (by simp), List.filter_nil]
    · have none : xs.filter (fun y => key y = key x) = [] := by
        refine List.filter_eq_nil_iff.2 fun y mem same => new ((grouped.keys _).2 ?_)
        exact List.mem_map.2 ⟨y, mem, of_decide_eq_true same⟩
      rw [own, items, none, List.filter_cons_of_pos (by simp), List.filter_nil, List.nil_append]

theorem ofList_concat (key : α → κ) (xs : List α) (x : α) :
    ofList key (xs ++ [x]) = put (key x) x (ofList key xs) := List.foldl_concat ..

theorem ofList_groups (key : α → κ) (xs : List α) : Groups key xs (ofList key xs) := by
  induction xs using List.reverseRecOn with
  | nil => exact ⟨List.nodup_nil, fun k => Iff.rfl, fun g mem => nomatch mem⟩
  | append_singleton xs x ih =>
      rw [ofList_concat]
      exact ih.put

theorem Groups.head (grouped : Groups key xs groups) (mem : g ∈ groups) :
    ∃ first, g.2.head? = some first ∧ key first = g.1 := by
  have items := grouped.items g mem
  obtain ⟨y, mem_y, own⟩ := List.mem_map.1 ((grouped.keys g.1).1 (List.mem_map.2 ⟨g, mem, rfl⟩))
  have filled : y ∈ g.2 := by
    rw [items]
    exact List.mem_filter.2 ⟨mem_y, decide_eq_true own⟩
  cases first : g.2.head? with
  | none =>
      rw [List.head?_eq_none_iff.1 first] at filled
      cases filled
  | some y' =>
      have mem' : y' ∈ g.2 := List.mem_of_mem_head? first
      rw [items] at mem'
      exact ⟨y', rfl, of_decide_eq_true (List.mem_filter.1 mem').2⟩

/-- The keys of the groups stand in the order in which they first appear. -/
theorem keys_ofList (key : α → κ) (xs : List α) :
    (ofList key xs).map Prod.fst = (xs.map key).eraseDups := by
  induction xs using List.reverseRecOn with
  | nil => rfl
  | append_singleton xs x ih =>
      rw [ofList_concat, keys_put, ih, List.map_append, List.eraseDups_append]
      by_cases known : key x ∈ xs.map key
      · have old : (List.map key [x]).removeAll (xs.map key) = [] :=
          List.filter_cons_of_neg (by simpa using known)
        rw [old, if_pos (List.mem_eraseDups.2 known), List.eraseDups_nil, List.append_nil]
      · have new : (List.map key [x]).removeAll (xs.map key) = [key x] :=
          List.filter_cons_of_pos (by simpa using known)
        rw [new, if_neg (mt List.mem_eraseDups.1 known)]
        rfl

theorem flatMap_put_perm (k : κ) (x : α) (groups : List (κ × List α)) :
    ((put k x groups).flatMap Prod.snd).Perm (groups.flatMap Prod.snd ++ [x]) := by
  induction groups with
  | nil => exact List.Perm.refl _
  | cons head rest ih =>
      obtain ⟨k', ys⟩ := head
      rw [put]
      split
      · rw [List.flatMap_cons, List.flatMap_cons, List.append_assoc, List.append_assoc]
        exact List.perm_append_comm.append_left ys
      · rw [List.flatMap_cons, List.flatMap_cons, List.append_assoc]
        exact ih.append_left ys

/-- The groups put one behind another hold every item of the list once. -/
theorem flatMap_ofList_perm (key : α → κ) (xs : List α) :
    ((ofList key xs).flatMap Prod.snd).Perm xs := by
  induction xs using List.reverseRecOn with
  | nil => exact List.Perm.refl _
  | append_singleton xs x ih =>
      rw [ofList_concat]
      exact (flatMap_put_perm _ _ _).trans (ih.append_right [x])

/-- Of groups with distinct keys those of one key are one or none. -/
theorem flatMap_of_key (distinct : (groups.map Prod.fst).Nodup) (k : κ) (items : List α) :
    groups.flatMap (fun g => if g.1 = k then items else []) =
      if k ∈ groups.map Prod.fst then items else [] := by
  induction groups with
  | nil => rfl
  | cons g rest ih =>
      obtain ⟨fresh, distinct_rest⟩ := List.nodup_cons.1 distinct
      rw [List.flatMap_cons, ih distinct_rest]
      by_cases same : g.1 = k
      · subst same
        simp [fresh]
      · by_cases later : k ∈ rest.map Prod.fst
        · simp only [same, later, ↓reduceIte, List.nil_append, List.map_cons, List.mem_cons, or_true]
        · simp only [same, Ne.symm same, later, ↓reduceIte, List.nil_append, List.map_cons,
            List.mem_cons, or_self]

/-- Items of one key keep their order when the groups are put one behind another. -/
theorem Groups.filter_flatMap (grouped : Groups key xs groups) (k : κ) :
    (groups.flatMap Prod.snd).filter (fun x => key x = k) = xs.filter fun x => key x = k := by
  have own : ∀ g ∈ groups, g.2.filter (fun x => key x = k) =
      if g.1 = k then xs.filter (fun x => key x = k) else [] := by
    intro g mem
    rw [grouped.items g mem, List.filter_filter]
    by_cases same : g.1 = k
    · simp [same]
    · rw [if_neg same, List.filter_eq_nil_iff]
      intro x _ both
      simp only [Bool.and_eq_true, decide_eq_true_eq] at both
      exact same (both.2.symm.trans both.1)
  rw [List.filter_flatMap, List.flatMap_congr own, flatMap_of_key grouped.distinct]
  split
  · rfl
  · rename_i absent
    rw [grouped.keys] at absent
    refine (List.filter_eq_nil_iff.2 fun x mem same => absent ?_).symm
    exact List.mem_map.2 ⟨x, mem, of_decide_eq_true same⟩

end Grouped

def StreamCount.ofTurnout {α : Type} : StreamCount → Turnout α → UInt64
  | completed => Turnout.completed
  | succeeded => Turnout.succeeded
  | failed => Turnout.failed

namespace Turnout

section

variable {α : Type}

def sumNat (get : Turnout α → UInt64) (turnouts : List (Turnout α)) : Nat :=
  (turnouts.map fun t => (get t).toNat).sum

/-- The counters of all variants together fit 64 bits. -/
def Fits (turnouts : List (Turnout α)) : Prop :=
  ∀ c : StreamCount, sumNat c.ofTurnout turnouts < 2 ^ 64

variable [Scalar α] {turnouts : List (Turnout α)} {whole : Turnout α}

theorem total_ok_iff : total turnouts = .ok whole ↔
    (∀ c : StreamCount, (c.ofTurnout whole).toNat = sumNat c.ofTurnout turnouts) ∧
      whole.rate = Scalar.sum (turnouts.map rate) := by
  have counted (get : Turnout α → UInt64) (n : UInt64) :
      Counter.sum (turnouts.map get) = .ok n ↔ n.toNat = sumNat get turnouts := by
    rw [Counter.sum_ok_iff, Counter.total_map]
    rfl
  constructor
  · intro made
    obtain ⟨completed, completed_eq, made⟩ := Outcome.bind_ok made
    obtain ⟨succeeded, succeeded_eq, made⟩ := Outcome.bind_ok made
    obtain ⟨failed, failed_eq, made⟩ := Outcome.bind_ok made
    cases made
    refine ⟨fun c => ?_, rfl⟩
    cases c with
    | completed => exact (counted _ _).1 completed_eq
    | succeeded => exact (counted _ _).1 succeeded_eq
    | failed => exact (counted _ _).1 failed_eq
  · rintro ⟨counters, rate⟩
    have completed := (counted completed _).2 (counters .completed)
    have succeeded := (counted succeeded _).2 (counters .succeeded)
    have failed := (counted failed _).2 (counters .failed)
    rw [total, completed, succeeded, failed, ← rate]
    rfl

theorem exists_total_iff : (∃ whole, total turnouts = .ok whole) ↔ Fits turnouts := by
  constructor
  · rintro ⟨whole, made⟩ c
    rw [← (total_ok_iff.1 made).1 c]
    exact UInt64.toNat_lt _
  · intro fits
    choose counter counter_eq using fun c => Counter.exists_toNat (fits c)
    refine ⟨⟨counter .completed, counter .succeeded, counter .failed, _⟩,
      total_ok_iff.2 ⟨fun c => ?_, rfl⟩⟩
    cases c with
    | completed => exact counter_eq .completed
    | succeeded => exact counter_eq .succeeded
    | failed => exact counter_eq .failed

end

end Turnout

def StreamCount.ofExperiment {α : Type} : StreamCount → ExperimentRow α → UInt64
  | completed => ExperimentRow.completed
  | succeeded => ExperimentRow.succeeded
  | failed => ExperimentRow.failed

namespace ExperimentReport

section

variable {α : Type}

def turnoutsOf (name : String) (outcomes : List (Experiment × Outcome α)) : List (Turnout α) :=
  (outcomes.filter fun o => o.1.name = name).map fun o => o.2.turnout

/-- An experiment has no more than all experiments have together. -/
theorem sumNat_turnoutsOf_le (get : Turnout α → UInt64) (name : String)
    (outcomes : List (Experiment × Outcome α)) :
    Turnout.sumNat get (turnoutsOf name outcomes) ≤
      Turnout.sumNat get (outcomes.map fun o => o.2.turnout) := by
  have some := (List.filter_sublist (p := fun o => o.1.name = name) (l := outcomes)).map
    fun o => o.2.turnout
  exact (some.map fun t => (get t).toNat).sum_le_sum fun _ _ => Nat.zero_le _

theorem turnoutsOf_group {outcomes : List (Experiment × Outcome α)}
    {groups : List (String × List (Experiment × Outcome α))}
    (grouped : Grouped.Groups (fun o : Experiment × Outcome α => o.1.name) outcomes groups)
    {g : String × List (Experiment × Outcome α)} (listed : g ∈ groups) :
    turnoutsOf g.1 outcomes = (g.2.map (·.2)).map Outcome.turnout := by
  rw [turnoutsOf, ← grouped.items g listed, List.map_map]
  rfl

/-- What is gathered of an experiment: what its first outcome declares, and all outcomes. -/
theorem gathered_groups (outcomes : List (Experiment × Outcome α)) :
    List.Forall₂ (fun g d => (∃ first, g.2.head? = some first ∧ first.1.name = g.1 ∧ d.1 = first.1) ∧
        (∀ o ∈ g.2, o.1.name = g.1) ∧ d.2 = g.2.map (·.2))
      (Grouped.ofList (fun o => o.1.name) outcomes) (gathered outcomes) := by
  have grouped := Grouped.ofList_groups (fun o : Experiment × Outcome α => o.1.name) outcomes
  have each : ∀ g ∈ Grouped.ofList (fun o : Experiment × Outcome α => o.1.name) outcomes,
      (∃ first, g.2.head? = some first ∧ first.1.name = g.1) ∧ ∀ o ∈ g.2, o.1.name = g.1 := by
    intro g mem
    refine ⟨grouped.head mem, fun o own => ?_⟩
    rw [grouped.items g mem] at own
    exact of_decide_eq_true (List.mem_filter.1 own).2
  rw [gathered]
  generalize Grouped.ofList (fun o : Experiment × Outcome α => o.1.name) outcomes = groups at each ⊢
  induction groups with
  | nil => exact .nil
  | cons g rest ih =>
      obtain ⟨⟨⟨first, head, name⟩, own⟩, others⟩ := List.forall_mem_cons.1 each
      rw [List.filterMap_cons_some (by rw [head]; rfl)]
      exact .cons ⟨⟨first, head, name, rfl⟩, own, rfl⟩ (ih others)

variable [Scalar α] {e : Experiment} {r : ExperimentReport α}

theorem ofOutcomes_ok_iff {outcomes : List (Outcome α)} : ofOutcomes e outcomes = .ok r ↔
    ∃ whole, Turnout.total (outcomes.map Outcome.turnout) = .ok whole ∧
      ofWhole e outcomes whole = r := by
  constructor
  · exact Outcome.map_ok
  · rintro ⟨whole, made, rfl⟩
    rw [ofOutcomes, made]
    rfl

theorem exists_ofOutcomes_iff (e : Experiment) (outcomes : List (Outcome α)) :
    (∃ r, ofOutcomes e outcomes = .ok r) ↔ Turnout.Fits (outcomes.map Outcome.turnout) := by
  rw [← Turnout.exists_total_iff]
  constructor
  · rintro ⟨r, made⟩
    obtain ⟨whole, total, -⟩ := ofOutcomes_ok_iff.1 made
    exact ⟨whole, total⟩
  · rintro ⟨whole, total⟩
    exact ⟨_, ofOutcomes_ok_iff.2 ⟨whole, total, rfl⟩⟩

variable {outcomes : List (Experiment × Outcome α)} {reports : List (ExperimentReport α)}

/-- The report is on the outcomes of a group, all of one experiment, as the first declares it. -/
structure On (r : ExperimentReport α) (g : String × List (Experiment × Outcome α)) : Prop where
  named : r.experiment.name = g.1
  own : ∀ o ∈ g.2, o.1.name = g.1
  made : ∃ first, g.2.head? = some first ∧ ofOutcomes first.1 (g.2.map (·.2)) = .ok r

theorem ofAll_on (made : ofAll outcomes = .ok reports) :
    List.Forall₂ (fun g r => On r g) (Grouped.ofList (fun o => o.1.name) outcomes) reports := by
  have each := Outcome.forall₂_comp (gathered_groups outcomes) (Outcome.mapM_ok_iff.1 made)
  refine each.imp ?_
  rintro g r ⟨⟨e, items⟩, ⟨⟨first, head, name, rfl⟩, own, rfl⟩, made⟩
  obtain ⟨whole, -, rfl⟩ := ofOutcomes_ok_iff.1 made
  exact ⟨name, own, first, head, made⟩

/-- A report counts the outcomes of its experiment, and no others. -/
theorem counters_ofAll (made : ofAll outcomes = .ok reports) (mem : r ∈ reports)
    (c : StreamCount) : (c.ofExperiment r.experiment).toNat =
      Turnout.sumNat c.ofTurnout (turnoutsOf r.experiment.name outcomes) := by
  have grouped := Grouped.ofList_groups (fun o : Experiment × Outcome α => o.1.name) outcomes
  obtain ⟨g, listed, on⟩ := Outcome.exists_of_mem (ofAll_on made) mem
  obtain ⟨first, -, made⟩ := on.made
  rw [on.named, turnoutsOf_group grouped listed]
  obtain ⟨whole, total, rfl⟩ := ofOutcomes_ok_iff.1 made
  have counters := (Turnout.total_ok_iff.1 total).1 c
  cases c with
  | completed => exact counters
  | succeeded => exact counters
  | failed => exact counters

/-- There is one report for each experiment that has an outcome. -/
theorem names_ofAll (made : ofAll outcomes = .ok reports) :
    reports.map (fun r => r.experiment.name) =
      (Grouped.ofList (fun o => o.1.name) outcomes).map Prod.fst := by
  rw [eq_comm, ← List.forall₂_eq_eq_eq, List.forall₂_map_left_iff, List.forall₂_map_right_iff]
  exact (ofAll_on made).imp fun g r on => on.named.symm

theorem nodup_names_ofAll (made : ofAll outcomes = .ok reports) :
    (reports.map fun r => r.experiment.name).Nodup := by
  rw [names_ofAll made]
  exact (Grouped.ofList_groups _ _).distinct

theorem mem_names_ofAll (made : ofAll outcomes = .ok reports) (name : String) :
    name ∈ reports.map (fun r => r.experiment.name) ↔ ∃ o ∈ outcomes, o.1.name = name := by
  rw [names_ofAll made, (Grouped.ofList_groups _ _).keys, List.mem_map]

/-- Outcomes are reported on exactly when the counters of each experiment fit. -/
theorem exists_ofAll_iff (outcomes : List (Experiment × Outcome α)) :
    (∃ reports, ofAll outcomes = .ok reports) ↔
      ∀ name, Turnout.Fits (turnoutsOf name outcomes) := by
  have grouped := Grouped.ofList_groups (fun o : Experiment × Outcome α => o.1.name) outcomes
  constructor
  · rintro ⟨reports, made⟩ name
    by_cases known : name ∈ reports.map fun r => r.experiment.name
    · obtain ⟨r, mem, rfl⟩ := List.mem_map.1 known
      intro c
      rw [← counters_ofAll made mem c]
      exact UInt64.toNat_lt _
    · have none : turnoutsOf name outcomes = [] := by
        rw [mem_names_ofAll made] at known
        rw [turnoutsOf, List.map_eq_nil_iff, List.filter_eq_nil_iff]
        intro o mem own
        exact known ⟨o, mem, of_decide_eq_true own⟩
      rw [none]
      exact fun _ => show 0 < 2 ^ 64 by omega
  · intro fits
    apply Outcome.exists_mapM
    intro d mem
    obtain ⟨g, listed, -, -, items⟩ := Outcome.exists_of_mem (gathered_groups outcomes) mem
    rw [exists_ofOutcomes_iff, items, ← turnoutsOf_group grouped listed]
    exact fits g.1

end

end ExperimentReport

end BenchReport
