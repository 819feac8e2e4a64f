import BenchReport.Proofs.TableBindings
import BenchReport.Tally
set_option autoImplicit false

namespace BenchReport

namespace TagSet

theorem get?_insert (s : TagSet) (tag tag' : Tag) :
    Table.get? (s.insert tag) tag' = if tag' = tag then some () else Table.get? s tag' := by
  split
  · rename_i same
    rw [same]
    exact Table.get?_alter_self s tag _
  · rename_i other
    exact Table.get?_alter_of_ne s _ other

/-- A set with further tags has those and its own. -/
theorem get?_insertAll (s : TagSet) (tags : List Tag) (tag : Tag) :
    Table.get? (s.insertAll tags) tag = if tag ∈ tags then some () else Table.get? s tag := by
  induction tags generalizing s with
  | nil => rfl
  | cons head rest ih =>
      change Table.get? ((s.insert head).insertAll rest) tag = _
      rw [ih, get?_insert]
      by_cases later : tag ∈ rest
      · simp only [later, List.mem_cons, or_true, ↓reduceIte]
      · by_cases same : tag = head
        · simp only [same, List.mem_cons, true_or, ↓reduceIte, ite_self]
        · simp only [later, same, List.mem_cons, or_self, ↓reduceIte]

theorem mem_tags_iff (s : TagSet) (tag : Tag) : tag ∈ s.tags ↔ Table.get? s tag = some () := by
  have absent := Table.get?_eq_none_iff s tag
  constructor
  · intro mem
    cases bound : Table.get? s tag with
    | none => exact absurd mem (absent.1 bound)
    | some _ => rfl
  · intro bound
    apply Decidable.byContradiction
    intro missing
    rw [absent.2 missing] at bound
    cases bound

theorem ext_tags {s u : TagSet} (same : ∀ tag, tag ∈ s.tags ↔ tag ∈ u.tags) : s = u := by
  apply Table.ext_get?
  intro tag
  have bound_iff := same tag
  rw [mem_tags_iff, mem_tags_iff] at bound_iff
  cases in_s : Table.get? s tag with
  | some _ => exact (bound_iff.1 in_s).symm
  | none =>
      cases in_u : Table.get? u tag with
      | none => rfl
      | some _ =>
          rw [bound_iff.2 in_u] at in_s
          cases in_s

end TagSet

namespace Tally

/-- A 64-bit counter that is there once something was counted. -/
def counter? (n : Nat) : Option UInt64 := if n = 0 then none else some (UInt64.ofNat n)

theorem counter?_add (m n : Nat) :
    ((counter? n).elim (counter? m) fun x => some ((counter? m).getD 0 + x)) =
      counter? (m + n) := by
  cases n with
  | zero => rfl
  | succ n =>
      cases m with
      | zero =>
          simp only [counter?, Nat.zero_add, Nat.add_eq_zero_iff, Nat.one_ne_zero, and_false,
            ↓reduceIte, Option.getD_none, UInt64.zero_add, Option.elim_some]
      | succ m =>
          simp only [counter?, Nat.add_eq_zero_iff, Nat.one_ne_zero, and_false, ↓reduceIte,
            Option.getD_some, Option.elim_some, UInt64.ofNat_add]

/-- The timings of a phase that are sampled: the positive ones. -/
def sampled (p : Phase) (h : List Event) : List Float :=
  (h.map fun e => e.header.timings.get p).filter fun x => 0.0 < x

theorem sampled_append (p : Phase) (h k : List Event) :
    sampled p (h ++ k) = sampled p h ++ sampled p k := by
  rw [sampled, List.map_append, List.filter_append]
  rfl

def series? (xs : List Float) : Option (List Float) := if xs = [] then none else some xs

theorem series?_append (xs ys : List Float) :
    ((series? ys).elim (series? xs) fun zs => some ((series? xs).getD [] ++ zs)) =
      series? (xs ++ ys) := by
  cases ys with
  | nil => rw [List.append_nil]; rfl
  | cons y ys =>
      cases xs with
      | nil => rfl
      | cons x xs => rfl

theorem getD_series? (xs : List Float) : (series? xs).getD [] = xs := by
  cases xs <;> rfl

theorem get?_pushTiming (timings : Table Phase (List Float)) (p q : Phase) (x : Float) :
    (pushTiming timings p x).get? q =
      if q = p ∧ 0.0 < x then some ((timings.get? q).getD [] ++ [x]) else timings.get? q := by
  unfold pushTiming
  by_cases same : q = p
  · subst same
    split <;> simp [Table.get?_alter_self, *]
  · split <;> simp [Table.get?_alter_of_ne _ _ same, same]

/-- An event adds to the series of each phase that it measured. -/
theorem get?_sample (timings : Table Phase (List Float)) (measured : Timings) (p : Phase) :
    (sample timings measured).get? p =
      if 0.0 < measured.get p then some ((timings.get? p).getD [] ++ [measured.get p])
      else timings.get? p := by
  cases p <;> simp [sample, Phase.all, get?_pushTiming]

def tagsOf (h : List Event) : List Tag := h.flatMap fun e => e.header.tags

/-- The tally holds what comes of counting the events of a list, one after another. -/
structure Counted (t : Tally) (h : List Event) : Prop where
  total : t.total = UInt64.ofNat h.length
  succeeded : t.succeeded = UInt64.ofNat (h.countP fun e => e.header.error = none)
  failed : t.failed = UInt64.ofNat (h.countP fun e => e.header.error ≠ none)
  errors (m : String) : t.errors.get? m = counter? (h.countP fun e => e.header.error = some m)
  timings (p : Phase) : t.timings.get? p = series? (sampled p h)
  events : t.events = h

def Tagged (t : Tally) (h : List Event) : Prop := ∀ tag, tag ∈ t.tags.tags ↔ tag ∈ tagsOf h

theorem counted_empty (name stage : String) : Counted (empty name stage) [] where
  total := rfl
  succeeded := rfl
  failed := rfl
  errors _ := rfl
  timings _ := rfl
  events := rfl

theorem tagged_empty (name stage : String) : Tagged (empty name stage) [] := fun _ => Iff.rfl

section Steps

variable {t u : Tally} {h k : List Event} {e : Event}

theorem Counted.samples (c : Counted t h) (p : Phase) : t.samples p = sampled p h := by
  rw [Tally.samples, c.timings, getD_series?]

theorem Counted.count (c : Counted t h) : Counted (t.count e) (h ++ [e]) where
  total := by
    rw [List.length_append, UInt64.ofNat_add, ← c.total]
    rfl
  succeeded := by
    rw [List.countP_append, UInt64.ofNat_add, ← c.succeeded]
    cases error : e.header.error <;> simp [Tally.count, error]
  failed := by
    rw [List.countP_append, UInt64.ofNat_add, ← c.failed]
    cases error : e.header.error <;> simp [Tally.count, error]
  errors m := by
    rw [List.countP_append, ← counter?_add, ← c.errors]
    cases error : e.header.error with
    | none => simp [Tally.count, error, counter?]
    | some message =>
        by_cases same : m = message
        · subst same
          simp [Tally.count, error, countError, Table.get?_alter_self, counter?]
        · simp [Tally.count, error, countError, Table.get?_alter_of_ne _ _ same, counter?,
            Ne.symm same]
  timings p := by
    rw [sampled_append, ← series?_append, ← c.timings]
    refine (get?_sample t.timings e.header.timings p).trans ?_
    by_cases positive : 0.0 < e.header.timings.get p <;> simp [sampled, series?, positive]
  events := by rw [← c.events]; rfl

theorem Tagged.count (c : Tagged t h) : Tagged (t.count e) (h ++ [e]) := by
  intro tag
  change tag ∈ (t.tags.insertAll e.header.tags).tags ↔ _
  have before := c tag
  rw [TagSet.mem_tags_iff] at before ⊢
  rw [TagSet.get?_insertAll, tagsOf, List.flatMap_append, List.mem_append]
  by_cases mine : tag ∈ e.header.tags
  · simp [mine]
  · simpa [mine, tagsOf] using before

/-- Whether nothing was counted can be told as long as the counter did not wrap. -/
theorem Counted.isEmpty_iff (c : Counted t h) (fits : h.length < 2 ^ 64) :
    t.isEmpty = true ↔ h = [] := by
  have total : (UInt64.ofNat h.length).toNat = h.length := UInt64.toNat_ofNat_of_lt fits
  rw [Tally.isEmpty, beq_iff_eq, c.total, ← List.length_eq_zero_iff, ← UInt64.toNat_inj, total]
  rfl

theorem Counted.freeze (c : Counted t h) : Counted t.freeze h :=
  ⟨c.total, c.succeeded, c.failed, c.errors, c.timings, c.events⟩

theorem Counted.takeQuantiles (c : Counted t h) : Counted t.takeQuantiles h :=
  ⟨c.total, c.succeeded, c.failed, c.errors, c.timings, c.events⟩

theorem Counted.addTags (c : Counted t h) (tags : List Tag) : Counted (t.addTags tags) h :=
  ⟨c.total, c.succeeded, c.failed, c.errors, c.timings, c.events⟩

theorem Counted.rename (c : Counted t h) (name stage : String) :
    Counted { t with name := name, stage := stage } h :=
  ⟨c.total, c.succeeded, c.failed, c.errors, c.timings, c.events⟩

/-- What a merge can come to: an empty side gives way to the other. -/
theorem merge_cases (t u : Tally) :
    (u.isEmpty = true ∧ t.merge u = t) ∨
      (t.isEmpty = true ∧ t.merge u = { u with name := t.name, stage := t.stage }) ∨
      t.merge u = joined t u := by
  cases u_filled : u.isEmpty with
  | true => exact .inl ⟨rfl, by simp only [merge, u_filled, ↓reduceIte]⟩
  | false =>
      cases t_filled : t.isEmpty with
      | true =>
          refine .inr (.inl ⟨rfl, ?_⟩)
          simp only [merge, u_filled, t_filled, Bool.false_eq_true, ↓reduceIte]
      | false =>
          refine .inr (.inr ?_)
          simp only [merge, u_filled, t_filled, Bool.false_eq_true, ↓reduceIte]

theorem merge_name (t u : Tally) : (t.merge u).name = t.name := by
  rcases merge_cases t u with ⟨-, merged⟩ | ⟨-, merged⟩ | merged <;> rw [merged]
  rfl

theorem get?_joined_timings (t u : Tally) (p : Phase) :
    (t.joined u).timings.get? p =
      (u.timings.get? p).elim (t.timings.get? p) fun ys => some (t.samples p ++ ys) :=
  Table.get?_foldl_alter (fun ys xs => xs.getD [] ++ ys) _ _ _ u.timings.nodup_keys

theorem samples_joined (t u : Tally) (p : Phase) :
    (t.joined u).samples p = t.samples p ++ u.samples p := by
  rw [samples, get?_joined_timings, samples, samples]
  cases u.timings.get? p with
  | none => exact (List.append_nil _).symm
  | some ys => rfl

theorem Counted.joined (c : Counted t h) (d : Counted u k) : Counted (joined t u) (h ++ k) where
  total := by
    rw [List.length_append, UInt64.ofNat_add, ← c.total, ← d.total]
    rfl
  succeeded := by
    rw [List.countP_append, UInt64.ofNat_add, ← c.succeeded, ← d.succeeded]
    rfl
  failed := by
    rw [List.countP_append, UInt64.ofNat_add, ← c.failed, ← d.failed]
    rfl
  errors m := by
    rw [List.countP_append, ← counter?_add, ← c.errors, ← d.errors]
    exact Table.get?_foldl_alter (fun x n => n.getD 0 + x) _ _ _ u.errors.nodup_keys
  timings p := by
    rw [sampled_append, ← series?_append, ← c.timings, ← d.timings]
    exact get?_joined_timings t u p
  events := by
    rw [← c.events, ← d.events]
    rfl

theorem Tagged.joined (t_tags : Tagged t h) (u_tags : Tagged u k) :
    Tagged (joined t u) (h ++ k) := by
  intro tag
  have of_t := t_tags tag
  have of_u := u_tags tag
  change tag ∈ (t.tags.insertAll u.tags.tags).tags ↔ _
  rw [TagSet.mem_tags_iff] at of_t ⊢
  rw [TagSet.get?_insertAll, tagsOf, List.flatMap_append, List.mem_append]
  by_cases theirs : tag ∈ u.tags.tags
  · simp only [theirs, ↓reduceIte, true_iff]
    exact .inr (of_u.1 theirs)
  · have not_theirs : tag ∉ tagsOf k := mt of_u.2 theirs
    simp only [theirs, ↓reduceIte]
    rw [of_t]
    exact ⟨.inl, fun either => either.resolve_right not_theirs⟩

/-- A merge is a tally of the events of both. -/
theorem Counted.merge (c : Counted t h) (d : Counted u k) (fits : (h ++ k).length < 2 ^ 64) :
    Counted (t.merge u) (h ++ k) := by
  rw [List.length_append] at fits
  rcases merge_cases t u with ⟨empty, merged⟩ | ⟨empty, merged⟩ | merged <;> rw [merged]
  · rw [(d.isEmpty_iff (by omega)).1 empty, List.append_nil]
    exact c
  · rw [(c.isEmpty_iff (by omega)).1 empty, List.nil_append]
    exact d.rename t.name t.stage
  · exact c.joined d

theorem Tagged.merge (c : Counted t h) (d : Counted u k) (t_tags : Tagged t h)
    (u_tags : Tagged u k) (fits : (h ++ k).length < 2 ^ 64) : Tagged (t.merge u) (h ++ k) := by
  rw [List.length_append] at fits
  rcases merge_cases t u with ⟨empty, merged⟩ | ⟨empty, merged⟩ | merged <;> rw [merged]
  · rw [(d.isEmpty_iff (by omega)).1 empty, List.append_nil]
    exact t_tags
  · rw [(c.isEmpty_iff (by omega)).1 empty, List.nil_append]
    exact u_tags
  · exact t_tags.joined u_tags

end Steps

end Tally

end BenchReport
