import Mathlib
set_option autoImplicit false

namespace BenchReport.Outcome

variable {ε α β : Type}

theorem bind_ok {x : Except ε α} {f : α → Except ε β} {b : β} (ok : (x >>= f) = .ok b) :
    ∃ a, x = .ok a ∧ f a = .ok b := by
  cases x with
  | error e => cases ok
  | ok a => exact ⟨a, rfl, ok⟩

theorem map_ok {x : Except ε α} {f : α → β} {b : β} (ok : (f <$> x) = .ok b) :
    ∃ a, x = .ok a ∧ f a = b := by
  cases x with
  | error e => cases ok
  | ok a =>
      cases ok
      exact ⟨a, rfl, rfl⟩

theorem bind_error {x : Except ε α} {f : α → Except ε β} {e : ε} (failed : (x >>= f) = .error e) :
    x = .error e ∨ ∃ a, x = .ok a ∧ f a = .error e := by
  cases x with
  | error e' =>
      cases failed
      exact .inl rfl
  | ok a => exact .inr ⟨a, rfl, failed⟩

theorem mapError_ok_iff {ε' : Type} {x : Except ε α} {f : ε → ε'} {a : α} :
    x.mapError f = .ok a ↔ x = .ok a := by
  cases x with
  | error e => exact ⟨nofun, nofun⟩
  | ok b =>
      rw [Except.ok.injEq]
      exact ⟨Except.ok.inj, congrArg Except.ok⟩

theorem mapError_error {ε' : Type} {x : Except ε α} {f : ε → ε'} {e : ε'}
    (failed : x.mapError f = .error e) : ∃ e', x = .error e' ∧ f e' = e := by
  cases x with
  | error e' =>
      cases failed
      exact ⟨e', rfl, rfl⟩
  | ok a => cases failed

theorem map_error {x : Except ε α} {f : α → β} {e : ε} (failed : (f <$> x) = .error e) :
    x = .error e := by
  cases x with
  | error e' =>
      cases failed
      rfl
  | ok a => cases failed

/-- A walk that fails does so at an item, after all before it went through. -/
theorem foldlM_error {f : β → α → Except ε β} {xs : List α} {b : β} {e : ε}
    (failed : xs.foldlM f b = .error e) :
    ∃ front x back b', xs = front ++ x :: back ∧ front.foldlM f b = .ok b' ∧ f b' x = .error e := by
  induction xs generalizing b with
  | nil => cases failed
  | cons x rest ih =>
      rw [List.foldlM_cons] at failed
      rcases bind_error failed with first | ⟨b', first, later⟩
      · exact ⟨[], x, rest, b, rfl, rfl, first⟩
      · obtain ⟨front, y, back, b'', rfl, walked, failed⟩ := ih later
        refine ⟨x :: front, y, back, b'', rfl, ?_, failed⟩
        rw [List.foldlM_cons, first]
        exact walked

/-- Items taken one after another fail at the first of them that fails, and as it does. -/
theorem mapM_error_iff {f : α → Except ε β} {xs : List α} {e : ε} :
    xs.mapM f = .error e ↔
      ∃ front x back, xs = front ++ x :: back ∧ (∀ y ∈ front, ∃ b, f y = .ok b) ∧
        f x = .error e := by
  induction xs with
  | nil =>
      constructor
      · intro failed
        cases failed
      · rintro ⟨front, x, back, none, -⟩
        cases front <;> cases none
  | cons x rest ih =>
      rw [List.mapM_cons]
      constructor
      · intro failed
        rcases bind_error failed with first | ⟨y, first, later⟩
        · exact ⟨[], x, rest, rfl, List.forall_mem_nil _, first⟩
        · rcases bind_error later with later | ⟨ys, -, last⟩
          · obtain ⟨front, z, back, rfl, fine, failed⟩ := ih.1 later
            exact ⟨x :: front, z, back, rfl, List.forall_mem_cons.2 ⟨⟨y, first⟩, fine⟩, failed⟩
          · cases last
      · rintro ⟨front, z, back, split, fine, failed⟩
        cases front with
        | nil =>
            obtain ⟨rfl, rfl⟩ := List.cons.inj split
            rw [failed]
            rfl
        | cons y front =>
            obtain ⟨rfl, rfl⟩ := List.cons.inj split
            obtain ⟨⟨b, first⟩, fine⟩ := List.forall_mem_cons.1 fine
            rw [first, ih.2 ⟨front, z, back, rfl, fine, failed⟩]
            rfl

theorem mapM_error {f : α → Except ε β} {xs : List α} {e : ε} (failed : xs.mapM f = .error e) :
    ∃ x ∈ xs, f x = .error e := by
  obtain ⟨front, x, back, rfl, -, refused⟩ := mapM_error_iff.1 failed
  exact ⟨x, List.mem_append_right front List.mem_cons_self, refused⟩

theorem mapM_ok_iff {f : α → Except ε β} {xs : List α} {ys : List β} :
    xs.mapM f = .ok ys ↔ List.Forall₂ (fun x y => f x = .ok y) xs ys := by
  induction xs generalizing ys with
  | nil =>
      constructor
      · intro ok
        cases ok
        exact .nil
      · intro all
        cases all
        rfl
  | cons x rest ih =>
      rw [List.mapM_cons]
      constructor
      · intro ok
        obtain ⟨y, first, ok⟩ := bind_ok ok
        obtain ⟨ys', later, ok⟩ := bind_ok ok
        cases ok
        exact .cons first (ih.1 later)
      · intro all
        obtain ⟨y, ys', first, later, rfl⟩ := List.forall₂_cons_left_iff.1 all
        rw [first, ih.2 later]
        rfl

/-- All items go through when each of them does. -/
theorem exists_mapM {f : α → Except ε β} {xs : List α} (each : ∀ x ∈ xs, ∃ y, f x = .ok y) :
    ∃ ys, xs.mapM f = .ok ys := by
  cases through : xs.mapM f with
  | ok ys => exact ⟨ys, rfl⟩
  | error e =>
      obtain ⟨x, mem, failed⟩ := mapM_error through
      obtain ⟨y, done⟩ := each x mem
      rw [failed] at done
      cases done

/-- Each result comes of an item. -/
theorem exists_of_mem {R : α → β → Prop} {xs : List α} {ys : List β}
    (all : List.Forall₂ R xs ys) {y : β} (mem : y ∈ ys) : ∃ x ∈ xs, R x y := by
  induction all with
  | nil => cases mem
  | @cons x y' xs ys first _ ih =>
      rcases List.mem_cons.1 mem with rfl | later
      · exact ⟨x, List.mem_cons_self, first⟩
      · obtain ⟨x', mem', related⟩ := ih later
        exact ⟨x', List.mem_cons_of_mem _ mem', related⟩

theorem forall₂_comp {γ : Type} {R : α → β → Prop} {S : β → γ → Prop} {xs : List α} {ys : List β}
    {zs : List γ} (first : List.Forall₂ R xs ys) (second : List.Forall₂ S ys zs) :
    List.Forall₂ (fun x z => ∃ y, R x y ∧ S y z) xs zs := by
  induction first generalizing zs with
  | nil =>
      cases second
      exact .nil
  | cons head _ ih =>
      cases second with
      | cons head' tail' => exact .cons ⟨_, head, head'⟩ (ih tail')

/-- Related items come to related results when each of them does. -/
theorem forall₂_related {α' β' : Type} {R : α → α' → Prop} {S : β → β' → Prop}
    {P : α → β → Prop} {Q : α' → β' → Prop} {xs : List α} {xs' : List α'} {ys : List β}
    (related : List.Forall₂ R xs xs')
    (step : ∀ x x' y, R x x' → P x y → ∃ y', Q x' y' ∧ S y y') (all : List.Forall₂ P xs ys) :
    ∃ ys', List.Forall₂ Q xs' ys' ∧ List.Forall₂ S ys ys' := by
  induction related generalizing ys with
  | nil =>
      cases all
      exact ⟨[], .nil, .nil⟩
  | @cons x x' _ _ first _ ih =>
      obtain ⟨y, ys, made, made_later, rfl⟩ := List.forall₂_cons_left_iff.1 all
      obtain ⟨y', made', told⟩ := step x x' y first made
      obtain ⟨ys', made_later', told_later⟩ := ih made_later
      exact ⟨y' :: ys', .cons made' made_later', .cons told told_later⟩

theorem append_ok {f : α → Except ε β} {xs xs' : List α} {ys ys' : List β}
    (front : List.Forall₂ (fun x y => f x = .ok y) xs ys)
    (back : List.Forall₂ (fun x y => f x = .ok y) xs' ys') :
    List.Forall₂ (fun x y => f x = .ok y) (xs ++ xs') (ys ++ ys') := by
  induction front with
  | nil => exact back
  | cons first _ ih => exact .cons first ih

end BenchReport.Outcome
