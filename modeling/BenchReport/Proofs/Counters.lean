import BenchReport.Proofs.Outcome
import BenchReport.Stage.Bins
set_option autoImplicit false

namespace BenchReport

def OnlyOverflows {α : Type} (x : Except Error α) : Prop := ∀ e, x = .error e → e = .overflow

namespace OnlyOverflows

variable {α β : Type}

theorem ok (a : α) : OnlyOverflows (.ok a) := fun _ => nofun

theorem bind {x : Except Error α} {f : α → Except Error β} (first : OnlyOverflows x)
    (later : ∀ a, x = .ok a → OnlyOverflows (f a)) : OnlyOverflows (x >>= f) := by
  intro e failed
  rcases Outcome.bind_error failed with failed | ⟨a, done, failed⟩
  · exact first e failed
  · exact later a done e failed

theorem foldlM {f : β → α → Except Error β} (step : ∀ b a, OnlyOverflows (f b a)) (xs : List α)
    (b : β) : OnlyOverflows (xs.foldlM f b) := by
  intro e failed
  obtain ⟨-, x, -, b', -, -, failed⟩ := Outcome.foldlM_error failed
  exact step b' x e failed

theorem mapM {f : α → Except Error β} (each : ∀ a, OnlyOverflows (f a)) (xs : List α) :
    OnlyOverflows (xs.mapM f) := by
  intro e failed
  obtain ⟨x, -, failed⟩ := Outcome.mapM_error failed
  exact each x e failed

theorem error_iff {x : Except Error α} {fits : Prop} (only : OnlyOverflows x)
    (ok : (∃ a, x = .ok a) ↔ fits) (e : Error) : x = .error e ↔ e = .overflow ∧ ¬fits := by
  rw [← ok]
  constructor
  · intro failed
    refine ⟨only e failed, ?_⟩
    rintro ⟨a, done⟩
    rw [failed] at done
    cases done
  · rintro ⟨rfl, unfinished⟩
    cases x with
    | ok a => exact absurd ⟨a, rfl⟩ unfinished
    | error e => rw [only e rfl]

theorem ext {x y : Except Error α} (x_only : OnlyOverflows x) (y_only : OnlyOverflows y)
    (same : ∀ a, x = .ok a ↔ y = .ok a) : x = y := by
  cases done : x with
  | ok a => exact ((same a).1 done).symm
  | error e =>
      have unfinished : ¬∃ a, y = .ok a := by
        rintro ⟨a, done'⟩
        rw [(same a).2 done'] at done
        cases done
      rw [x_only e done]
      exact ((y_only.error_iff Iff.rfl .overflow).2 ⟨rfl, unfinished⟩).symm

end OnlyOverflows

namespace Counter

/-- What counters come to together, without a bound. -/
def total (counters : List UInt64) : Nat := (counters.map UInt64.toNat).sum

@[simp] theorem total_nil : total [] = 0 := rfl

@[simp] theorem total_cons (n : UInt64) (rest : List UInt64) :
    total (n :: rest) = n.toNat + total rest := by
  simp only [total, List.map_cons, List.sum_cons]

theorem total_map {α : Type} (get : α → UInt64) (xs : List α) :
    total (xs.map get) = (xs.map fun x => (get x).toNat).sum := by
  rw [total, List.map_map]
  rfl

theorem toNat_le_total {n : UInt64} {counters : List UInt64} (mem : n ∈ counters) :
    n.toNat ≤ total counters :=
  List.le_sum_of_mem (List.mem_map_of_mem mem)

/-- A sum of two counters is the true one, or there is none. -/
theorem add_ok_iff {m n r : UInt64} : add m n = .ok r ↔ r.toNat = m.toNat + n.toNat := by
  unfold add
  by_cases fits : m.toNat + n.toNat < UInt64.size
  · rw [if_pos fits, Except.ok.injEq, ← UInt64.toNat_inj, UInt64.toNat_add, Nat.mod_eq_of_lt fits]
    exact eq_comm
  · rw [if_neg fits]
    exact iff_of_false nofun fun told => fits (told ▸ r.toNat_lt)

theorem add_onlyOverflows (m n : UInt64) : OnlyOverflows (add m n) := by
  intro e failed
  unfold add at failed
  split at failed <;> cases failed
  rfl

theorem exists_toNat {n : Nat} (fits : n < 2 ^ 64) : ∃ r : UInt64, r.toNat = n :=
  ⟨UInt64.ofNat n, UInt64.toNat_ofNat_of_lt fits⟩

theorem foldlM_add_ok_iff {counters : List UInt64} {n r : UInt64} :
    counters.foldlM add n = .ok r ↔ r.toNat = n.toNat + total counters := by
  induction counters generalizing n with
  | nil =>
      change Except.ok n = .ok r ↔ r.toNat = n.toNat
      rw [Except.ok.injEq, ← UInt64.toNat_inj]
      exact eq_comm
  | cons c rest ih =>
      rw [List.foldlM_cons, total_cons]
      constructor
      · intro summed
        obtain ⟨m, first, later⟩ := Outcome.bind_ok summed
        rw [add_ok_iff] at first
        rw [ih] at later
        omega
      · intro summed
        have bounded := r.toNat_lt
        obtain ⟨m, first⟩ := exists_toNat (show n.toNat + c.toNat < 2 ^ 64 by omega)
        rw [add_ok_iff.2 first]
        exact ih.2 (by omega)

/-- A sum of counters is the true one, or there is none. -/
theorem sum_ok_iff {counters : List UInt64} {r : UInt64} :
    sum counters = .ok r ↔ r.toNat = total counters := by
  rw [sum, foldlM_add_ok_iff, UInt64.toNat_zero, Nat.zero_add]

theorem exists_sum_iff {counters : List UInt64} :
    (∃ r, sum counters = .ok r) ↔ total counters < 2 ^ 64 := by
  constructor
  · rintro ⟨r, summed⟩
    rw [← sum_ok_iff.1 summed]
    exact r.toNat_lt
  · intro fits
    obtain ⟨r, summed⟩ := exists_toNat fits
    exact ⟨r, sum_ok_iff.2 summed⟩

theorem sum_onlyOverflows (counters : List UInt64) : OnlyOverflows (sum counters) :=
  .foldlM add_onlyOverflows counters 0

end Counter

namespace Bins

/-- What a series counts at a place; nothing where it has ended. -/
def place (i : Nat) (bins : List UInt64) : Nat := (bins[i]?.getD 0).toNat

@[simp] theorem place_nil (i : Nat) : place i [] = 0 := rfl

theorem place_of_lt {i : Nat} {bins : List UInt64} (inside : i < bins.length) :
    place i bins = bins[i].toNat := by
  rw [place, List.getElem?_eq_getElem inside, Option.getD_some]

theorem place_le_total (i : Nat) (bins : List UInt64) : place i bins ≤ Counter.total bins := by
  by_cases inside : i < bins.length
  · rw [place_of_lt inside]
    exact Counter.toNat_le_total (List.getElem_mem inside)
  · rw [place, List.getElem?_eq_none (by omega)]
    exact Nat.zero_le _

theorem eq_iff_place {xs ys : List UInt64} :
    xs = ys ↔ ys.length = xs.length ∧ ∀ i, place i ys = place i xs := by
  constructor
  · intro same
    rw [same]
    exact ⟨rfl, fun _ => rfl⟩
  · rintro ⟨length, places⟩
    apply List.ext_getElem length.symm
    intro i inside inside'
    have at_i := places i
    rw [place_of_lt inside, place_of_lt inside'] at at_i
    exact UInt64.toNat_inj.1 at_i.symm

def longest (series : List (List UInt64)) : Nat := (series.map List.length).foldl max 0

def placeSums (series : List (List UInt64)) : List Nat :=
  (List.range (longest series)).map fun i => (series.map (place i)).sum

section Plus

variable {α : Type} {plus : α → α → Except Error α} {zero : α}

theorem length_add {xs ys zs : List α} (added : add plus zero xs ys = .ok zs) :
    zs.length = max xs.length ys.length := by
  induction xs generalizing ys zs with
  | nil =>
      rw [add] at added
      rw [← (Outcome.mapM_ok_iff.1 added).length_eq, List.length_nil, Nat.zero_max]
  | cons x xs ih =>
      cases ys with
      | nil =>
          cases added
          exact (Nat.max_zero _).symm
      | cons y ys =>
          obtain ⟨z, -, added⟩ := Outcome.bind_ok added
          obtain ⟨rest, later, added⟩ := Outcome.bind_ok added
          cases added
          rw [List.length_cons, ih later, List.length_cons, List.length_cons, Nat.succ_max_succ]

theorem length_foldlM_add {series : List (List α)} {bins zs : List α}
    (added : series.foldlM (add plus zero) bins = .ok zs) :
    zs.length = (series.map List.length).foldl max bins.length := by
  induction series generalizing bins with
  | nil =>
      cases added
      rfl
  | cons first rest ih =>
      rw [List.foldlM_cons] at added
      obtain ⟨next, first_added, later⟩ := Outcome.bind_ok added
      rw [ih later, length_add first_added, List.map_cons, List.foldl_cons]

theorem add_onlyOverflows (only : ∀ x y, OnlyOverflows (plus x y)) (xs ys : List α) :
    OnlyOverflows (add plus zero xs ys) := by
  induction xs generalizing ys with
  | nil =>
      rw [add]
      exact .mapM (only zero) ys
  | cons x xs ih =>
      cases ys with
      | nil => exact .ok (x :: xs)
      | cons y ys =>
          exact (only x y).bind fun z _ => (ih ys).bind fun rest _ => .ok (z :: rest)

/-- An addition that cannot fail at one place fails at none. -/
theorem exists_addAll {f : α → α → α} (zero : α) (series : List (List α)) :
    ∃ bins, addAll (fun x y => .ok (f x y)) zero series = .ok bins := by
  have never (xs ys : List α) : ∃ zs, add (fun x y => .ok (f x y)) zero xs ys = .ok zs := by
    induction xs generalizing ys with
    | nil =>
        refine ⟨ys.map (f zero), ?_⟩
        rw [add, Outcome.mapM_ok_iff, List.forall₂_map_right_iff]
        exact List.forall₂_same.2 fun _ _ => rfl
    | cons x xs ih =>
        cases ys with
        | nil => exact ⟨x :: xs, rfl⟩
        | cons y ys =>
            obtain ⟨zs, later⟩ := ih ys
            refine ⟨f x y :: zs, ?_⟩
            rw [add, later]
            rfl
  rw [addAll]
  generalize ([] : List α) = bins
  induction series generalizing bins with
  | nil => exact ⟨bins, rfl⟩
  | cons first rest ih =>
      obtain ⟨next, added⟩ := never bins first
      rw [List.foldlM_cons, added]
      exact ih next

end Plus

theorem mapM_add_zero (bins : List UInt64) : bins.mapM (Counter.add 0) = .ok bins := by
  rw [Outcome.mapM_ok_iff, List.forall₂_same]
  exact fun n _ => Counter.add_ok_iff.2 (Nat.zero_add _).symm

/-- Two series of counters are added exactly, or not at all. -/
theorem add_ok_iff {xs ys zs : List UInt64} :
    add Counter.add 0 xs ys = .ok zs ↔
      zs.length = max xs.length ys.length ∧ ∀ i, place i zs = place i xs + place i ys := by
  induction xs generalizing ys zs with
  | nil =>
      rw [add, mapM_add_zero, Except.ok.injEq, eq_iff_place]
      simp only [List.length_nil, Nat.zero_max, place_nil, Nat.zero_add]
  | cons x xs ih =>
      cases ys with
      | nil =>
          change Except.ok (x :: xs) = .ok zs ↔ _
          rw [Except.ok.injEq, eq_iff_place]
          simp only [List.length_nil, Nat.max_zero, place_nil, Nat.add_zero]
      | cons y ys =>
          constructor
          · intro added
            refine ⟨length_add added, fun i => ?_⟩
            obtain ⟨z, first, added⟩ := Outcome.bind_ok added
            obtain ⟨rest, later, added⟩ := Outcome.bind_ok added
            cases added
            cases i with
            | zero => exact Counter.add_ok_iff.1 first
            | succ i => exact (ih.1 later).2 i
          · rintro ⟨length, places⟩
            cases zs with
            | nil => simp at length
            | cons z zs =>
                have first : Counter.add x y = .ok z := Counter.add_ok_iff.2 (places 0)
                have later : add Counter.add 0 xs ys = .ok zs :=
                  ih.2 ⟨by simpa [Nat.succ_max_succ] using length, fun i => places (i + 1)⟩
                rw [add, first, later]
                rfl

theorem total_add {xs ys zs : List UInt64} (added : add Counter.add 0 xs ys = .ok zs) :
    Counter.total zs = Counter.total xs + Counter.total ys := by
  induction xs generalizing ys zs with
  | nil =>
      rw [add, mapM_add_zero] at added
      cases added
      exact (Nat.zero_add _).symm
  | cons x xs ih =>
      cases ys with
      | nil =>
          cases added
          exact (Nat.add_zero _).symm
      | cons y ys =>
          obtain ⟨z, first, added⟩ := Outcome.bind_ok added
          obtain ⟨rest, later, added⟩ := Outcome.bind_ok added
          cases added
          have first_sum := Counter.add_ok_iff.1 first
          have later_sum := ih later
          simp only [Counter.total_cons]
          omega

theorem exists_add {xs ys : List UInt64} (fits : ∀ i, place i xs + place i ys < 2 ^ 64) :
    ∃ zs, add Counter.add 0 xs ys = .ok zs := by
  refine ⟨(List.range (max xs.length ys.length)).map
    fun i => UInt64.ofNat (place i xs + place i ys), ?_⟩
  rw [add_ok_iff]
  refine ⟨by simp, fun i => ?_⟩
  by_cases inside : i < max xs.length ys.length
  · rw [place_of_lt (by simpa using inside), List.getElem_map, List.getElem_range]
    exact UInt64.toNat_ofNat_of_lt (fits i)
  · simp only [place]
    rw [List.getElem?_eq_none (by simp; omega), List.getElem?_eq_none (by omega),
      List.getElem?_eq_none (by omega)]
    rfl

theorem foldlM_add_ok_iff {series : List (List UInt64)} {bins zs : List UInt64} :
    series.foldlM (add Counter.add 0) bins = .ok zs ↔
      zs.length = (series.map List.length).foldl max bins.length ∧
        ∀ i, place i zs = place i bins + (series.map (place i)).sum := by
  induction series generalizing bins with
  | nil =>
      change Except.ok bins = .ok zs ↔ _
      rw [Except.ok.injEq, eq_iff_place]
      rfl
  | cons first rest ih =>
      constructor
      · intro added
        refine ⟨length_foldlM_add added, fun i => ?_⟩
        rw [List.foldlM_cons] at added
        obtain ⟨next, first_added, later⟩ := Outcome.bind_ok added
        rw [(ih.1 later).2 i, (add_ok_iff.1 first_added).2 i, List.map_cons, List.sum_cons]
        exact Nat.add_assoc _ _ _
      · rintro ⟨length, places⟩
        rw [List.foldlM_cons]
        simp only [List.map_cons, List.sum_cons] at places
        have fits (i : Nat) : place i bins + place i first < 2 ^ 64 := by
          have bounded : place i zs < 2 ^ 64 := UInt64.toNat_lt _
          have at_i := places i
          omega
        obtain ⟨next, first_added⟩ := exists_add fits
        rw [first_added]
        refine ih.2 ⟨?_, fun i => ?_⟩
        · rw [length_add first_added, length, List.map_cons, List.foldl_cons]
        · rw [places i, (add_ok_iff.1 first_added).2 i]
          exact (Nat.add_assoc _ _ _).symm

/-- Series of counters are added exactly, or not at all. -/
theorem addAll_ok_iff {series : List (List UInt64)} {zs : List UInt64} :
    addAll Counter.add 0 series = .ok zs ↔
      zs.length = longest series ∧ ∀ i, place i zs = (series.map (place i)).sum := by
  rw [addAll, foldlM_add_ok_iff]
  simp only [place_nil, Nat.zero_add, longest, List.length_nil]

theorem total_addAll {series : List (List UInt64)} {zs : List UInt64}
    (added : addAll Counter.add 0 series = .ok zs) :
    Counter.total zs = (series.map Counter.total).sum := by
  have grown (bins : List UInt64) (added : series.foldlM (add Counter.add 0) bins = .ok zs) :
      Counter.total zs = Counter.total bins + (series.map Counter.total).sum := by
    clear * - added
    induction series generalizing bins with
    | nil =>
        cases added
        rfl
    | cons first rest ih =>
        rw [List.foldlM_cons] at added
        obtain ⟨next, first_added, later⟩ := Outcome.bind_ok added
        rw [ih next later, total_add first_added, List.map_cons, List.sum_cons, Nat.add_assoc]
  rw [grown [] added, Counter.total_nil, Nat.zero_add]

theorem toNat_of_addAll {series : List (List UInt64)} {zs : List UInt64}
    (added : addAll Counter.add 0 series = .ok zs) : zs.map UInt64.toNat = placeSums series := by
  obtain ⟨length, places⟩ := addAll_ok_iff.1 added
  apply List.ext_getElem
  · rw [List.length_map, length, placeSums, List.length_map, List.length_range]
  · intro i inside _
    rw [List.length_map] at inside
    rw [List.getElem_map, ← place_of_lt inside, places i]
    simp only [placeSums, List.getElem_map, List.getElem_range]

theorem exists_foldlM_add {series : List (List UInt64)} {bins : List UInt64}
    (fits : ∀ i, place i bins + (series.map (place i)).sum < 2 ^ 64) :
    ∃ zs, series.foldlM (add Counter.add 0) bins = .ok zs := by
  induction series generalizing bins with
  | nil => exact ⟨bins, rfl⟩
  | cons first rest ih =>
      simp only [List.map_cons, List.sum_cons] at fits
      have room (i : Nat) : place i bins + place i first < 2 ^ 64 := by
        have at_i := fits i
        omega
      obtain ⟨next, added⟩ := exists_add room
      rw [List.foldlM_cons, added]
      apply ih
      intro i
      rw [(add_ok_iff.1 added).2 i, Nat.add_assoc]
      exact fits i

theorem exists_addAll_iff {series : List (List UInt64)} :
    (∃ zs, addAll Counter.add 0 series = .ok zs) ↔
      ∀ i, (series.map (place i)).sum < 2 ^ 64 := by
  constructor
  · rintro ⟨zs, added⟩ i
    rw [← (addAll_ok_iff.1 added).2 i]
    exact UInt64.toNat_lt _
  · intro fits
    exact exists_foldlM_add fun i => by simpa using fits i

theorem addAll_onlyOverflows (series : List (List UInt64)) :
    OnlyOverflows (addAll Counter.add 0 series) :=
  .foldlM (add_onlyOverflows Counter.add_onlyOverflows) series []

/-- Series come to the same when they have the same places and the same greatest length. -/
theorem addAll_congr {series series' : List (List UInt64)} (length : longest series = longest series')
    (places : ∀ i, (series.map (place i)).sum = (series'.map (place i)).sum) :
    addAll Counter.add 0 series = addAll Counter.add 0 series' := by
  apply (addAll_onlyOverflows series).ext (addAll_onlyOverflows series')
  intro zs
  simp only [addAll_ok_iff, length, places]

theorem addAll_perm {series series' : List (List UInt64)} (perm : series.Perm series') :
    addAll Counter.add 0 series = addAll Counter.add 0 series' :=
  addAll_congr ((perm.map _).foldl_eq 0) fun _ => (perm.map _).sum_eq

/-- Series that are empty add nothing. -/
theorem addAll_filter (series : List (List UInt64)) :
    addAll Counter.add 0 (series.filter fun xs => !xs.isEmpty) = addAll Counter.add 0 series := by
  apply addAll_congr
  · rw [longest, longest]
    generalize 0 = n
    induction series generalizing n with
    | nil => rfl
    | cons xs rest ih => cases xs <;> simp [ih]
  · intro i
    induction series with
    | nil => rfl
    | cons xs rest ih => cases xs <;> simp [ih]

end Bins

end BenchReport
