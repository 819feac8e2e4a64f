import BenchReport.Proofs.Stats.DoubleOrder
import BenchReport.Stats.Quantile
set_option autoImplicit false

namespace BenchReport.Stats

open Double (orderKey orderKey_injective Positive)

theorem before_iff (x y : Float) : Scalar.before x y = true ↔ orderKey x ≤ orderKey y :=
  decide_eq_true_iff

theorem before_trans (x y z : Float) (first : Scalar.before x y = true)
    (second : Scalar.before y z = true) : Scalar.before x z = true := by
  rw [before_iff] at *
  exact Int.le_trans first second

theorem before_total (x y : Float) : (Scalar.before x y || Scalar.before y x) = true := by
  rw [Bool.or_eq_true, before_iff, before_iff]
  exact Int.le_total _ _

/-- Two series have the same finite values, each as often. They may come in any order, with any
values that are not finite between them. -/
def SameFinite (xs ys : List Float) : Prop :=
  (xs.filter Scalar.isFinite).Perm (ys.filter Scalar.isFinite)

theorem sameFinite_of_perm {xs ys : List Float} (perm : xs.Perm ys) : SameFinite xs ys :=
  perm.filter _

/-- What counts of a series: its finite values, and a single zero if there are none. -/
def counted (xs : List Float) : List Float :=
  if (xs.filter Scalar.isFinite).isEmpty then [Scalar.ofNat 0] else xs.filter Scalar.isFinite

def Ascending (v : List Float) : Prop := v.Pairwise fun x y => orderKey x ≤ orderKey y

theorem counted_ne_nil (xs : List Float) : counted xs ≠ [] := by
  unfold counted
  by_cases none : (xs.filter Scalar.isFinite).isEmpty = true
  · rw [if_pos none]
    exact List.cons_ne_nil _ _
  · rw [if_neg none]
    exact fun empty => none (List.isEmpty_iff.2 empty)

theorem SameFinite.counted {xs ys : List Float} (same : SameFinite xs ys) :
    (counted xs).Perm (counted ys) := by
  unfold Stats.counted
  rw [same.isEmpty_eq]
  by_cases none : (ys.filter Scalar.isFinite).isEmpty = true
  · rw [if_pos none, if_pos none]
  · rw [if_neg none, if_neg none]
    exact same

theorem counted_positive {xs : List Float} (sampled : xs ≠ []) (positive : ∀ x ∈ xs, Positive x) :
    counted xs = xs := by
  have kept : xs.filter Scalar.isFinite = xs :=
    List.filter_eq_self.2 fun x mem => (positive x mem).1
  rw [counted, kept, if_neg (mt List.isEmpty_iff.1 sampled)]

theorem ordered_perm_counted (xs : List Float) : (ordered xs).Perm (counted xs) := by
  simp only [ordered, counted]
  by_cases none : (xs.filter Scalar.isFinite).isEmpty = true
  · rw [if_pos none, if_pos none]
  · rw [if_neg none, if_neg none]
    exact List.mergeSort_perm _ _

theorem ordered_ascending (xs : List Float) : Ascending (ordered xs) := by
  simp only [ordered]
  by_cases none : (xs.filter Scalar.isFinite).isEmpty = true
  · rw [if_pos none]
    exact List.pairwise_singleton _ _
  · rw [if_neg none]
    have sorted := List.pairwise_mergeSort before_trans before_total (xs.filter Scalar.isFinite)
    exact sorted.imp fun before => (before_iff _ _).1 before

/-- There is one way to put values in ascending order: the order tells even the zeros apart. -/
theorem Ascending.unique {v w : List Float} (first : Ascending v) (second : Ascending w)
    (perm : v.Perm w) : v = w := by
  apply List.Perm.eq_of_pairwise _ first second perm
  intro x y _ _ below above
  exact orderKey_injective (Int.le_antisymm below above)

theorem ordered_of_finite {xs ys : List Float} (same : SameFinite xs ys) :
    ordered xs = ordered ys := by
  have perm : (ordered xs).Perm (counted ys) := (ordered_perm_counted xs).trans same.counted
  exact (ordered_ascending xs).unique (ordered_ascending ys)
    (perm.trans (ordered_perm_counted ys).symm)

theorem ordered_perm {xs ys : List Float} (perm : xs.Perm ys) : ordered xs = ordered ys :=
  ordered_of_finite (sameFinite_of_perm perm)

/-- A value of a series that none of them passes, in one direction of the order. -/
def Extreme (le : Int → Int → Prop) (m : Float) (xs : List Float) : Prop :=
  m ∈ xs ∧ ∀ x ∈ xs, le (orderKey m) (orderKey x)

section Extremes

variable {le : Int → Int → Prop} {m n chosen : Float} {xs ys v : List Float}

theorem Extreme.of_perm (extreme : Extreme le m v) (perm : v.Perm xs) : Extreme le m xs :=
  ⟨perm.mem_iff.1 extreme.1, fun x mem => extreme.2 x (perm.mem_iff.2 mem)⟩

theorem Extreme.unique [Std.Antisymm le] (first : Extreme le m xs) (second : Extreme le n xs) :
    m = n :=
  orderKey_injective (Std.Antisymm.antisymm _ _ (first.2 n second.1) (second.2 m first.1))

theorem Extreme.append [IsTrans Int le] (left : Extreme le m xs) (right : Extreme le n ys)
    (choice : chosen = m ∧ le (orderKey m) (orderKey n) ∨
      chosen = n ∧ le (orderKey n) (orderKey m)) : Extreme le chosen (xs ++ ys) := by
  rcases choice with ⟨rfl, passes⟩ | ⟨rfl, passes⟩
  · refine ⟨List.mem_append_left _ left.1, fun x mem => ?_⟩
    rcases List.mem_append.1 mem with mem | mem
    · exact left.2 x mem
    · exact trans_of le passes (right.2 x mem)
  · refine ⟨List.mem_append_right _ right.1, fun x mem => ?_⟩
    rcases List.mem_append.1 mem with mem | mem
    · exact trans_of le passes (left.2 x mem)
    · exact right.2 x mem

theorem Ascending.first (ascending : Ascending v) (sampled : v ≠ []) (d : Float) :
    Extreme (· ≤ ·) (v.headD d) v := by
  cases v with
  | nil => exact absurd rfl sampled
  | cons x rest =>
      constructor
      · exact List.mem_cons_self
      · intro y mem
        by_cases same : y = x
        · rw [same]
          exact Int.le_refl _
        · exact (List.pairwise_cons.1 ascending).1 y (List.mem_of_ne_of_mem same mem)

theorem Ascending.last (ascending : Ascending v) (sampled : v ≠ []) (d : Float) :
    Extreme (· ≥ ·) (v.getLastD d) v := by
  rw [← List.dropLast_append_getLast sampled] at ascending ⊢
  rw [List.getLastD_concat]
  constructor
  · exact List.mem_append_right _ (List.mem_singleton.2 rfl)
  · intro y mem
    rcases List.mem_append.1 mem with earlier | same
    · exact (List.pairwise_append.1 ascending).2.2 y earlier _ (List.mem_singleton.2 rfl)
    · rw [List.mem_singleton.1 same]

end Extremes

theorem min_choice {m n : Float} (left : Positive m) (right : Positive n) :
    Scalar.min m n = m ∧ orderKey m ≤ orderKey n ∨
      Scalar.min m n = n ∧ orderKey n ≤ orderKey m := by
  have compared := Double.lt_iff_orderKey right left
  by_cases lower : n < m
  · exact .inr ⟨if_pos (decide_eq_true lower), Int.le_of_lt (compared.1 lower)⟩
  · exact .inl ⟨if_neg fun lt => lower (of_decide_eq_true lt), Int.not_lt.1 (mt compared.2 lower)⟩

theorem max_choice {m n : Float} (left : Positive m) (right : Positive n) :
    Scalar.max m n = m ∧ orderKey m ≥ orderKey n ∨
      Scalar.max m n = n ∧ orderKey n ≥ orderKey m := by
  have compared := Double.lt_iff_orderKey left right
  by_cases higher : m < n
  · exact .inr ⟨if_pos (decide_eq_true higher), Int.le_of_lt (compared.1 higher)⟩
  · exact .inl ⟨if_neg fun lt => higher (of_decide_eq_true lt), Int.not_lt.1 (mt compared.2 higher)⟩

/-- The least and the greatest value of a series; of nothing both are zero. -/
def least (xs : List Float) : Float := (ordered xs).headD (Scalar.ofNat 0)

def greatest (xs : List Float) : Float := (ordered xs).getLastD (Scalar.ofNat 0)

theorem least_perm {xs ys : List Float} (perm : xs.Perm ys) : least xs = least ys := by
  rw [least, least, ordered_perm perm]

theorem greatest_perm {xs ys : List Float} (perm : xs.Perm ys) : greatest xs = greatest ys := by
  rw [greatest, greatest, ordered_perm perm]

section Ends

variable {xs ys : List Float}

theorem least_spec (sampled : xs ≠ []) (positive : ∀ x ∈ xs, Positive x) :
    Extreme (· ≤ ·) (least xs) xs := by
  have perm := ordered_perm_counted xs
  rw [counted_positive sampled positive] at perm
  have some : ordered xs ≠ [] := fun none => sampled (none ▸ perm).symm.eq_nil
  exact ((ordered_ascending xs).first some _).of_perm perm

theorem greatest_spec (sampled : xs ≠ []) (positive : ∀ x ∈ xs, Positive x) :
    Extreme (· ≥ ·) (greatest xs) xs := by
  have perm := ordered_perm_counted xs
  rw [counted_positive sampled positive] at perm
  have some : ordered xs ≠ [] := fun none => sampled (none ▸ perm).symm.eq_nil
  exact ((ordered_ascending xs).last some _).of_perm perm

theorem least_append (left : xs ≠ []) (right : ys ≠ [])
    (positive : ∀ x ∈ xs ++ ys, Positive x) :
    least (xs ++ ys) = Scalar.min (least xs) (least ys) := by
  have in_left := fun x mem => positive x (List.mem_append_left ys mem)
  have in_right := fun y mem => positive y (List.mem_append_right xs mem)
  have of_left := least_spec left in_left
  have of_right := least_spec right in_right
  exact (least_spec (List.append_ne_nil_of_left_ne_nil left ys) positive).unique
    (of_left.append of_right (min_choice (in_left _ of_left.1) (in_right _ of_right.1)))

theorem greatest_append (left : xs ≠ []) (right : ys ≠ [])
    (positive : ∀ x ∈ xs ++ ys, Positive x) :
    greatest (xs ++ ys) = Scalar.max (greatest xs) (greatest ys) := by
  have in_left := fun x mem => positive x (List.mem_append_left ys mem)
  have in_right := fun y mem => positive y (List.mem_append_right xs mem)
  have of_left := greatest_spec left in_left
  have of_right := greatest_spec right in_right
  exact (greatest_spec (List.append_ne_nil_of_left_ne_nil left ys) positive).unique
    (of_left.append of_right (max_choice (in_left _ of_left.1) (in_right _ of_right.1)))

end Ends

end BenchReport.Stats
