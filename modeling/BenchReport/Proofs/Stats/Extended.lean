import BenchReport.Proofs.Stats.Exact
import BenchReport.Stats.Summary
set_option autoImplicit false

namespace BenchReport

/-- What a sample can be. A figure that is a real number was computed without the infinities and
what is no number, since an operation on any of them is undefined. -/
inductive Extended where
  | real (x : ℝ)
  | infinite (up : Bool)
  | undefined

namespace Extended

/-- Numbers between the infinities, and what is no number beyond them. -/
noncomputable def rank : Extended → WithTop EReal
  | real x => (x : EReal)
  | infinite up => ((if up then ⊤ else ⊥ : EReal) : WithTop EReal)
  | undefined => ⊤

/-- An operation that only real numbers take part in. -/
def lift (f : ℝ → ℝ → ℝ) : Extended → Extended → Extended
  | real x, real y => real (f x y)
  | _, _ => undefined

/-- A whole number in reach of counters, and of the infinities the nearest of these. -/
noncomputable def whole (f : ℝ → Nat) : Extended → Nat
  | real x => f x
  | infinite up => if up then UInt64.size - 1 else 0
  | undefined => 0

open Classical in
noncomputable instance : Scalar Extended where
  add := lift (· + ·)
  sub := lift (· - ·)
  mul := lift (· * ·)
  div x y := if y = real 0 then undefined else lift (· / ·) x y
  ofNat n := real n
  isFinite
    | real _ => true
    | _ => false
  lt x y := decide (x ≠ undefined ∧ y ≠ undefined ∧ x.rank < y.rank)
  before x y := decide (x.rank ≤ y.rank)
  floor := whole fun x => ⌊x⌋₊
  ceil := whole fun x => ⌈x⌉₊
  round
    | real x => real (Scalar.round x)
    | _ => undefined
  sqrt
    | real x => if 0 ≤ x then real (Scalar.sqrt x) else undefined
    | _ => undefined

theorem real_add (x y : ℝ) : real x + real y = real (x + y) := rfl

theorem real_div (x : ℝ) {y : ℝ} (nonzero : y ≠ 0) : real x / real y = real (x / y) :=
  if_neg fun same => nonzero (real.inj same)

@[simp] theorem ofNat_eq (n : Nat) : (Scalar.ofNat n : Extended) = real (Scalar.ofNat n) := rfl

@[simp] theorem lt_real (x y : ℝ) : Scalar.lt (real x) (real y) = Scalar.lt x y :=
  decide_eq_decide.2 (by simp [rank])

@[simp] theorem before_real (x y : ℝ) : Scalar.before (real x) (real y) = Scalar.before x y :=
  decide_eq_decide.2 (by simp [rank])

theorem rank_injective {x y : Extended} (same : x.rank = y.rank) : x = y := by
  cases x with
  | real x =>
      cases y with
      | real y => exact congrArg real (by simpa [rank] using same)
      | infinite up => cases up <;> simp [rank] at same
      | undefined => simp [rank] at same
  | infinite up =>
      cases y with
      | real y => cases up <;> simp [rank] at same
      | infinite up' => cases up <;> cases up' <;> simp_all [rank]
      | undefined => cases up <;> simp [rank] at same
  | undefined => cases y <;> simp_all [rank]

theorem before_iff (x y : Extended) : Scalar.before x y = true ↔ x.rank ≤ y.rank :=
  decide_eq_true_iff

theorem before_trans (x y z : Extended) (first : Scalar.before x y = true)
    (second : Scalar.before y z = true) : Scalar.before x z = true :=
  (before_iff x z).2 (((before_iff x y).1 first).trans ((before_iff y z).1 second))

theorem before_total (x y : Extended) : (Scalar.before x y || Scalar.before y x) = true := by
  rw [Bool.or_eq_true, before_iff, before_iff]
  exact le_total _ _

theorem before_antisymm {x y : Extended} (first : Scalar.before x y = true)
    (second : Scalar.before y x = true) : x = y :=
  rank_injective (((before_iff x y).1 first).antisymm ((before_iff y x).1 second))

theorem sum_map_real (xs : List ℝ) : Scalar.sum (xs.map real) = real (Scalar.sum xs) := by
  cases xs with
  | nil => rfl
  | cons x rest =>
      change (rest.map real).foldl (· + ·) (real x) = real (rest.foldl (· + ·) x)
      rw [List.foldl_map]
      exact List.foldl_hom real fun x y => real_add x y

open Stats

theorem mean_map_real (xs : List ℝ) : mean (xs.map real) = real (mean xs) := by
  cases xs with
  | nil => rfl
  | cons x rest =>
      have some : (Scalar.ofNat (x :: rest).length : ℝ) ≠ 0 :=
        Nat.cast_ne_zero.2 (Nat.succ_ne_zero _)
      change Scalar.sum ((x :: rest).map real) / Scalar.ofNat ((x :: rest).map real).length = _
      rw [sum_map_real, List.length_map, ofNat_eq, real_div _ some]
      rfl

theorem variance_map_real (xs : List ℝ) : variance (xs.map real) = real (variance xs) := by
  unfold variance
  rw [List.length_map]
  split
  · rfl
  · rename_i two
    have some : (Scalar.ofNat (xs.length - 1) : ℝ) ≠ 0 := Nat.cast_ne_zero.2 (by omega)
    simp only [mean_map_real, List.map_map]
    rw [← real_div _ some, ← sum_map_real, List.map_map]
    rfl

theorem quantile_map_real (xs : List ℝ) {q : Extended} {t : ℝ}
    (clamped : clampUnit q = real (clampUnit t)) :
    quantile (xs.map real) q = real (quantile xs t) := by
  match xs with
  | [] => rfl
  | [x] => rfl
  | x :: y :: rest =>
      have value (i : Nat) : ((x :: y :: rest).map real).getD i (real x) =
          real ((x :: y :: rest).getD i x) := List.getD_map _ x real
      change (let position := clampUnit q * Scalar.ofNat (((x :: y :: rest).map real).length - 1)
        let low := Scalar.floor position
        let below := ((x :: y :: rest).map real).getD low (real x)
        let above := ((x :: y :: rest).map real).getD (Scalar.ceil position) (real x)
        below + (above - below) * (position - Scalar.ofNat low)) = _
      simp only [clamped, List.length_map, value]
      rfl

theorem clampUnit_real (q : ℝ) : clampUnit (real q) = real (clampUnit q) := by
  simp only [clampUnit, ofNat_eq, lt_real]
  split
  · rfl
  · split <;> rfl

/-- The fraction between zero and one that a fraction counts as. -/
noncomputable def unit : Extended → ℝ
  | real q => clampUnit q
  | infinite up => if up then 1 else 0
  | undefined => 0

theorem clampUnit_eq_unit {q : Extended} (defined : q ≠ undefined) :
    clampUnit q = real (clampUnit q.unit) := by
  cases q with
  | real q => rw [unit, exact_clampUnit_idem, clampUnit_real]
  | infinite up =>
      have bottom : (⊥ : WithTop EReal) < 0 := WithTop.coe_lt_coe.2 EReal.bot_lt_zero
      have top : (1 : EReal) < ⊤ := EReal.coe_lt_top 1
      cases up <;> simp [clampUnit, Scalar.lt, rank, unit, Scalar.exact_ofNat, bottom, top]
  | undefined => exact absurd rfl defined

theorem unit_mono {q q' : Extended} (defined : q' ≠ undefined) (le : Scalar.before q q') :
    q.unit ≤ q'.unit := by
  have ranks := (before_iff q q').1 le
  cases q with
  | undefined => cases q' <;> simp_all [rank]
  | real q =>
      cases q' with
      | real q' => exact exact_clampUnit_mono (by simpa [rank] using ranks)
      | infinite up => cases up <;> simp_all [rank, unit, exact_clampUnit]
      | undefined => exact absurd rfl defined
  | infinite up =>
      cases q' with
      | real q' => cases up <;> simp_all [rank, unit, exact_clampUnit]
      | infinite up' => cases up <;> cases up' <;> simp_all [rank, unit]
      | undefined => exact absurd rfl defined

def reals (series : List Extended) : List ℝ :=
  series.filterMap fun
    | real x => some x
    | _ => none

theorem filter_isFinite (series : List Extended) :
    series.filter Scalar.isFinite = (reals series).map real := by
  induction series with
  | nil => rfl
  | cons x rest ih =>
      cases x with
      | real x => exact congrArg (real x :: ·) ih
      | infinite up => exact ih
      | undefined => exact ih

theorem ordered_eq (series : List Extended) :
    ordered series = (ordered (reals series)).map real := by
  have kept : (reals series).filter Scalar.isFinite = reals series :=
    List.filter_eq_self.2 fun _ _ => rfl
  simp only [ordered, filter_isFinite, kept, List.isEmpty_map]
  split
  · rfl
  · exact (List.map_mergeSort fun x _ y _ => (before_real x y).symm).symm

theorem quantile_ratio (xs : List ℝ) (n : Nat) {m : Nat} (nonzero : m ≠ 0) :
    quantile (xs.map real) (Scalar.ofNat n / Scalar.ofNat m) =
      real (quantile xs (Scalar.ofNat n / Scalar.ofNat m)) := by
  have ratio : (Scalar.ofNat n / Scalar.ofNat m : Extended) =
      real (Scalar.ofNat n / Scalar.ofNat m) := real_div _ (Nat.cast_ne_zero.2 nonzero)
  rw [ratio, quantile_map_real xs (clampUnit_real _)]

theorem sqrt_variance (xs : List ℝ) :
    Scalar.sqrt (real (variance xs)) = real (Scalar.sqrt (variance xs)) :=
  if_pos (exact_variance_nonneg xs)

/-- The summary of a series is the summary of the real numbers in it, in real arithmetic. -/
theorem ofSamples_eq (series : List Extended) :
    Summary.ofSamples series = (Summary.ofSamples (reals series)).map real := by
  have two : (2 : Nat) ≠ 0 := by decide
  have hundred : (100 : Nat) ≠ 0 := by decide
  have first (xs : List ℝ) : (xs.map real).headD (Scalar.ofNat 0) =
      real (xs.headD (Scalar.ofNat 0)) := List.headD_map
  have last (xs : List ℝ) : (xs.map real).getLastD (Scalar.ofNat 0) =
      real (xs.getLastD (Scalar.ofNat 0)) := List.getLastD_map
  simp only [Summary.ofSamples, Summary.describe, Summary.withMoments, Summary.withQuantiles,
    Summary.map, ordered_eq, mean_map_real, variance_map_real, sqrt_variance, first,
    last, quantile_ratio _ _ two, quantile_ratio _ _ hundred, Vector.map_map]
  rfl

end Extended

end BenchReport
