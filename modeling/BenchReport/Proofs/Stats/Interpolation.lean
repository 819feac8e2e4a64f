import BenchReport.Proofs.Stats.Exact
set_option autoImplicit false

namespace BenchReport.Stats

open Scalar

section Reached

variable {α : Type} [Scalar α]

def position (n : Nat) (q : α) : α := clampUnit q * ofNat (n - 1)

/-- Both values beside the position of a fraction are values of the series, and the quantile is
interpolated between them. -/
def Reached (series : List α) (q : α) : Prop :=
  let p := position series.length q
  ∃ (low : floor p < series.length) (high : ceil p < series.length),
    quantile series q = series[floor p] + (series[ceil p] - series[floor p]) * (p - ofNat (floor p))

theorem reached_of_lt {series : List α} {q : α} (two : 2 ≤ series.length)
    (low : floor (position series.length q) < series.length)
    (high : ceil (position series.length q) < series.length) : Reached series q := by
  refine ⟨low, high, ?_⟩
  match series, two with
  | x :: y :: rest, _ =>
      rw [List.getElem_eq_getD x, List.getElem_eq_getD x]
      rfl

end Reached

theorem exact_position_nonneg (n : Nat) (q : ℝ) : 0 ≤ position n q := by
  rw [position, exact_clampUnit]
  exact mul_nonneg (le_max_left _ _) (Nat.cast_nonneg _)

theorem exact_position_le (n : Nat) (q : ℝ) : position n q ≤ (n - 1 : Nat) := by
  rw [position, exact_clampUnit]
  exact mul_le_of_le_one_left (Nat.cast_nonneg _) (max_le zero_le_one (min_le_right _ _))

theorem exact_position_mono (n : Nat) {q q' : ℝ} (le : q ≤ q') : position n q ≤ position n q' :=
  mul_le_mul_of_nonneg_right (exact_clampUnit_mono le) (Nat.cast_nonneg _)

theorem exact_ceil_lt {n : Nat} (some : 0 < n) (q : ℝ) : ⌈position n q⌉₊ < n :=
  (Nat.ceil_le.2 (exact_position_le n q)).trans_lt (Nat.sub_one_lt_of_lt some)

theorem exact_floor_lt {n : Nat} (some : 0 < n) (q : ℝ) : ⌊position n q⌋₊ < n :=
  (Nat.floor_le_ceil _).trans_lt (exact_ceil_lt some q)

theorem exact_reached {xs : List ℝ} (two : 2 ≤ xs.length) (q : ℝ) : Reached xs q :=
  reached_of_lt two (exact_floor_lt (Nat.zero_lt_of_lt two) q)
    (exact_ceil_lt (Nat.zero_lt_of_lt two) q)

/-- How far a position is from the whole number below it. -/
theorem fraction_mem {p : ℝ} (nonneg : 0 ≤ p) : 0 ≤ p - ⌊p⌋₊ ∧ p - ⌊p⌋₊ ≤ 1 := by
  have lower := Nat.floor_le nonneg
  have upper := Nat.lt_floor_add_one p
  constructor <;> linarith

section Ascending

variable {xs : List ℝ}

theorem getElem_le_getElem (ascending : xs.Pairwise (· ≤ ·)) {i j : Nat} (le : i ≤ j)
    (inside : j < xs.length) : xs[i] ≤ xs[j] := by
  rcases le.eq_or_lt with rfl | lt
  · exact le_refl _
  · exact List.pairwise_iff_getElem.1 ascending i j _ inside lt

/-- The value at a fraction lies between the two values beside its position. -/
theorem quantile_between (ascending : xs.Pairwise (· ≤ ·)) (two : 2 ≤ xs.length) (q : ℝ)
    (low : ⌊position xs.length q⌋₊ < xs.length) (high : ⌈position xs.length q⌉₊ < xs.length) :
    xs[⌊position xs.length q⌋₊] ≤ quantile xs q ∧ quantile xs q ≤ xs[⌈position xs.length q⌉₊] := by
  obtain ⟨_, _, value⟩ := exact_reached two q
  obtain ⟨nonneg, le_one⟩ := fraction_mem (exact_position_nonneg xs.length q)
  have rise := sub_nonneg.2 (getElem_le_getElem ascending (Nat.floor_le_ceil _) high)
  rw [value]
  refine ⟨le_add_of_nonneg_right (mul_nonneg rise nonneg), ?_⟩
  calc xs[⌊position xs.length q⌋₊] + (xs[⌈position xs.length q⌉₊] - xs[⌊position xs.length q⌋₊]) *
        (position xs.length q - ⌊position xs.length q⌋₊)
      ≤ xs[⌊position xs.length q⌋₊] + (xs[⌈position xs.length q⌉₊] - xs[⌊position xs.length q⌋₊]) :=
        add_le_add_right (mul_le_of_le_one_right rise le_one) _
    _ = xs[⌈position xs.length q⌉₊] := add_sub_cancel _ _

/-- Of two positions the first of which is not above the second, either a whole number lies between
them or both lie between the same whole numbers. -/
theorem whole_between_or_same {p p' : ℝ} (le : p ≤ p') :
    ⌈p⌉₊ ≤ ⌊p'⌋₊ ∨ ⌊p⌋₊ = ⌊p'⌋₊ ∧ ⌈p⌉₊ = ⌈p'⌉₊ := by
  have floors := Nat.floor_mono le
  have ceils := Nat.ceil_mono le
  have gap := Nat.ceil_le_floor_add_one p
  have gap' := Nat.ceil_le_floor_add_one p'
  omega

theorem quantile_mono (ascending : xs.Pairwise (· ≤ ·)) {q q' : ℝ} (le : q ≤ q') :
    quantile xs q ≤ quantile xs q' := by
  match xs, ascending with
  | [], _ => exact le_refl _
  | [x], _ => exact le_refl _
  | x :: y :: rest, ascending =>
      have two : 2 ≤ (x :: y :: rest).length := Nat.le_add_left _ _
      generalize x :: y :: rest = xs at ascending two
      obtain ⟨low, high, value⟩ := exact_reached two q
      obtain ⟨low', high', value'⟩ := exact_reached two q'
      -- either a value of the series separates the two quantiles, or both lie on one line
      rcases whole_between_or_same (exact_position_mono xs.length le) with between | ⟨floors, ceils⟩
      · calc quantile xs q
            ≤ xs[⌈position xs.length q⌉₊] := (quantile_between ascending two q low high).2
          _ ≤ xs[⌊position xs.length q'⌋₊] := getElem_le_getElem ascending between low'
          _ ≤ quantile xs q' := (quantile_between ascending two q' low' high').1
      · rw [value, value']
        simp only [floor, ceil, exact_ofNat, floors, ceils]
        have rise := sub_nonneg.2 (getElem_le_getElem ascending (Nat.floor_le_ceil _) high')
        gcongr
        exact exact_position_mono xs.length le

/-- The quantiles of a series lie between its first and its last value. -/
theorem quantile_mem_ends (ascending : xs.Pairwise (· ≤ ·)) (sampled : xs ≠ []) (q : ℝ) :
    xs.head sampled ≤ quantile xs q ∧ quantile xs q ≤ xs.getLast sampled := by
  match xs, ascending with
  | [x], _ => exact ⟨le_refl _, le_refl _⟩
  | x :: y :: rest, ascending =>
      have two : 2 ≤ (x :: y :: rest).length := Nat.le_add_left _ _
      generalize x :: y :: rest = xs at ascending two sampled
      obtain ⟨low, high, -⟩ := exact_reached two q
      obtain ⟨above, below⟩ := quantile_between ascending two q low high
      rw [List.head_eq_getElem, List.getLast_eq_getElem]
      exact ⟨(getElem_le_getElem ascending (Nat.zero_le _) low).trans above,
        below.trans (getElem_le_getElem ascending (Nat.le_sub_one_of_lt high) _)⟩

theorem mean_mem_ends (ascending : xs.Pairwise (· ≤ ·)) (sampled : xs ≠ []) :
    xs.head sampled ≤ mean xs ∧ mean xs ≤ xs.getLast sampled := by
  have some : (0 : ℝ) < xs.length := Nat.cast_pos.2 (List.length_pos_iff.2 sampled)
  have least : ∀ x ∈ xs, xs.head sampled ≤ x := fun x mem => by
    obtain ⟨i, inside, rfl⟩ := List.getElem_of_mem mem
    rw [List.head_eq_getElem]
    exact getElem_le_getElem ascending (Nat.zero_le i) inside
  have greatest : ∀ x ∈ xs, x ≤ xs.getLast sampled := fun x mem => by
    obtain ⟨i, inside, rfl⟩ := List.getElem_of_mem mem
    rw [List.getLast_eq_getElem]
    exact getElem_le_getElem ascending (Nat.le_sub_one_of_lt inside) _
  have lower := List.card_nsmul_le_sum xs _ least
  have upper := List.sum_le_card_nsmul xs _ greatest
  rw [nsmul_eq_mul] at lower upper
  rw [exact_mean, average, le_div_iff₀ some, div_le_iff₀ some, mul_comm,
    mul_comm (xs.getLast sampled)]
  exact ⟨lower, upper⟩

end Ascending

end BenchReport.Stats
