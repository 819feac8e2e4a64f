import Mathlib
import BenchReport.Proofs.Experiments
import BenchReport.Proofs.Stats.Exact
set_option autoImplicit false

namespace BenchReport

namespace Scalar

variable {x y : ℝ}

theorem exact_round2 (nonneg : 0 ≤ x) : round2 x = ⌊x * 100 + 1 / 2⌋ / 100 := by
  have scaled : 0 ≤ x * 100 := mul_nonneg nonneg (by norm_num)
  show (if 0 ≤ x * 100 then (⌊x * 100 + 1 / 2⌋ : ℝ) else _) / 100 = _
  rw [if_pos scaled]

/-- Rounding to hundredths moves a number by half a hundredth at most. -/
theorem exact_round2_near (nonneg : 0 ≤ x) : |round2 x - x| ≤ 1 / 200 := by
  have lower := Int.floor_le (x * 100 + 1 / 2)
  have upper := Int.lt_floor_add_one (x * 100 + 1 / 2)
  rw [exact_round2 nonneg, abs_le]
  constructor <;> linarith

theorem exact_round2_mono (nonneg : 0 ≤ x) (le : x ≤ y) : round2 x ≤ round2 y := by
  rw [exact_round2 nonneg, exact_round2 (nonneg.trans le)]
  gcongr

/-- Whole numbers are hundredths. -/
theorem exact_round2_natCast (n : Nat) : round2 (n : ℝ) = n := by
  have whole : ⌊(n : ℝ) * 100 + 1 / 2⌋ = n * 100 := by
    rw [Int.floor_eq_iff]
    push_cast
    constructor <;> linarith
  rw [exact_round2 n.cast_nonneg, whole]
  push_cast
  linarith

end Scalar

namespace Turnout

open Scalar

section

variable {part part' whole : ℝ}

theorem share_of_pos (some : 0 < whole) (part : ℝ) : share part whole = round2 (part / whole) := by
  have counted : lt (ofNat 0 : ℝ) whole = true := by
    simpa only [lt, exact_ofNat, Nat.cast_zero, decide_eq_true_eq] using some
  rw [share, if_pos counted]
  rfl

theorem share_of_nothing (none : ¬0 < whole) (part : ℝ) : share part whole = 0 := by
  have counted : ¬lt (ofNat 0 : ℝ) whole = true := by
    simpa only [lt, exact_ofNat, Nat.cast_zero, decide_eq_true_eq] using none
  rw [share, if_neg counted]
  exact Nat.cast_zero

theorem share_zero (whole : ℝ) : share 0 whole = 0 := by
  by_cases some : 0 < whole
  · rw [share_of_pos some, zero_div]
    exact_mod_cast exact_round2_natCast 0
  · exact share_of_nothing some 0

theorem share_whole (some : 0 < whole) : share whole whole = 1 := by
  rw [share_of_pos some, div_self some.ne']
  exact_mod_cast exact_round2_natCast 1

theorem share_mono (nonneg : 0 ≤ part) (le : part ≤ part') :
    share part whole ≤ share part' whole := by
  by_cases some : 0 < whole
  · rw [share_of_pos some, share_of_pos some]
    apply exact_round2_mono (div_nonneg nonneg some.le)
    gcongr
  · rw [share_of_nothing some, share_of_nothing some]

theorem share_nonneg (nonneg : 0 ≤ part) : 0 ≤ share part whole := by
  calc 0 = share 0 whole := (share_zero whole).symm
    _ ≤ share part whole := share_mono le_rfl nonneg

theorem share_le_one (nonneg : 0 ≤ part) (le : part ≤ whole) : share part whole ≤ 1 := by
  by_cases some : 0 < whole
  · calc share part whole ≤ share whole whole := share_mono nonneg le
      _ = 1 := share_whole some
  · rw [share_of_nothing some]
    exact zero_le_one

theorem share_near (some : 0 < whole) (nonneg : 0 ≤ part) :
    |share part whole - part / whole| ≤ 1 / 200 := by
  rw [share_of_pos some]
  exact exact_round2_near (div_nonneg nonneg some.le)

/-- The rounding of shares adds up to half a hundredth for each part at most. -/
theorem sum_share_near (some : 0 < whole) (parts : List ℝ) (nonneg : ∀ p ∈ parts, 0 ≤ p) :
    |(parts.map fun p => share p whole).sum - parts.sum / whole| ≤ parts.length / 200 := by
  induction parts with
  | nil => simp
  | cons p rest ih =>
      obtain ⟨first, later⟩ := List.forall_mem_cons.1 nonneg
      have head := share_near some first
      have tail := ih later
      rw [List.map_cons, List.sum_cons, List.sum_cons, List.length_cons, add_div, Nat.cast_succ]
      calc _ = |(share p whole - p / whole) +
              ((rest.map fun p => share p whole).sum - rest.sum / whole)| := by
            rw [add_sub_add_comm]
        _ ≤ 1 / 200 + rest.length / 200 := (abs_add_le _ _).trans (add_le_add head tail)
        _ = (rest.length + 1) / 200 := by ring

end

end Turnout

/-- What the variants of an experiment have shares in. -/
inductive Quantity where
  | counted (c : StreamCount)
  | rate

namespace Quantity

noncomputable def part : Quantity → Turnout ℝ → ℝ
  | counted c, t => Turnout.number (c.ofTurnout t)
  | rate, t => t.rate

noncomputable def total (q : Quantity) (outcomes : List (Outcome ℝ)) : ℝ :=
  (outcomes.map fun o => q.part o.turnout).sum

def ratio : Quantity → VariantRow ℝ → ℝ
  | counted .completed => VariantRow.completedShare
  | counted .succeeded => VariantRow.succeededShare
  | counted .failed => VariantRow.failedShare
  | rate => VariantRow.rateShare

variable {q : Quantity} {outcomes : List (Outcome ℝ)} {o : Outcome ℝ} {whole : Turnout ℝ}

/-- Shares are taken of what the variants have together. -/
theorem part_whole (q : Quantity)
    (made : Turnout.total (outcomes.map Outcome.turnout) = .ok whole) :
    q.part whole = q.total outcomes := by
  obtain ⟨counters, rates⟩ := Turnout.total_ok_iff.1 made
  cases q with
  | counted c =>
      calc (Turnout.number (c.ofTurnout whole) : ℝ)
          = (Turnout.sumNat c.ofTurnout (outcomes.map Outcome.turnout) : Nat) :=
            congrArg Nat.cast (counters c)
        _ = (outcomes.map fun o => Turnout.number (c.ofTurnout o.turnout)).sum := by
            rw [Turnout.sumNat, Nat.cast_list_sum, List.map_map, List.map_map]
            rfl
  | rate =>
      calc whole.rate = Scalar.sum ((outcomes.map Outcome.turnout).map Turnout.rate) := rates
        _ = (outcomes.map fun o => o.turnout.rate).sum := by
            rw [Scalar.exact_sum, List.map_map]
            rfl

theorem ratio_variantRow (q : Quantity) (e : Experiment) (o : Outcome ℝ) (whole : Turnout ℝ) :
    q.ratio (ExperimentReport.variantRow e o (Turnout.shares whole o.turnout)) =
      Turnout.share (q.part o.turnout) (q.part whole) := by
  cases q with
  | counted c => cases c <;> rfl
  | rate => rfl

theorem part_nonneg (rates : ∀ o ∈ outcomes, 0 ≤ o.turnout.rate) (mem : o ∈ outcomes) :
    0 ≤ q.part o.turnout := by
  cases q with
  | counted c => exact Nat.cast_nonneg _
  | rate => exact rates o mem

theorem part_le_total (rates : ∀ o ∈ outcomes, 0 ≤ o.turnout.rate) (mem : o ∈ outcomes) :
    q.part o.turnout ≤ q.total outcomes := by
  apply List.single_le_sum
  · intro p mem_p
    obtain ⟨o', mem', rfl⟩ := List.mem_map.1 mem_p
    exact part_nonneg rates mem'
  · exact List.mem_map.2 ⟨o, mem, rfl⟩

end Quantity

namespace ExperimentReport

variable {e : Experiment} {outcomes : List (Outcome ℝ)} {r : ExperimentReport ℝ} {q : Quantity}

/-- Each outcome has a row, with its shares in what all outcomes have together. -/
theorem ratios_of_ok (made : ofOutcomes e outcomes = .ok r) :
    ∃ row : Outcome ℝ → VariantRow ℝ, r.variants = outcomes.map row ∧
      ∀ (q : Quantity) (o : Outcome ℝ),
        q.ratio (row o) = Turnout.share (q.part o.turnout) (q.total outcomes) := by
  obtain ⟨whole, total, rfl⟩ := ofOutcomes_ok_iff.1 made
  refine ⟨_, rfl, fun q o => ?_⟩
  rw [Quantity.ratio_variantRow, Quantity.part_whole q total]

theorem ratio_of_mem (made : ofOutcomes e outcomes = .ok r) {v : VariantRow ℝ}
    (mem : v ∈ r.variants) : ∃ o ∈ outcomes, ∀ q : Quantity,
      q.ratio v = Turnout.share (q.part o.turnout) (q.total outcomes) := by
  obtain ⟨row, listed, each⟩ := ratios_of_ok made
  rw [listed] at mem
  obtain ⟨o, mem_o, rfl⟩ := List.mem_map.1 mem
  exact ⟨o, mem_o, fun q => each q o⟩

theorem ratio_of_mem_zip (made : ofOutcomes e outcomes = .ok r) {p : Outcome ℝ × VariantRow ℝ}
    (mem : p ∈ outcomes.zip r.variants) : p.1 ∈ outcomes ∧ ∀ q : Quantity,
      q.ratio p.2 = Turnout.share (q.part p.1.turnout) (q.total outcomes) := by
  obtain ⟨row, listed, each⟩ := ratios_of_ok made
  rw [listed, ← List.map_prod_left_eq_zip] at mem
  obtain ⟨o, mem_o, rfl⟩ := List.mem_map.1 mem
  exact ⟨mem_o, fun q => each q o⟩

/-- The ratios of a quantity add up to one, up to half a hundredth for each variant. -/
theorem sum_ratios_near (made : ofOutcomes e outcomes = .ok r)
    (rates : ∀ o ∈ outcomes, 0 ≤ o.turnout.rate) (some : 0 < q.total outcomes) :
    |(r.variants.map q.ratio).sum - 1| ≤ outcomes.length / 200 := by
  obtain ⟨row, listed, each⟩ := ratios_of_ok made
  have taken : r.variants.map q.ratio =
      (outcomes.map fun o => q.part o.turnout).map
        fun p => Turnout.share p (q.total outcomes) := by
    rw [listed, List.map_map, List.map_map]
    apply List.map_congr_left
    intro o mem
    exact each q o
  have nonneg : ∀ p ∈ outcomes.map fun o => q.part o.turnout, 0 ≤ p := by
    intro p mem
    obtain ⟨o, mem_o, rfl⟩ := List.mem_map.1 mem
    exact Quantity.part_nonneg rates mem_o
  have near := Turnout.sum_share_near some _ nonneg
  have whole : (outcomes.map fun o => q.part o.turnout).sum / q.total outcomes = 1 :=
    div_self some.ne'
  rwa [whole, List.length_map, ← taken] at near

/-- In exact arithmetic the ratios in the rows of variants add up. There is a report unless the
counters of the experiment overflow, and it has a row for each outcome. Each ratio lies between zero
and one, and a variant that has more of a quantity than another has no smaller ratio. If the
experiment has something of the quantity, each ratio is the variant's part in it up to half a
hundredth, and the ratios of all variants add up to one, up to half a hundredth for each of them. If
it has nothing, all ratios are zero. -/
theorem ratios_add_up (e : Experiment) (outcomes : List (Outcome ℝ))
    (rates : ∀ o ∈ outcomes, 0 ≤ o.turnout.rate) :
    ((∃ r, ofOutcomes e outcomes = .ok r) ↔
      ∀ c : StreamCount, Turnout.sumNat c.ofTurnout (outcomes.map Outcome.turnout) < 2 ^ 64) ∧
    ∀ r, ofOutcomes e outcomes = .ok r →
      r.variants.length = outcomes.length ∧
      ∀ q : Quantity,
        (∀ v ∈ r.variants, 0 ≤ q.ratio v ∧ q.ratio v ≤ 1) ∧
        (∀ p ∈ outcomes.zip r.variants, ∀ p' ∈ outcomes.zip r.variants,
          q.part p.1.turnout ≤ q.part p'.1.turnout → q.ratio p.2 ≤ q.ratio p'.2) ∧
        (0 < q.total outcomes →
          (∀ p ∈ outcomes.zip r.variants,
            |q.ratio p.2 - q.part p.1.turnout / q.total outcomes| ≤ 1 / 200) ∧
          |(r.variants.map q.ratio).sum - 1| ≤ outcomes.length / 200) ∧
        (q.total outcomes = 0 → ∀ v ∈ r.variants, q.ratio v = 0) := by
  refine ⟨exists_ofOutcomes_iff e outcomes, fun r made => ⟨?_, fun q => ⟨?_, ?_, fun some =>
    ⟨?_, sum_ratios_near made rates some⟩, ?_⟩⟩⟩
  · obtain ⟨row, listed, -⟩ := ratios_of_ok made
    rw [listed, List.length_map]
  · intro v mem
    obtain ⟨o, mem_o, own⟩ := ratio_of_mem made mem
    have nonneg := Quantity.part_nonneg (q := q) rates mem_o
    rw [own]
    exact ⟨Turnout.share_nonneg nonneg,
      Turnout.share_le_one nonneg (Quantity.part_le_total rates mem_o)⟩
  · intro p mem p' mem' le
    obtain ⟨mem_o, own⟩ := ratio_of_mem_zip made mem
    rw [own, (ratio_of_mem_zip made mem').2]
    exact Turnout.share_mono (Quantity.part_nonneg rates mem_o) le
  · intro p mem
    obtain ⟨mem_o, own⟩ := ratio_of_mem_zip made mem
    rw [own]
    exact Turnout.share_near some (Quantity.part_nonneg rates mem_o)
  · intro nothing v mem
    obtain ⟨o, mem_o, own⟩ := ratio_of_mem made mem
    have none : q.part o.turnout = 0 := by
      apply le_antisymm
      · rw [← nothing]
        exact Quantity.part_le_total rates mem_o
      · exact Quantity.part_nonneg rates mem_o
    rw [own, none, Turnout.share_zero]

/-- Three variants that counted alike and never failed; the last took its time. -/
noncomputable def threeAlike : List (Outcome ℝ) :=
  [("a", 1), ("b", 1), ("c", 0)].map fun v =>
    ⟨⟨v.1, 1.0, none, none, [], []⟩, ⟨1, 1, 0, v.2⟩⟩

/-- Each has a third of what was completed, up to half a hundredth, and nothing of what failed. -/
theorem ratios_add_up_threeAlike :
    (∀ o ∈ threeAlike, 0 ≤ o.turnout.rate) ∧
      (Quantity.counted .completed).total threeAlike = 3 ∧
      (Quantity.counted .failed).total threeAlike = 0 ∧
      ∃ r, ofOutcomes ⟨"basket", false, []⟩ threeAlike = .ok r ∧ r.variants.length = 3 ∧
        (∀ p ∈ threeAlike.zip r.variants, |p.2.completedShare - 1 / 3| ≤ 1 / 200) ∧
        |(r.variants.map VariantRow.completedShare).sum - 1| ≤ 3 / 200 ∧
        ∀ v ∈ r.variants, v.failedShare = 0 := by
  have rates : ∀ o ∈ threeAlike, 0 ≤ o.turnout.rate := by
    simp only [threeAlike, List.map_cons, List.map_nil, List.forall_mem_cons]
    norm_num
  have three : (Quantity.counted .completed).total threeAlike = 3 := by
    change (([1, 1, 1] : List Nat).map fun n => (n : ℝ)).sum = 3
    norm_num
  have none : (Quantity.counted .failed).total threeAlike = 0 := by
    change (([0, 0, 0] : List Nat).map fun n => (n : ℝ)).sum = 0
    norm_num
  have one : ∀ o ∈ threeAlike, (Quantity.counted .completed).part o.turnout = 1 := by
    simp only [threeAlike, List.map_cons, List.map_nil, List.forall_mem_cons]
    exact ⟨Nat.cast_one, Nat.cast_one, Nat.cast_one, nofun⟩
  obtain ⟨made_iff, report⟩ := ratios_add_up ⟨"basket", false, []⟩ threeAlike rates
  obtain ⟨r, made⟩ := made_iff.2 fun c => by cases c <;> decide
  obtain ⟨length, ratios⟩ := report r made
  obtain ⟨-, -, positive, -⟩ := ratios (.counted .completed)
  obtain ⟨-, -, -, zero⟩ := ratios (.counted .failed)
  obtain ⟨near, sum_near⟩ := positive (by rw [three]; norm_num)
  refine ⟨rates, three, none, r, made, length, ?_, sum_near, zero none⟩
  intro p mem
  have third := near p mem
  rwa [three, one p.1 (List.of_mem_zip mem).1] at third

end ExperimentReport

end BenchReport
