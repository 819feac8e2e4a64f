import Mathlib
import BenchReport.Proofs.Stats.DoubleValues
import BenchReport.Proofs.Stats.Interpolation
set_option autoImplicit false

namespace BenchReport

open Scalar Stats

structure Summary.Ordered (s : Summary ℝ) : Prop where
  ascending : (s.minimum :: s.quantiles.toList ++ [s.maximum]).Pairwise (· ≤ ·)
  median : s.quantile? 50 = some s.median
  mean_above : s.minimum ≤ s.mean
  mean_below : s.mean ≤ s.maximum
  variance_nonneg : 0 ≤ s.variance

namespace Stats

theorem exact_ordered_ascending (xs : List ℝ) : (ordered xs).Pairwise (· ≤ ·) := by
  simp only [ordered]
  split
  · exact List.pairwise_singleton _ _
  · have transitive : ∀ x y z : ℝ, before x y = true → before y z = true → before x z = true := by
      intro x y z first second
      exact decide_eq_true ((of_decide_eq_true first).trans (of_decide_eq_true second))
    have total : ∀ x y : ℝ, (before x y || before y x) = true := by
      intro x y
      simpa [before] using le_total x y
    exact (List.pairwise_mergeSort transitive total _).imp of_decide_eq_true

theorem ordered_ne_nil {α : Type} [Scalar α] (xs : List α) : ordered xs ≠ [] := by
  simp only [ordered]
  split
  · exact List.cons_ne_nil _ _
  · rename_i some
    intro none
    rw [← List.length_eq_zero_iff, List.length_mergeSort, List.length_eq_zero_iff] at none
    exact some (List.isEmpty_iff.2 none)

theorem levels_ascending : levels.toList.Pairwise (· ≤ ·) := by decide

theorem exact_quantiles_ascending (xs : List ℝ) :
    (levels.toList.map fun q => quantile (ordered xs) (ofNat q / ofNat 100)).Pairwise (· ≤ ·) :=
  levels_ascending.map _ fun _ _ le => quantile_mono (exact_ordered_ascending xs)
    (div_le_div_of_nonneg_right (Nat.cast_le.2 le) (Nat.cast_nonneg _))

end Stats

namespace Summary

theorem minimum_ofSamples (xs : List ℝ) :
    (ofSamples xs).minimum = (ordered xs).head (ordered_ne_nil xs) := by
  change (ordered xs).headD _ = _
  rw [List.headD_eq_head?_getD, List.head?_eq_some_head (ordered_ne_nil xs), Option.getD_some]

theorem maximum_ofSamples (xs : List ℝ) :
    (ofSamples xs).maximum = (ordered xs).getLast (ordered_ne_nil xs) := by
  change (ordered xs).getLastD _ = _
  rw [List.getLastD_eq_getLast?, List.getLast?_eq_some_getLast (ordered_ne_nil xs),
    Option.getD_some]

theorem quantiles_ofSamples (xs : List ℝ) :
    (ofSamples xs).quantiles.toList =
      levels.toList.map fun q => quantile (ordered xs) (ofNat q / ofNat 100) :=
  Vector.toList_map

theorem ofSamples_ordered (xs : List ℝ) : (ofSamples xs).Ordered := by
  have ascending := exact_ordered_ascending xs
  have sampled := ordered_ne_nil xs
  have ends := quantile_mem_ends ascending sampled
  have mean := mean_mem_ends ascending sampled
  rw [← minimum_ofSamples, ← maximum_ofSamples] at mean
  refine ⟨?_, ?_, mean.1, mean.2, exact_variance_nonneg _⟩
  · rw [quantiles_ofSamples, minimum_ofSamples, maximum_ofSamples]
    refine List.pairwise_append.2 ⟨List.pairwise_cons.2 ⟨?_, exact_quantiles_ascending xs⟩,
      List.pairwise_singleton _ _, ?_⟩
    · exact List.forall_mem_map.2 fun q _ => (ends _).1
    · intro x mem y last
      rw [List.mem_singleton.1 last]
      rcases List.mem_cons.1 mem with rfl | mem
      · exact (ends 0).1.trans (ends 0).2
      · obtain ⟨q, -, rfl⟩ := List.mem_map.1 mem
        exact (ends _).2
  · have half : (ofNat 50 / ofNat 100 : ℝ) = ofNat 1 / ofNat 2 := by
      norm_num [exact_ofNat]
    rw [quantile?, quantiles_ofSamples]
    change some (quantile (ordered xs) (ofNat 50 / ofNat 100)) = _
    rw [half]
    rfl

theorem ofSamples_nil : (ofSamples [] : Summary ℝ) = zero := by
  have centre : Stats.mean [(ofNat 0 : ℝ)] = ofNat 0 := by
    simp [exact_mean, average, exact_ofNat]
  have root : (sqrt (ofNat 0) : ℝ) = ofNat 0 := by
    rw [exact_ofNat, Nat.cast_zero]
    exact Real.sqrt_zero
  change Summary.mk (ofNat 0) (Stats.mean [ofNat 0]) (ofNat 0) (sqrt (ofNat 0)) (ofNat 0) (ofNat 0)
    (levels.map fun _ => ofNat 0) = _
  rw [centre, root, Vector.map_const']
  rfl

end Summary

namespace Stats

open Extended

theorem reached_extended (series : List Extended) (q : Extended) (two : 2 ≤ series.length) :
    Reached series q := by
  have some : 0 < series.length := Nat.zero_lt_of_lt two
  by_cases defined : q = undefined
  · have nowhere : position series.length q = undefined := by
      rw [defined, position, clampUnit]
      simp [lt]
      rfl
    refine reached_of_lt two ?_ ?_ <;> rw [nowhere] <;> exact some
  · have somewhere : position series.length q = real (position series.length q.unit) := by
      rw [position, clampUnit_eq_unit defined]
      rfl
    refine reached_of_lt two ?_ ?_ <;> rw [somewhere]
    · exact exact_floor_lt some _
    · exact exact_ceil_lt some _

/-- The position of a fraction in a series of doubles is never beyond the series. -/
theorem upTo_position {n : Nat} (two : 2 ≤ n) (small : n ≤ 2 ^ 53) (q : Float) :
    Double.UpTo (n - 1) (position n q) := by
  have bound := (Double.upTo_clampUnit q).mul (.ofNat (n := n - 1) (by omega) (by omega)) (by omega)
  rwa [Nat.one_mul] at bound

theorem reached_doubles (series : List Float) (q : Float) (two : 2 ≤ series.length)
    (small : series.length ≤ 2 ^ 53) : Reached series q := by
  have bound := upTo_position two small q
  refine reached_of_lt two (bound.floor_le.trans_lt ?_)
    ((bound.ceil_le ?_ ?_).trans_lt ?_) <;> omega

/-- The figures of every summary are in order, and all zero if no sample is finite; what the doubles
are put in order for is the series of their numbers in order. The quantiles of an ascending series
rise with the fraction and lie between its first and its last value. No quantile is taken from
beyond the series, whatever the values and the fraction are, and on doubles neither, as long as the
positions are doubles too. -/
theorem quantiles_in_order :
    (∀ samples : List Extended, ∃ s : Summary ℝ,
      Summary.ofSamples samples = s.map real ∧ s.Ordered ∧
        ((∀ x ∈ samples, isFinite x = false) → s = Summary.zero)) ∧
    (∀ samples : List Float,
      (ordered samples).map Double.exactly = ordered (samples.map Double.exactly)) ∧
    (∀ xs : List ℝ, xs.Pairwise (· ≤ ·) → ∃ value : Extended → ℝ, ∀ q, q ≠ undefined →
      quantile (xs.map real) q = real (value q) ∧
        (∀ sampled : xs ≠ [], xs.head sampled ≤ value q ∧ value q ≤ xs.getLast sampled) ∧
        ∀ q', q' ≠ undefined → before q q' = true → value q ≤ value q') ∧
    (∀ (series : List Extended) (q : Extended), 2 ≤ series.length → Reached series q) ∧
    ∀ (series : List Float) (q : Float), 2 ≤ series.length → series.length ≤ 2 ^ 53 →
      Reached series q := by
  refine ⟨fun samples => ?_, ordered_exactly, fun xs ascending => ?_, reached_extended,
    reached_doubles⟩
  · refine ⟨.ofSamples (reals samples), ofSamples_eq samples, Summary.ofSamples_ordered _,
      fun none => ?_⟩
    have kept : (reals samples).map real = [] := by
      rw [← filter_isFinite, List.filter_eq_nil_iff]
      intro x mem
      rw [none x mem]
      exact Bool.false_ne_true
    rw [List.map_eq_nil_iff.1 kept]
    exact Summary.ofSamples_nil
  · refine ⟨fun q => quantile xs q.unit, fun q defined => ⟨?_, ?_, ?_⟩⟩
    · exact quantile_map_real xs (clampUnit_eq_unit defined)
    · exact fun sampled => quantile_mem_ends ascending sampled _
    · exact fun q' defined' le => quantile_mono ascending (unit_mono defined' le)

/-- Two finite samples among others, a series without any, and fractions beyond the interval from
zero to one. -/
theorem quantiles_in_order_two_samples :
    (∃ s : Summary ℝ,
      Summary.ofSamples [real 3, undefined, real 1, infinite true] = s.map real ∧ s.Ordered) ∧
    Summary.ofSamples [undefined, infinite false] = Summary.zero.map real ∧
    (∃ least greatest : ℝ, quantile [real 1, real 3] (infinite false) = real least ∧
      quantile [real 1, real 3] (real 2) = real greatest ∧ 1 ≤ least ∧ least ≤ greatest ∧
      greatest ≤ 3) ∧
    Reached [infinite true, real 0, undefined] undefined ∧ Reached [1.0, 3.0] (7.5 : Float) := by
  obtain ⟨figures, -, values, reached, on_doubles⟩ := quantiles_in_order
  obtain ⟨s, summary, in_order, -⟩ := figures [real 3, undefined, real 1, infinite true]
  obtain ⟨s', summary', -, zero⟩ := figures [undefined, infinite false]
  obtain ⟨value, known⟩ := values [1, 3] (by norm_num)
  have two : [(1 : ℝ), 3] ≠ [] := List.cons_ne_nil _ _
  obtain ⟨first, first_ends, rises⟩ := known (infinite false) nofun
  obtain ⟨last, last_ends, -⟩ := known (real 2) nofun
  have none : ∀ x ∈ [undefined, infinite false], isFinite x = false := by
    rintro x (_ | ⟨_, _ | ⟨_, ⟨⟩⟩⟩) <;> rfl
  refine ⟨⟨s, summary, in_order⟩, zero none ▸ summary', ⟨_, _, first, last, (first_ends two).1,
    rises (real 2) nofun ?_, (last_ends two).2⟩, reached _ _ (by decide),
    on_doubles _ _ (by decide) (by decide)⟩
  rw [Extended.before_iff]
  exact WithTop.coe_le_coe.2 bot_le

end Stats

end BenchReport
