import BenchReport.Proofs.Stats.DoubleOrder
import BenchReport.Proofs.TableBindings
import BenchReport.Stats.Sketch
set_option autoImplicit false

namespace BenchReport.Stats

open Scalar

section Buckets

variable {v w k : Nat}

theorem bucketBits_small (small : v < 2 ^ 11) : bucketBits v = 0 := by
  have width : (v ||| 2047).log2 = 10 := by
    have lower : 2 ^ 10 ≤ v ||| 2047 := le_trans (by decide) (Nat.right_le_or (n := v))
    exact (Nat.log2_eq_iff (by omega)).2 ⟨lower, Nat.or_lt_two_pow small (by decide)⟩
  rw [bucketBits, width]

theorem bucketBits_wide (lower : 2 ^ (k + 10) ≤ v) (upper : v < 2 ^ (k + 11)) :
    bucketBits v = k := by
  have some : 0 < 2 ^ (k + 10) := Nat.two_pow_pos _
  have kept : v ≤ v ||| 2047 := Nat.left_le_or
  have narrow : 2047 < 2 ^ (k + 11) :=
    lt_of_lt_of_le (by decide) (Nat.pow_le_pow_right (by decide) (Nat.le_add_left 11 k))
  have width : (v ||| 2047).log2 = k + 10 :=
    (Nat.log2_eq_iff (by omega)).2 ⟨lower.trans kept, Nat.or_lt_two_pow upper narrow⟩
  rw [bucketBits, width, Nat.add_sub_cancel]

/-- Small values have a bucket of their own; all values of a greater bucket have the same width. -/
theorem bucketBits_cases (v : Nat) :
    (v < 2 ^ 11 ∧ bucketBits v = 0) ∨
      ∃ k, 2 ^ (k + 11) ≤ v ∧ v < 2 ^ (k + 12) ∧ bucketBits v = k + 1 := by
  rcases Nat.lt_or_ge v (2 ^ 11) with small | large
  · exact .inl ⟨small, bucketBits_small small⟩
  · have some : v ≠ 0 := by omega
    obtain ⟨k, width⟩ := Nat.exists_eq_add_of_le' ((Nat.le_log2 some).2 large)
    obtain ⟨lower, upper⟩ := (Nat.log2_eq_iff some).1 width
    exact .inr ⟨k, lower, upper, bucketBits_wide (k := k + 1) lower upper⟩

theorem bucketOf_eq (bits : bucketBits v = k) : bucketOf v = v / 2 ^ k * 2 ^ k := by
  rw [bucketOf, bits, Nat.shiftLeft_eq, Nat.shiftRight_eq_div_pow]

theorem bucketOf_small (small : v < 2 ^ 11) : bucketOf v = v := by
  rw [bucketOf_eq (bucketBits_small small), pow_zero, Nat.div_one, Nat.mul_one]

/-- The bounds of a bucket are not values of lesser width. -/
theorem le_bucketOf (lower : 2 ^ (k + 11) ≤ v) (bits : bucketBits v = k + 1) :
    2 ^ (k + 11) ≤ bucketOf v := by
  rw [bucketOf_eq bits, show k + 11 = 10 + (k + 1) by omega, Nat.pow_add]
  refine Nat.mul_le_mul_right _ ((Nat.le_div_iff_mul_le (Nat.two_pow_pos _)).2 ?_)
  rwa [← Nat.pow_add, show 10 + (k + 1) = k + 11 by omega]

theorem bucketOf_le (v : Nat) : bucketOf v ≤ v := by
  rw [bucketOf_eq rfl]
  exact Nat.div_mul_le_self v _

/-- A bucket is as wide as its values. -/
theorem bucketBits_bucketOf (v : Nat) : bucketBits (bucketOf v) = bucketBits v := by
  rcases bucketBits_cases v with ⟨small, -⟩ | ⟨k, lower, upper, bits⟩
  · rw [bucketOf_small small]
  · rw [bits]
    exact bucketBits_wide (le_bucketOf lower bits) ((bucketOf_le v).trans_lt upper)

/-- A greater value has no lesser bucket. -/
theorem bucketOf_mono (le : v ≤ w) : bucketOf v ≤ bucketOf w := by
  rcases bucketBits_cases v with ⟨small, -⟩ | ⟨k, lower, upper, bits⟩
  · rcases bucketBits_cases w with ⟨small', -⟩ | ⟨k', lower', -, bits'⟩
    · rwa [bucketOf_small small, bucketOf_small small']
    · have above : 2 ^ 11 ≤ 2 ^ (k' + 11) := Nat.pow_le_pow_right (by decide) (Nat.le_add_left _ _)
      rw [bucketOf_small small]
      exact (small.le.trans above).trans (le_bucketOf lower' bits')
  · rcases bucketBits_cases w with ⟨small', -⟩ | ⟨k', lower', upper', bits'⟩
    · have above : 2 ^ 11 ≤ 2 ^ (k + 11) := Nat.pow_le_pow_right (by decide) (Nat.le_add_left _ _)
      omega
    · rcases Nat.lt_trichotomy k k' with narrower | rfl | wider
      · have above : 2 ^ (k + 12) ≤ 2 ^ (k' + 11) := Nat.pow_le_pow_right (by decide) (by omega)
        exact (((bucketOf_le v).trans upper.le).trans above).trans (le_bucketOf lower' bits')
      · rw [bucketOf_eq bits, bucketOf_eq bits']
        exact Nat.mul_le_mul_right _ (Nat.div_le_div_right le)
      · have above : 2 ^ (k' + 12) ≤ 2 ^ (k + 11) := Nat.pow_le_pow_right (by decide) (by omega)
        omega

theorem bucketMiddle_small (small : v < 2 ^ 11) : bucketMiddle (bucketOf v) = v := by
  rw [bucketOf_small small, bucketMiddle, bucketBits_small small]
  rfl

/-- The middle of a bucket is not further from a value in it than a 2048th of the value. -/
theorem bucketMiddle_near (v : Nat) :
    |(bucketMiddle (bucketOf v) : ℚ) - v| ≤ v / 2048 := by
  rcases bucketBits_cases v with ⟨small, -⟩ | ⟨k, lower, -, bits⟩
  · rw [bucketMiddle_small small, sub_self, abs_zero]
    positivity
  · -- a bucket of `2 ^ (k + 1)` values has its middle `2 ^ k` above the least of them
    have half : (1 <<< (k + 1)) / 2 = 2 ^ k := by
      rw [Nat.shiftLeft_eq, Nat.one_mul, Nat.pow_succ, Nat.mul_div_cancel _ (by decide)]
    have least := bucketOf_le v
    have greatest : v < bucketOf v + 2 * 2 ^ k := by
      rw [bucketOf_eq bits, ← Nat.pow_succ']
      exact Nat.lt_div_mul_add (Nat.two_pow_pos _)
    have reach : 2048 * 2 ^ k ≤ v := by
      rw [Nat.mul_comm]
      exact (Nat.pow_add 2 k 11).symm.trans_le lower
    rw [bucketMiddle, bucketBits_bucketOf, bits, half]
    have least : (bucketOf v : ℚ) ≤ v := by exact_mod_cast least
    have greatest : (v : ℚ) < bucketOf v + 2 * 2 ^ k := by exact_mod_cast greatest
    have reach : (2048 * 2 ^ k : ℚ) ≤ v := by exact_mod_cast reach
    push_cast
    rw [abs_le]
    constructor <;> linarith

end Buckets

def expand (counts : List (Nat × Nat)) : List Nat :=
  counts.flatMap fun e => List.replicate e.2 e.1

section Counts

variable {counts : List (Nat × Nat)}

theorem expand_cons (e : Nat × Nat) (rest : List (Nat × Nat)) :
    expand (e :: rest) = List.replicate e.2 e.1 ++ expand rest :=
  List.flatMap_cons

/-- A bucket is found by its rank as if the values stood in line. -/
theorem bucketAt_eq {rank : Nat} (ranked : 0 < rank) :
    MedianSketch.bucketAt rank counts = (expand counts)[rank - 1]? := by
  induction counts generalizing rank with
  | nil => rfl
  | cons e rest ih =>
      obtain ⟨low, n⟩ := e
      rw [MedianSketch.bucketAt, expand_cons]
      split
      · rename_i inside
        rw [List.getElem?_append_left (by rw [List.length_replicate]; omega),
          List.getElem?_replicate, if_pos (by omega)]
      · rename_i beyond
        rw [ih (by omega), List.getElem?_append_right (by rw [List.length_replicate]; omega),
          List.length_replicate]
        congr 1
        omega

theorem mem_expand {low : Nat} (mem : low ∈ expand counts) : low ∈ counts.map (·.1) := by
  obtain ⟨e, counted, mem⟩ := List.mem_flatMap.1 mem
  rw [(List.mem_replicate.1 mem).2]
  exact List.mem_map_of_mem counted

theorem pairwise_expand (ascending : Table.Ascending counts) :
    (expand counts).Pairwise (· ≤ ·) := by
  induction counts with
  | nil => exact .nil
  | cons e rest ih =>
      obtain ⟨smaller, ascending_rest⟩ := List.pairwise_cons.1 ascending
      rw [expand_cons, List.pairwise_append]
      refine ⟨List.pairwise_replicate.2 (.inr (le_refl _)), ih ascending_rest, ?_⟩
      intro low own other mem
      obtain ⟨e', later, rfl⟩ := List.mem_map.1 (mem_expand mem)
      rw [(List.mem_replicate.1 own).2]
      exact (Nat.compare_eq_lt.1 (smaller e' later)).le

theorem count_expand (distinct : (counts.map (·.1)).Nodup) (low : Nat) :
    (expand counts).count low = (Table.lookup low counts).getD 0 := by
  induction counts with
  | nil => rfl
  | cons e rest ih =>
      obtain ⟨low', n⟩ := e
      obtain ⟨fresh, distinct_rest⟩ := List.nodup_cons.1 distinct
      rw [expand_cons, List.count_append, List.count_replicate]
      by_cases same : low = low'
      · subst same
        have none : (expand rest).count low = 0 :=
          List.count_eq_zero.2 fun mem => fresh (mem_expand mem)
        rw [none, Table.lookup_cons_self]
        simp
      · rw [ih distinct_rest, Table.lookup_cons_of_ne same]
        simp [Ne.symm same]

end Counts

namespace MedianSketch

variable {s : MedianSketch} {lows : List Nat} {m : Nat}

/-- A bucket is kept as soon as it was counted. -/
def kept? : Nat → Option Nat
  | 0 => none
  | n + 1 => some (n + 1)

theorem kept?_getD (n : Nat) : (kept? n).getD 0 = n := by cases n <;> rfl

def Counts (s : MedianSketch) (lows : List Nat) : Prop :=
  ∀ low, s.counts.get? low = kept? (lows.count low)

theorem counts_empty : Counts empty [] := fun _ => rfl

theorem Counts.record (counts : s.Counts lows) (reach : m ≤ hour) :
    (s.record m).Counts (lows ++ [bucketOf m]) := by
  have held : m < UInt32.size := reach.trans_lt (by decide)
  intro low
  rw [MedianSketch.record]
  dsimp only
  rw [if_pos held, List.count_append]
  by_cases same : low = bucketOf m
  · rw [same, Table.get?_alter_self, counts, kept?_getD, List.count_singleton_self]
    rfl
  · have other : ([bucketOf m] : List Nat).count low = 0 :=
      List.count_eq_zero.2 fun mem => same (List.mem_singleton.1 mem)
    rw [Table.get?_alter_of_ne _ _ same, counts, other]
    rfl

theorem size_eq (s : MedianSketch) : s.size = (expand s.counts.entries).length := by
  rw [size, expand, List.length_flatMap, List.sum_eq_foldr, Table.values]
  simp

theorem Counts.expand_perm (counts : s.Counts lows) : (expand s.counts.entries).Perm lows := by
  refine List.perm_iff_count.2 fun low => ?_
  rw [count_expand s.counts.nodup_keys]
  change (s.counts.get? low).getD 0 = _
  rw [counts, kept?_getD]

theorem Counts.unique {u : MedianSketch} {lows' : List Nat} (s_counts : s.Counts lows)
    (u_counts : u.Counts lows') (perm : lows.Perm lows') : s = u := by
  have same : s.counts = u.counts := by
    refine Table.ext_get? fun low => ?_
    rw [s_counts, u_counts, perm.count_eq]
  obtain ⟨counts⟩ := s
  exact congrArg MedianSketch.mk same

/-- All values of a list, each in its bucket. -/
theorem Counts.feed (counts : s.Counts lows) (values : List Float)
    (reach : ∀ x ∈ values, micros x ≤ hour) :
    (values.foldl MedianSketch.feed s).Counts (lows ++ (values.map micros).map bucketOf) := by
  induction values generalizing s lows with
  | nil => rwa [List.map_nil, List.map_nil, List.append_nil]
  | cons x rest ih =>
      have next := ih (counts.record (reach x List.mem_cons_self))
        fun y mem => reach y (List.mem_cons_of_mem x mem)
      rwa [List.append_assoc, List.singleton_append] at next

/-- The buckets of the values in ascending order. -/
theorem Counts.expand_eq {held : List Nat} (counts : s.Counts (held.map bucketOf)) :
    expand s.counts.entries = held.mergeSort.map bucketOf := by
  have sorted : held.mergeSort.Pairwise (· ≤ ·) := List.pairwise_mergeSort' _ held
  refine List.Perm.eq_of_pairwise (fun _ _ _ _ => Nat.le_antisymm)
    (pairwise_expand s.counts.ascending) ?_ ?_
  · exact List.pairwise_map.2 (sorted.imp bucketOf_mono)
  · exact counts.expand_perm.trans ((List.mergeSort_perm held _).map bucketOf).symm

/-- No number is above and below zero. -/
theorem nonneg_of_lt {x : Float} (below : x < 0.0) : nonneg x = ofNat 0 := by
  have zero : (0.0 : Float).toModel.unpack = .zero .positive := rfl
  have above : ¬ (ofNat 0 : Float) < x := by
    change ¬ (0.0 : Float) < x
    rw [Double.lt_iff_compare, zero] at below ⊢
    cases eq : x.toModel.unpack with
    | notANumber => exact nofun
    | zero s => exact nofun
    | infinity s =>
        rw [eq] at below
        cases s
        · exact nofun
        · cases below
    | finite s m e h =>
        rw [eq] at below
        cases s
        · exact nofun
        · cases below
  exact if_neg (by simpa [Scalar.lt] using above)

/-- What is not finite or below zero counts as zero. -/
theorem micros_eq_zero {x : Float} (out : x.isFinite = false ∨ x < 0.0) : micros x = 0 := by
  have zero : nonneg (finite x) = (ofNat 0 : Float) := by
    by_cases kept : x.isFinite = true
    · have same : finite x = x := if_pos kept
      rw [same]
      exact nonneg_of_lt (out.resolve_left fun infinite => nomatch kept.symm.trans infinite)
    · have cut : finite x = ofNat 0 := if_neg kept
      rw [cut]
      exact ite_self _
  rw [micros, zero]
  decide +kernel

/-- The median of a sketch lies within a 2048th of the lower median of the values in microseconds,
and is exactly that below 2048; it does not depend on the order of the values. What is not finite or
below zero counts as zero. -/
theorem median_accurate (values : List Float) (some : values ≠ [])
    (reach : ∀ x ∈ values, micros x ≤ hour) :
    let s := values.foldl feed empty
    ∃ v, (values.map micros).mergeSort[(values.length + 1) / 2 - 1]? = .some v ∧
      |(s.median : ℚ) - v| ≤ v / 2048 ∧ (v < 2048 → s.median = v) ∧
      (s.value : Float) = ofNat s.median / ofNat 1000000 ∧ s.size = values.length ∧
      (∀ values' : List Float, values'.Perm values → (values'.foldl feed empty).median = s.median) ∧
      ∀ x : Float, x.isFinite = false ∨ x < 0.0 → micros x = 0 := by
  intro s
  have counts : s.Counts ((values.map micros).map bucketOf) := counts_empty.feed values reach
  have size : s.size = values.length := by
    rw [size_eq, counts.expand_perm.length_eq, List.length_map, List.length_map]
  have nonempty : 0 < values.length := List.length_pos_iff.2 some
  have inside : (values.length + 1) / 2 - 1 < (values.map micros).mergeSort.length := by
    rw [List.length_mergeSort, List.length_map]
    omega
  obtain ⟨v, middle⟩ : ∃ v,
      (values.map micros).mergeSort[(values.length + 1) / 2 - 1]? = .some v :=
    ⟨_, List.getElem?_eq_getElem inside⟩
  have median : s.median = bucketMiddle (bucketOf v) := by
    have found : bucketAt ((s.size + 1) / 2) s.counts.entries = .some (bucketOf v) := by
      rw [bucketAt_eq (by omega), counts.expand_eq, List.getElem?_map, size, middle]
      rfl
    rw [MedianSketch.median, found]
  refine ⟨v, middle, ?_, fun small => ?_, rfl, size, fun values' perm => ?_,
    fun x out => micros_eq_zero out⟩
  · rw [median]
    exact bucketMiddle_near v
  · rw [median]
    exact bucketMiddle_small small
  · have counts' := counts_empty.feed values' fun x mem => reach x (perm.mem_iff.1 mem)
    exact congrArg MedianSketch.median (counts'.unique counts ((perm.map micros).map bucketOf))

/-- Two values count as zero and one is as long as an hour; the median is answered by the middle of
a bucket of 128 values. -/
theorem median_accurate_quarter :
    let values : List Float := [-1.0, 0.25, 3600.0, 1.0 / 0.0, 0.25, 0.25]
    values ≠ [] ∧ (∀ x ∈ values, micros x ≤ hour) ∧ (values.foldl feed empty).median = 250048 ∧
      (values.foldl feed empty).size = 6 ∧
      ∃ v : Nat, (values.map micros).mergeSort[2]? = .some v ∧ |(250048 : ℚ) - v| ≤ v / 2048 := by
  intro values
  have some : values ≠ [] := nofun
  have reach : ∀ x ∈ values, micros x ≤ hour := by decide +kernel
  obtain ⟨v, middle, near, -, -, size, -⟩ := median_accurate values some reach
  have median : (values.foldl feed empty).median = 250048 := by decide +kernel
  have third : (values.length + 1) / 2 - 1 = 2 := by decide +kernel
  rw [third] at middle
  rw [median] at near
  exact ⟨some, reach, median, size, v, middle, near⟩

end MedianSketch

end BenchReport.Stats
