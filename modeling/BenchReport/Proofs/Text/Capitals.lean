import BenchReport.Text.Upper
set_option autoImplicit false

namespace BenchReport.Text

namespace CapitalRun

def capital (r : CapitalRun) (n : Nat) : Nat := ((n : Int) + r.shift).toNat

/-- None of the run's capitals is in the run `s`, by the ends and the steps of both. -/
def avoids (r s : CapitalRun) : Bool :=
  Nat.blt (r.capital r.last) s.first || Nat.blt s.last (r.capital r.first) ||
    (r.step % s.step == 0 || r.first == r.last) &&
      r.capital r.first % s.step != s.first % s.step

def single (n : Nat) : CapitalRun := ⟨n, n, 1, 0⟩

theorem single_holds (n : Nat) : (single n).holds n = true := by
  simp [single, holds]

variable {r s : CapitalRun} {n : Nat}

theorem holds_iff :
    r.holds n = true ↔ r.first ≤ n ∧ n ≤ r.last ∧ (n - r.first) % r.step = 0 := by
  simp [holds, and_assoc]

/-- The capitals of a run are as far apart as its characters. -/
theorem capital_eq (positive : 0 ≤ (r.first : Int) + r.shift) (least : r.first ≤ n) :
    r.capital n = r.capital r.first + (n - r.first) := by
  unfold capital
  omega

theorem avoids_sound (positive : 0 ≤ (r.first : Int) + r.shift) (avoids : r.avoids s = true)
    (held : r.holds n = true) : s.holds (r.capital n) = false := by
  obtain ⟨least, most, step⟩ := holds_iff.1 held
  have start := capital_eq positive least
  have stop := capital_eq positive (Nat.le_trans least most)
  rw [Bool.eq_false_iff]
  intro inside
  obtain ⟨least', most', step'⟩ := holds_iff.1 inside
  simp only [CapitalRun.avoids, Nat.blt_eq, Bool.or_eq_true, Bool.and_eq_true, beq_iff_eq,
    bne_iff_ne, ne_eq] at avoids
  obtain (before | behind) | ⟨even, odd⟩ := avoids
  · omega
  · omega
  · apply odd
    have whole : (n - r.first) % s.step = 0 := by
      rcases even with divides | one
      · exact Nat.mod_eq_zero_of_dvd
          (Nat.dvd_trans (Nat.dvd_of_mod_eq_zero divides) (Nat.dvd_of_mod_eq_zero step))
      · rw [show n - r.first = 0 by omega, Nat.zero_mod]
    have behind : r.capital n = s.first + (r.capital n - s.first) := by omega
    have same : r.capital n % s.step = s.first % s.step := by
      rw [behind, Nat.add_mod, step', Nat.add_zero, Nat.mod_mod]
    rw [← same, start, Nat.add_mod, whole, Nat.add_zero, Nat.mod_mod]

end CapitalRun

/-- A character that the tables give another upper case than itself. -/
def HasCapital (n : Nat) : Prop :=
  (∃ e ∈ capitalSequences, e.1 = n) ∨ ∃ r ∈ capitalRuns, r.holds n = true

theorem upperChar_of_not_hasCapital {c : Char} (lacks : ¬HasCapital c.toNat) :
    upperChar c = [c] := by
  have unlisted : capitalSequences.lookup c.toNat = none := by
    rw [List.lookup_eq_none_iff]
    intro e mem
    rw [bne_iff_ne]
    intro same
    exact lacks (.inl ⟨e, mem, same.symm⟩)
  have outside : capitalRuns.find? (·.holds c.toNat) = none := by
    rw [List.find?_eq_none]
    intro r mem held
    exact lacks (.inr ⟨r, mem, held⟩)
  unfold upperChar
  rw [unlisted, outside]

theorem runs_apart : (capitalRuns.all fun r => capitalRuns.all r.avoids) = true := by
  decide +kernel

theorem runs_apart_sequences :
    (capitalRuns.all fun r => capitalSequences.all fun e => r.avoids (.single e.1)) = true := by
  decide +kernel

theorem sequences_apart : (capitalSequences.all fun e => e.2.all fun n =>
    capitalSequences.all (·.1 != n) && capitalRuns.all (! ·.holds n)) = true := by
  decide +kernel

theorem runs_positive : ∀ r ∈ capitalRuns, 0 ≤ (r.first : Int) + r.shift := by decide +kernel

theorem not_hasCapital_of_sequence {e : Nat × List Nat} (mem : e ∈ capitalSequences) {n : Nat}
    (capital : n ∈ e.2) : ¬HasCapital n := by
  have apart := List.all_eq_true.1 (List.all_eq_true.1 sequences_apart e mem) n capital
  simp only [Bool.and_eq_true, List.all_eq_true, bne_iff_ne, Bool.not_eq_true'] at apart
  rintro (⟨e', mem', same⟩ | ⟨r, mem', held⟩)
  · exact apart.1 e' mem' same
  · rw [apart.2 r mem'] at held
    cases held

theorem not_hasCapital_of_run {r : CapitalRun} (mem : r ∈ capitalRuns) {n : Nat}
    (held : r.holds n = true) : ¬HasCapital (r.capital n) := by
  have positive := runs_positive r mem
  rintro (⟨e, mem', same⟩ | ⟨s, mem', inside⟩)
  · have apart := List.all_eq_true.1 (List.all_eq_true.1 runs_apart_sequences r mem) e mem'
    have outside := CapitalRun.avoids_sound positive apart held
    rw [← same, CapitalRun.single_holds] at outside
    cases outside
  · have apart := List.all_eq_true.1 (List.all_eq_true.1 runs_apart r mem) s mem'
    rw [CapitalRun.avoids_sound positive apart held] at inside
    cases inside

/-- A number that no character has becomes the character zero. -/
theorem toNat_ofNat (n : Nat) : (Char.ofNat n).toNat = n ∨ (Char.ofNat n).toNat = 0 := by
  by_cases valid : n.isValidChar
  · have made : Char.ofNat n = Char.ofNatAux n valid := dif_pos valid
    exact .inl (congrArg Char.toNat made)
  · have zero : Char.ofNat n = Char.ofNat 0 := dif_neg valid
    exact .inr (congrArg Char.toNat zero)

theorem not_hasCapital_zero : ¬HasCapital 0 := by
  unfold HasCapital
  decide +kernel

theorem upperChar_ofNat {n : Nat} (lacks : ¬HasCapital n) :
    upperChar (Char.ofNat n) = [Char.ofNat n] := by
  apply upperChar_of_not_hasCapital
  rcases toNat_ofNat n with same | zero
  · rw [same]
    exact lacks
  · rw [zero]
    exact not_hasCapital_zero

/-- The upper case of a character consists of characters that are their own upper case. -/
theorem upperChar_upperChar {c d : Char} (mem : d ∈ upperChar c) : upperChar d = [d] := by
  unfold upperChar at mem
  split at mem
  · next ns listed =>
      obtain ⟨n, capital, rfl⟩ := List.mem_map.1 mem
      obtain ⟨before, behind, table, -⟩ := List.lookup_eq_some_iff.1 listed
      have own : (c.toNat, ns) ∈ capitalSequences := by simp [table]
      exact upperChar_ofNat (not_hasCapital_of_sequence own capital)
  · next unlisted =>
      split at mem
      · next r found =>
          obtain rfl := List.mem_singleton.1 mem
          have own : r ∈ capitalRuns := List.mem_of_find?_eq_some found
          have held : r.holds c.toNat = true := by simpa using List.find?_some found
          exact upperChar_ofNat (not_hasCapital_of_run own held)
      · next outside =>
          obtain rfl := List.mem_singleton.1 mem
          unfold upperChar
          rw [unlisted, outside]

/-- Text in upper case is its own upper case. -/
theorem upper_upper (s : String) : upper (upper s) = upper s := by
  have own : ∀ cs : List Char, (∀ c ∈ cs, upperChar c = [c]) → cs.flatMap upperChar = cs := by
    intro cs fixed
    induction cs with
    | nil => rfl
    | cons c cs ih =>
        obtain ⟨first, rest⟩ := List.forall_mem_cons.1 fixed
        rw [List.flatMap_cons, first, ih rest, List.singleton_append]
  rw [upper, upper, String.toList_ofList, own]
  intro d mem
  obtain ⟨c, -, mem⟩ := List.mem_flatMap.1 mem
  exact upperChar_upperChar mem

end BenchReport.Text
