import BenchReport.Proofs.Outcome
import BenchReport.Proofs.Text.Base64
set_option autoImplicit false

namespace BenchReport.Text.Base64

/-- A byte that stands for a sextet is its symbol. -/
theorem symbolByte_of_sextet? {b : UInt8} {v : Nat} (read : sextet? b = some v) :
    b = symbolByte v ∧ v < 64 := by
  have all : ∀ n < 256, ∀ v ∈ sextet? (UInt8.ofNat n), UInt8.ofNat n = symbolByte v ∧ v < 64 := by
    decide +kernel
  have own := all b.toNat b.toNat_lt v
  rw [UInt8.ofNat_toNat] at own
  exact own read

theorem sextets_ok {offset : Nat} {bs : List UInt8} {vs : List Nat}
    (read : sextets offset bs = .ok vs) : bs = vs.map symbolByte ∧ ∀ v ∈ vs, v < 64 := by
  induction bs generalizing offset vs with
  | nil =>
      cases read
      exact ⟨rfl, List.forall_mem_nil _⟩
  | cons b bs ih =>
      rw [sextets] at read
      cases first : sextet? b with
      | none =>
          rw [first] at read
          cases read
      | some v =>
          rw [first] at read
          obtain ⟨vs, later, rfl⟩ := Outcome.map_ok read
          obtain ⟨symbol, small⟩ := symbolByte_of_sextet? first
          obtain ⟨symbols, others⟩ := ih later
          exact ⟨by rw [List.map_cons, symbol, symbols], List.forall_mem_cons.2 ⟨small, others⟩⟩

/-- The last group is symbols with nothing but padding behind them. Once padding was seen no symbol
is accepted any more. -/
theorem lastGroup_ok {start place : Nat} {seen group : List (UInt8 × Nat)} {firstPad : Option Nat}
    {before count : Nat} {bs : List UInt8}
    (read : lastGroup start place seen firstPad before bs = .ok (group, count)) :
    ∃ vs added, bs = vs.map symbolByte ++ List.replicate added padding ∧
      group = seen.reverse ++ vs.map (fun v => (symbolByte v, v)) ∧ count = before + added ∧
      (∀ v ∈ vs, v < 64) ∧ (firstPad ≠ none → vs = []) := by
  induction bs generalizing place seen firstPad before with
  | nil =>
      cases read
      exact ⟨[], 0, rfl, (List.append_nil _).symm, rfl, List.forall_mem_nil _, fun _ => rfl⟩
  | cons b bs ih =>
      rw [lastGroup.eq_def] at read
      simp only at read
      by_cases pad : b = padding
      · rw [if_pos pad] at read
        by_cases early : place < 2
        · rw [if_pos early] at read
          cases read
        · rw [if_neg early] at read
          obtain ⟨vs, added, text, grouped, counted, -, padded⟩ := ih read
          have nothing : vs = [] := padded (by cases firstPad <;> simp)
          subst nothing
          refine ⟨[], added + 1, ?_, grouped, by omega, List.forall_mem_nil _, fun _ => rfl⟩
          rw [pad, text]
          rfl
      · rw [if_neg pad] at read
        cases firstPad with
        | some p => cases read
        | none =>
            cases first : sextet? b with
            | none =>
                rw [first] at read
                cases read
            | some v =>
                rw [first] at read
                obtain ⟨vs, added, text, grouped, counted, others, -⟩ := ih read
                obtain ⟨symbol, small⟩ := symbolByte_of_sextet? first
                refine ⟨v :: vs, added, ?_, ?_, counted, List.forall_mem_cons.2 ⟨small, others⟩,
                  fun padded => absurd rfl padded⟩
                · rw [text, List.map_cons, List.cons_append, symbol]
                · rw [grouped, List.reverse_cons, List.append_assoc, symbol]
                  rfl

/-- Sextets that bytes may have been cut into: no sextet stands alone at the end, and the bits of
the last one that no byte uses are zero. -/
structure Cut (vs : List Nat) : Prop where
  small : ∀ v ∈ vs, v < 64
  paired : vs.length % 4 ≠ 1
  unused : ∀ v ∈ vs.getLast?, unusedBits (vs.length % 4) v = 0

/-- Bytes that were packed from such sextets are cut into the same sextets. -/
theorem Cut.sextetsOf_pack {vs : List Nat} (cut : Cut vs) : sextetsOf (pack vs) = vs := by
  have byte (n : Nat) (fits : n < 256) : (UInt8.ofNat n).toNat = n :=
    UInt8.toNat_ofNat_of_lt' fits
  obtain ⟨small, paired, unused⟩ := cut
  fun_induction pack vs with
  | case1 a b c d rest ih =>
      simp only [List.forall_mem_cons] at small
      obtain ⟨a_small, b_small, c_small, d_small, others⟩ := small
      have same : sextetsOf (pack rest) = rest := by
        apply ih others
        · simp only [List.length_cons] at paired
          omega
        · intro v last
          have length : (a :: b :: c :: d :: rest).length % 4 = rest.length % 4 := by
            simp only [List.length_cons]
            omega
          rw [← length]
          apply unused
          cases rest with
          | nil => cases last
          | cons w ws => simpa using last
      rw [sextetsOf, same, byte _ (by omega), byte _ (by omega), byte _ (by omega)]
      simp only [List.cons.injEq, and_true]
      omega
  | case2 a b c =>
      simp only [List.forall_mem_cons] at small
      have zero : c % 4 = 0 := unused c rfl
      rw [sextetsOf, byte _ (by omega), byte _ (by omega)]
      simp only [List.cons.injEq, and_true]
      omega
  | case3 a b =>
      simp only [List.forall_mem_cons] at small
      have zero : b % 16 = 0 := unused b rfl
      rw [sextetsOf, byte _ (by omega)]
      simp only [List.cons.injEq, and_true]
      omega
  | case4 vs long three two =>
      -- What is left is the empty list and a sextet alone.
      match vs with
      | [] => rfl
      | [a] => exact absurd rfl paired
      | [a, b] => exact absurd rfl (two a b)
      | [a, b, c] => exact absurd rfl (three a b c)
      | a :: b :: c :: d :: rest => exact absurd rfl (long a b c d rest)

/-- What is found in a text that is decoded: sextets in whole groups, and a last group that padding
fills up. The text ends with the last group unless it is empty. -/
structure Found (text : List UInt8) (front group : List Nat) (count : Nat) : Prop where
  text_eq : text = front.map symbolByte ++ (group.map symbolByte ++ List.replicate count padding)
  front_small : ∀ v ∈ front, v < 64
  group_small : ∀ v ∈ group, v < 64
  start : front.length = text.length - if text.length % 4 = 0 then 4 else text.length % 4
  long : text.length ≠ 0 → 2 ≤ group.length
  filled : (count + group.length) % 4 = 0
  unused : ∀ v ∈ group.getLast?, unusedBits group.length v = 0

/-- A text that is decoded passed every check, and its sextets were packed. -/
theorem decode_found {text bs : List UInt8} (decoded : decode text = .ok bs) :
    ∃ front group count, Found text front group count ∧ bs = pack (front ++ group) := by
  unfold decode at decoded
  extract_lets size start rest at decoded
  have walked : rest () = .ok bs := by
    split at decoded
    · split at decoded
      · cases decoded
      · exact decoded
    · exact decoded
  obtain ⟨front, read_front, walked⟩ := Outcome.bind_ok walked
  obtain ⟨⟨seen, count⟩, read_group, walked⟩ := Outcome.bind_ok walked
  dsimp only at walked
  split at walked
  · cases walked
  next long =>
  split at walked
  · cases walked
  next filled =>
  have packed : (∀ e ∈ seen.getLast?, unusedBits seen.length e.2 = 0) ∧
      pack (front ++ seen.map (·.2)) = bs := by
    split at walked
    · next b v final =>
        split at walked
        · cases walked
        · next used =>
            rw [final]
            exact ⟨by simpa using used, Except.ok.inj walked⟩
    · next final =>
        rw [final]
        exact ⟨nofun, Except.ok.inj walked⟩
  obtain ⟨unused, packed⟩ := packed
  obtain ⟨front_text, front_small⟩ := sextets_ok read_front
  obtain ⟨group, added, group_text, rfl, rfl, group_small, -⟩ := lastGroup_ok read_group
  rw [List.reverse_nil, List.nil_append] at packed unused long filled
  rw [Nat.zero_add] at filled
  simp only [List.map_map, Function.comp_def, List.map_id'] at packed
  rw [List.length_map] at long filled unused
  have front_length : front.length = start := by
    have taken := congrArg List.length front_text
    rw [List.length_take, List.length_map] at taken
    omega
  refine ⟨front, group, added, ⟨?_, front_small, group_small, front_length, ?_, ?_, ?_⟩,
    packed.symm⟩
  · rw [← front_text, ← group_text, List.take_append_drop]
  · intro some_byte
    have short := not_and.1 long some_byte
    omega
  · omega
  · intro v final
    refine unused (symbolByte v, v) ?_
    rw [List.getLast?_map, Option.mem_def.1 final]
    rfl

namespace Found

variable {text : List UInt8} {front group : List Nat} {count : Nat}

theorem length (found : Found text front group count) :
    text.length = front.length + (group.length + count) := by
  rw [found.text_eq]
  simp

/-- There is no text, or whole groups stand before a last group of four. -/
theorem lengths (found : Found text front group count) :
    (front = [] ∧ group = [] ∧ count = 0) ∨
      (front.length % 4 = 0 ∧ group.length + count = 4 ∧ 2 ≤ group.length) := by
  have length := found.length
  have start := found.start
  have long := found.long
  have filled := found.filled
  by_cases empty : text.length = 0
  · refine .inl ⟨List.eq_nil_of_length_eq_zero ?_, List.eq_nil_of_length_eq_zero ?_, ?_⟩ <;> omega
  · split at start <;> omega

theorem cut (found : Found text front group count) : Cut (front ++ group) := by
  refine ⟨List.forall_mem_append.2 ⟨found.front_small, found.group_small⟩, ?_, fun v final => ?_⟩
  · rcases found.lengths with ⟨rfl, rfl, -⟩ | ⟨whole, four, some_byte⟩
    · decide
    · rw [List.length_append]
      omega
  · rcases found.lengths with ⟨rfl, rfl, -⟩ | ⟨whole, four, some_byte⟩
    · cases final
    · have some_symbol : group ≠ [] := by
        rintro rfl
        cases some_byte
      rw [List.getLast?_append_of_ne_nil front some_symbol] at final
      have zero := found.unused v final
      rw [List.length_append]
      rcases (by omega : group.length = 4 ∨ (front.length + group.length) % 4 = group.length)
        with full | fewer
      · rw [show (front.length + group.length) % 4 = 0 by omega]
        rfl
      · rwa [fewer]

end Found

/-- A text is decoded as some bytes exactly when it is what the bytes are encoded as. -/
theorem decode_ok_iff {text bs : List UInt8} :
    decode text = .ok bs ↔ text = (String.ofList (encode bs)).toUTF8.data.toList := by
  constructor
  · intro decoded
    obtain ⟨front, group, count, found, packed⟩ := decode_found decoded
    have sextets : sextetsOf bs = front ++ group := by rw [packed, found.cut.sextetsOf_pack]
    obtain ⟨own_filled, own_few, -⟩ := length_sextetsOf bs
    have padded : pads bs = count := by
      rw [sextets, List.length_append] at own_filled
      rcases found.lengths with ⟨rfl, rfl, rfl⟩ | ⟨whole, four, some_byte⟩
      · rw [List.length_nil] at own_filled
        omega
      · omega
    rw [toUTF8_encode, sextets, padded, found.text_eq, List.map_append, List.append_assoc]
  · rintro rfl
    exact decode_encode bs

end BenchReport.Text.Base64
