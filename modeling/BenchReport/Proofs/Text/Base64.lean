import BenchReport.Text.Base64
import Mathlib
set_option autoImplicit false

namespace BenchReport.Text.Base64

/-- The sextets of bytes; of those left over the last is filled up with zeros. -/
def sextetsOf : List UInt8 → List Nat
  | [] => []
  | [a] => [a.toNat / 4, a.toNat % 4 * 16]
  | [a, b] => [a.toNat / 4, a.toNat % 4 * 16 + b.toNat / 16, b.toNat % 16 * 4]
  | a :: b :: c :: rest =>
    a.toNat / 4 :: (a.toNat % 4 * 16 + b.toNat / 16) :: (b.toNat % 16 * 4 + c.toNat / 64) ::
      c.toNat % 64 :: sextetsOf rest

def pads (bs : List UInt8) : Nat := (3 - bs.length % 3) % 3

theorem sextetsOf_lt (bs : List UInt8) : ∀ v ∈ sextetsOf bs, v < 64 := by
  fun_induction sextetsOf bs with
  | case1 => simp
  | case2 a =>
      have := a.toNat_lt
      simp; omega
  | case3 a b =>
      have := a.toNat_lt
      have := b.toNat_lt
      simp; omega
  | case4 a b c rest ih =>
      have := a.toNat_lt
      have := b.toNat_lt
      have := c.toNat_lt
      simp only [List.forall_mem_cons]
      exact ⟨by omega, by omega, by omega, by omega, ih⟩

theorem encode_eq (bs : List UInt8) :
    encode bs = (sextetsOf bs).map symbol ++ List.replicate (pads bs) '=' := by
  fun_induction sextetsOf bs with
  | case1 => rfl
  | case2 a => rfl
  | case3 a b => rfl
  | case4 a b c rest ih =>
      have same : pads (a :: b :: c :: rest) = pads rest := by
        simp only [pads, List.length_cons]
        omega
      rw [encode, ih, same]
      rfl

/-- A sextet and its neighbours give back the bytes they were cut from. -/
theorem pack_sextetsOf (bs : List UInt8) : pack (sextetsOf bs) = bs := by
  have byte (v : UInt8) (n : Nat) (same : n = v.toNat) : UInt8.ofNat n = v := by
    rw [same, UInt8.ofNat_toNat]
  fun_induction sextetsOf bs with
  | case1 => rfl
  | case2 a =>
      rw [pack, byte a _ (by omega)]
  | case3 a b =>
      have := b.toNat_lt
      rw [pack, byte a _ (by omega), byte b _ (by omega)]
  | case4 a b c rest ih =>
      have := b.toNat_lt
      have := c.toNat_lt
      rw [pack, byte a _ (by omega), byte b _ (by omega), byte c _ (by omega), ih]

theorem length_sextetsOf (bs : List UInt8) :
    ((sextetsOf bs).length + pads bs) % 4 = 0 ∧ pads bs ≤ 2 ∧
      (bs ≠ [] → 4 ≤ (sextetsOf bs).length + pads bs) := by
  fun_induction sextetsOf bs with
  | case1 => simp [pads]
  | case2 a => simp [pads]
  | case3 a b => simp [pads]
  | case4 a b c rest ih =>
      simp only [pads, List.length_cons] at ih ⊢
      omega

/-- No byte is cut from the bits that fill up the last sextet. -/
theorem unusedBits_last (bs : List UInt8) :
    ∀ v ∈ (sextetsOf bs).getLast?, unusedBits ((sextetsOf bs).length % 4) v = 0 := by
  fun_induction sextetsOf bs with
  | case1 => simp
  | case2 a => simp [unusedBits]
  | case3 a b => simp [unusedBits]
  | case4 a b c rest ih =>
      intro v last
      have same : ∀ n : Nat, (n + 1 + 1 + 1 + 1) % 4 = n % 4 := by omega
      simp only [List.length_cons, same]
      cases others : sextetsOf rest with
      | nil => simp [unusedBits]
      | cons w ws =>
          rw [others] at ih last
          exact ih v (by simpa using last)

def symbolByte (v : Nat) : UInt8 := UInt8.ofNat (symbol v).toNat

theorem symbolByte_spec : ∀ v < 64,
    sextet? (symbolByte v) = some v ∧ symbolByte v ≠ padding ∧ (symbol v).toNat < 128 := by
  decide +kernel

theorem toUTF8_ascii (cs : List Char) (ascii : ∀ c ∈ cs, c.toNat < 128) :
    (String.ofList cs).toUTF8.data.toList = cs.map fun c => UInt8.ofNat c.toNat := by
  have chars : (String.ofList cs).toUTF8.data.toList = cs.flatMap String.utf8EncodeChar := by
    change (cs.flatMap String.utf8EncodeChar).toByteArray.data.toList = _
    rw [List.toList_data_toByteArray]
  rw [chars]
  rw [List.map_eq_flatMap]
  refine List.flatMap_congr fun c mem => ?_
  exact if_pos (Nat.le_of_lt_succ (ascii c mem))

theorem sextets_symbolBytes {vs : List Nat} (small : ∀ v ∈ vs, v < 64) (offset : Nat) :
    sextets offset (vs.map symbolByte) = .ok vs := by
  induction vs generalizing offset with
  | nil => rfl
  | cons v vs ih =>
      obtain ⟨first, others⟩ := List.forall_mem_cons.1 small
      rw [List.map_cons, sextets, (symbolByte_spec v first).1, ih others (offset + 1)]
      rfl

theorem lastGroup_padding (start place : Nat) (seen : List (UInt8 × Nat)) (firstPad : Option Nat)
    (before count : Nat) (late : count = 0 ∨ 2 ≤ place) :
    lastGroup start place seen firstPad before (List.replicate count padding) =
      .ok (seen.reverse, before + count) := by
  induction count generalizing place firstPad before with
  | zero => rfl
  | succ count ih =>
      have here : ¬ place < 2 := by omega
      have next := ih (place + 1) (firstPad <|> some place) (before + 1) (by omega)
      rw [List.replicate_succ, lastGroup.eq_def]
      simp only [↓reduceIte, here, next, Nat.add_assoc, Nat.add_comm 1]

/-- The last group is read up to its padding. -/
theorem lastGroup_symbolBytes {vs : List Nat} {count : Nat} (small : ∀ v ∈ vs, v < 64)
    (start place : Nat) (seen : List (UInt8 × Nat)) (late : count = 0 ∨ 2 ≤ place + vs.length) :
    lastGroup start place seen none 0 (vs.map symbolByte ++ List.replicate count padding) =
      .ok (seen.reverse ++ vs.map fun v => (symbolByte v, v), count) := by
  induction vs generalizing place seen with
  | nil =>
      simp only [List.length_nil, Nat.add_zero] at late
      rw [List.map_nil, List.nil_append, lastGroup_padding _ _ _ _ _ _ late, List.map_nil,
        List.append_nil, Nat.zero_add]
  | cons v vs ih =>
      obtain ⟨first, others⟩ := List.forall_mem_cons.1 small
      obtain ⟨read, noPadding, -⟩ := symbolByte_spec v first
      simp only [List.length_cons] at late
      have next := ih others (place + 1) ((symbolByte v, v) :: seen) (by omega)
      rw [List.map_cons, List.cons_append, lastGroup.eq_def]
      simp only [noPadding, ↓reduceIte, read, next, List.reverse_cons, List.append_assoc,
        List.singleton_append, List.map_cons]

theorem toUTF8_encode (bs : List UInt8) :
    (String.ofList (encode bs)).toUTF8.data.toList =
      (sextetsOf bs).map symbolByte ++ List.replicate (pads bs) padding := by
  have ascii : ∀ c ∈ encode bs, c.toNat < 128 := by
    intro c mem
    rw [encode_eq] at mem
    rcases List.mem_append.1 mem with mem | mem
    · obtain ⟨v, listed, rfl⟩ := List.mem_map.1 mem
      exact (symbolByte_spec v (sextetsOf_lt bs v listed)).2.2
    · rw [List.eq_of_mem_replicate mem]
      decide
  rw [toUTF8_ascii _ ascii, encode_eq, List.map_append, List.map_map, List.map_replicate]
  rfl

/-- Symbols in groups of four, padding included, are decoded as their sextets when no bit of the
last one is left over. -/
theorem decode_symbolBytes {front group : List Nat} {count : Nat}
    (small : ∀ v ∈ front ++ group, v < 64) (whole : front.length % 4 = 0)
    (filled : group.length + count = 4) (some_byte : 2 ≤ group.length)
    (used : ∀ v ∈ group.getLast?, unusedBits group.length v = 0) :
    decode ((front ++ group).map symbolByte ++ List.replicate count padding) =
      .ok (pack (front ++ group)) := by
  obtain ⟨text, made⟩ : ∃ text,
      text = front.map symbolByte ++ (group.map symbolByte ++ List.replicate count padding) :=
    ⟨_, rfl⟩
  have size : text.length = front.length + 4 := by
    rw [made]
    simp [filled]
  have start : text.length - (if text.length % 4 = 0 then 4 else text.length % 4) =
      front.length := by
    rw [if_pos (by omega), size, Nat.add_sub_cancel]
  have before : sextets 0 (text.take front.length) = .ok front := by
    rw [made, List.take_left' (List.length_map _)]
    exact sextets_symbolBytes (fun v mem => small v (List.mem_append_left group mem)) 0
  have last : lastGroup front.length 0 [] none 0 (text.drop front.length) =
      .ok (group.map fun v => (symbolByte v, v), count) := by
    rw [made, List.drop_left' (List.length_map _)]
    exact lastGroup_symbolBytes (fun v mem => small v (List.mem_append_right front mem)) _ 0 []
      (.inr (by omega))
  have no_symbol : ∀ b, ¬ (text.length % 4 = 1 ∧ b ≠ padding ∧ sextet? b = none) := by
    intro b odd
    omega
  have long : ¬ (text.length ≠ 0 ∧ group.length < 2) := by omega
  have four : ¬ (count + group.length) % 4 ≠ 0 := by omega
  obtain ⟨v, final⟩ : ∃ v, group.getLast? = some v := by
    rw [← Option.isSome_iff_exists, List.getLast?_isSome]
    rintro rfl
    cases some_byte
  have no_bits : ¬ unusedBits group.length v ≠ 0 := not_not.2 (used v final)
  rw [List.map_append, List.append_assoc, ← made]
  unfold decode
  cases text.getLast? <;>
    simp only [start, before, last, no_symbol, long, four, final, no_bits, bind, Except.bind, pure,
      Except.pure, List.length_map, List.getLast?_map, Option.map_some, List.map_map,
      Function.comp_def, List.map_id', ↓reduceIte]

/-- Base64 restores the bytes it was made from. -/
theorem decode_encode (bs : List UInt8) :
    decode (String.ofList (encode bs)).toUTF8.data.toList = .ok bs := by
  rw [toUTF8_encode]
  rcases eq_or_ne bs [] with rfl | some_byte
  · rfl
  · obtain ⟨whole, few, filled⟩ := length_sextetsOf bs
    have large := filled some_byte
    have small := sextetsOf_lt bs
    have unused := unusedBits_last bs
    have packed := pack_sextetsOf bs
    generalize sextetsOf bs = vs, pads bs = count at whole few filled large small unused packed ⊢
    obtain ⟨front, group, rfl, size⟩ :
        ∃ front group, vs = front ++ group ∧ front.length + 4 = vs.length + count :=
      ⟨vs.take (vs.length + count - 4), vs.drop (vs.length + count - 4),
        (List.take_append_drop _ vs).symm, by rw [List.length_take]; omega⟩
    rw [List.length_append] at whole size unused
    rw [decode_symbolBytes small (by omega) (by omega) (by omega) ?_, packed]
    intro v final
    have zero := unused v (by rw [List.getLast?_append, final]; rfl)
    rcases (by omega : group.length = 4 ∨ (front.length + group.length) % 4 = group.length)
      with four | fewer
    · rw [four]
      rfl
    · rwa [fewer] at zero

end BenchReport.Text.Base64
