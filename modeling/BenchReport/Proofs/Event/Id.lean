import BenchReport.Event.Id
import BenchReport.Proofs.Json.Codecs
set_option autoImplicit false

namespace BenchReport.EventId

open Json

variable {n : Nat}

theorem hexDigit?_digitChar_mod (k : Nat) :
    Token.hexDigit? (Nat.digitChar (k % 16)) = some (k % 16) :=
  hexDigit?_digitChar (Nat.mod_lt k (by decide))

/-- The first `k` of `w` hex digits are the number without its other digits. -/
theorem ofHex?_digits {v w : Nat} (bounded : v < 16 ^ w) {k : Nat} (within : k ≤ w) :
    ofHex? ((List.range k).map fun j => Nat.digitChar (v / Nat.pow 16 (w - 1 - j) % 16)) =
      some (v / 16 ^ (w - k)) := by
  induction k with
  | zero =>
      rw [Nat.sub_zero, Nat.div_eq_of_lt bounded]
      rfl
  | succ k ih =>
      have step : 16 ^ (w - k) = 16 ^ (w - 1 - k) * 16 := by
        rw [← Nat.pow_succ]
        congr 1
        omega
      have before := ih (by omega)
      rw [ofHex?] at before ⊢
      rw [List.range_succ, List.map_append, List.foldl_append, before, step, ← Nat.div_div_eq_div_mul,
        show w - (k + 1) = w - 1 - k by omega]
      simp only [List.map_cons, List.map_nil, List.foldl_cons, List.foldl_nil, Option.bind_some,
        hexDigit?_digitChar_mod, Option.map_some, Nat.pow_eq]
      congr 1
      omega

theorem ofHex?_hex (i : EventId) : ofHex? i.hex = some i.bits.toNat := by
  have bounded : i.bits.toNat < 16 ^ 32 := i.bits.isLt
  have whole := ofHex?_digits bounded (Nat.le_refl 32)
  rwa [Nat.sub_self, Nat.pow_zero, Nat.div_one] at whole

/-- Five groups of digits are found between their hyphens. -/
theorem ungroup?_groups {a b c d e : List Char} (first : a.length = 8) (second : b.length = 4)
    (third : c.length = 4) (fourth : d.length = 4) :
    ungroup? (a ++ '-' :: (b ++ '-' :: (c ++ '-' :: (d ++ '-' :: e)))) =
      some (a ++ b ++ c ++ d ++ e) := by
  obtain ⟨cs, made⟩ : ∃ cs, cs = a ++ '-' :: (b ++ '-' :: (c ++ '-' :: (d ++ '-' :: e))) := ⟨_, rfl⟩
  have behind (start rest : List Char) (k : Nat) (length : start.length = k)
      (split : cs = start ++ rest) : cs.drop k = rest := by
    rw [split, List.drop_left' length]
  have at8 := behind a _ 8 first made
  have at13 := behind (a ++ '-' :: b) ('-' :: (c ++ '-' :: (d ++ '-' :: e))) 13
    (by simp [first, second]) (by simp [made])
  have at18 := behind (a ++ '-' :: (b ++ '-' :: c)) ('-' :: (d ++ '-' :: e)) 18
    (by simp [first, second, third]) (by simp [made])
  have at23 := behind (a ++ '-' :: (b ++ '-' :: (c ++ '-' :: d))) ('-' :: e) 23
    (by simp [first, second, third, fourth]) (by simp [made])
  have start : cs.take 8 = a := by rw [made, List.take_left' first]
  rw [← made, ungroup?, at8, at13, at18, at23]
  simp only [start, List.take_left' second, List.take_left' third, List.take_left' fourth]

/-- The digits of an id are those between the hyphens of its text. -/
theorem digits?_display (i : EventId) : digits? i.display.toList = some i.hex := by
  have length : i.hex.length = 32 := by rw [hex, List.length_map, List.length_range]
  have grouped := ungroup?_groups (a := i.hex.take 8) (b := (i.hex.drop 8).take 4)
    (c := (i.hex.drop 12).take 4) (d := (i.hex.drop 16).take 4) (e := i.hex.drop 20)
    (by simp [length]) (by simp [length]) (by simp [length]) (by simp [length])
  have whole : i.hex.take 8 ++ (i.hex.drop 8).take 4 ++ (i.hex.drop 12).take 4 ++
      (i.hex.drop 16).take 4 ++ i.hex.drop 20 = i.hex := by
    have piece (j k : Nat) : (i.hex.drop j).take k ++ i.hex.drop (j + k) = i.hex.drop j := by
      rw [← List.drop_drop, List.take_append_drop]
    rw [List.append_assoc, piece 16 4, List.append_assoc, piece 12 4, List.append_assoc, piece 8 4,
      List.take_append_drop]
  rw [whole] at grouped
  have written : i.display.toList = i.hex.take 8 ++ '-' :: ((i.hex.drop 8).take 4 ++ '-' ::
      ((i.hex.drop 12).take 4 ++ '-' :: ((i.hex.drop 16).take 4 ++ '-' :: i.hex.drop 20))) := by
    rw [display, String.toList_ofList]
    simp only [List.append_assoc, List.cons_append]
  have size : i.display.toList.length = 36 := by
    rw [written]
    simp [length]
  rw [digits?, size, if_neg (by decide), if_pos rfl, written, grouped]

theorem parse?_display (i : EventId) : parse? i.display = some i := by
  rw [parse?, digits?_display, Option.bind_some, ofHex?_hex, Option.map_some, BitVec.ofNat_toNat,
    BitVec.setWidth_eq]

theorem codec_restores (i : EventId) : codec.Restores n i :=
  Codec.checked_restores (Codec.text_restores _) (by simp only [parse?_display])

end BenchReport.EventId
