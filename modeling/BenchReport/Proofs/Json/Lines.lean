import BenchReport.Proofs.Json.Numbers
import Mathlib
set_option autoImplicit false

namespace BenchReport.Json

/-- A character that is no control character below the space, so no line break either. -/
def IsPrinted (c : Char) : Prop := 32 ≤ c.toNat

def Printed (cs : List Char) : Prop := ∀ c ∈ cs, IsPrinted c

instance (c : Char) : Decidable (IsPrinted c) := Nat.decLe 32 c.toNat

instance (cs : List Char) : Decidable (Printed cs) := List.decidableBAll IsPrinted cs

namespace Printed

variable {c : Char} {cs cs' : List Char}

@[simp] theorem nil : Printed [] := fun _ mem => absurd mem List.not_mem_nil

@[simp] theorem cons_iff : Printed (c :: cs) ↔ IsPrinted c ∧ Printed cs := List.forall_mem_cons

@[simp] theorem append_iff : Printed (cs ++ cs') ↔ Printed cs ∧ Printed cs' :=
  List.forall_mem_append

theorem cons (isPrinted : IsPrinted c) (printed : Printed cs) : Printed (c :: cs) :=
  cons_iff.2 ⟨isPrinted, printed⟩

theorem append (printed : Printed cs) (printed' : Printed cs') : Printed (cs ++ cs') :=
  append_iff.2 ⟨printed, printed'⟩

/-- What is taken from a printed text is printed. -/
theorem subset (printed : Printed cs) (part : ∀ c ∈ cs', c ∈ cs) : Printed cs' :=
  fun c mem => printed c (part c mem)

theorem replicate (n : Nat) (isPrinted : IsPrinted c) : Printed (List.replicate n c) := by
  intro d mem
  rw [List.eq_of_mem_replicate mem]
  exact isPrinted

end Printed

theorem isPrinted_digitChar : ∀ n < 16, IsPrinted (Nat.digitChar n) := by decide

theorem printed_escapeChar (c : Char) : Printed (escapeChar c) := by
  unfold escapeChar
  split
  · decide
  · decide
  · decide
  · decide
  · decide
  · split
    · decide
    · split
      · decide
      · split
        · rename_i control
          have high := isPrinted_digitChar (c.toNat / 16) (by omega)
          have low := isPrinted_digitChar (c.toNat % 16) (by omega)
          have lead : Printed ['\\', 'u', '0', '0'] := by decide
          exact lead.append (.cons high (.cons low .nil))
        · rename_i shown
          exact .cons (Nat.le_of_not_lt shown) .nil

theorem printed_textChars (s : String) : Printed (textChars s) := by
  refine .cons (by decide) (.append ?_ (by decide))
  intro d mem
  obtain ⟨c, -, own⟩ := List.mem_flatMap.1 mem
  exact printed_escapeChar c d own

theorem printed_digitChars (n : Nat) : Printed (Decimal.digitChars n) := by
  intro c mem
  have digit := isDigit_of_mem_digitChars mem
  simp only [Token.isDigit, Bool.and_eq_true, decide_eq_true_eq, Char.le_def,
    UInt32.le_iff_toNat_le] at digit
  have least : 48 ≤ c.toNat := digit.1
  exact Nat.le_trans (by decide) least

theorem printed_positionalChars {ds : List Char} (wholeMark : Bool) (leading : Int)
    (digits : Printed ds) : Printed (Decimal.positionalChars wholeMark ds leading) := by
  unfold Decimal.positionalChars
  split
  · exact .append (.append (by decide) (.replicate _ (by decide))) digits
  · dsimp only
    split
    · refine .append (.append digits (.replicate _ (by decide))) ?_
      cases wholeMark <;> decide
    · refine .append (.append ?_ (by decide)) ?_
      · exact digits.subset fun c => List.mem_of_mem_take
      · exact digits.subset fun c => List.mem_of_mem_drop

theorem printed_exponentChars {ds : List Char} (leading : Int) (digits : Printed ds) :
    Printed (Decimal.exponentChars ds leading) := by
  have fraction : Printed (if ds.length ≤ 1 then [] else '.' :: ds.drop 1) := by
    split
    · exact .nil
    · exact .cons (by decide) (digits.subset fun c => List.mem_of_mem_drop)
  have mark : Printed ['e', if leading < 0 then '-' else '+'] := by
    split <;> decide
  refine .append (.append (.append ?_ fraction) mark) (printed_digitChars _)
  exact digits.subset fun c => List.mem_of_mem_take

theorem printed_signed {cs : List Char} (negative : Bool) (printed : Printed cs) :
    Printed (Decimal.signed negative cs) := by
  cases negative with
  | false => exact printed
  | true => exact .cons (by decide) printed

theorem printed_finiteChars (l : Decimal.Layout) (d : Decimal.Digits) :
    Printed (l.finiteChars d) := by
  have digits := printed_digitChars d.digits
  unfold Decimal.Layout.finiteChars
  dsimp only
  split
  · exact printed_positionalChars _ _ digits
  · split
    · exact printed_positionalChars _ _ digits
    · exact printed_exponentChars _ digits

theorem printed_chars (l : Decimal.Layout) (x : Float) : Printed (l.chars x) := by
  unfold Decimal.Layout.chars
  split
  · decide
  · exact printed_signed _ (by decide)
  · refine printed_signed _ ?_
    split <;> decide
  · exact printed_signed _ (printed_finiteChars l _)

theorem printed_numberChars (n : Number) : Printed (numberChars n) := by
  cases n with
  | int i =>
      rw [numberChars]
      split
      · exact .cons (by decide) (printed_digitChars _)
      · exact printed_digitChars _
  | float x =>
      rw [numberChars]
      split
      · exact printed_chars _ x
      · decide

mutual

theorem printed_compactChars : (j : Json) → Printed (compactChars j)
  | .null => by decide
  | .bool true => by decide
  | .bool false => by decide
  | .number n => printed_numberChars n
  | .text s => printed_textChars s
  | .list items => .cons (by decide) (.append (printed_compactItems items) (by decide))
  | .record fields => .cons (by decide) (.append (printed_compactFields fields) (by decide))

theorem printed_compactItems : (items : List Json) → Printed (compactItems items)
  | [] => .nil
  | x :: rest => by
      refine .append (printed_compactChars x) ?_
      split
      · exact .nil
      · exact .cons (by decide) (printed_compactItems rest)

theorem printed_compactFields : (fields : List (String × Json)) → Printed (compactFields fields)
  | [] => .nil
  | (k, v) :: rest => by
      have value : Printed (':' :: compactChars v) := .cons (by decide) (printed_compactChars v)
      refine .append (.append (printed_textChars k) value) ?_
      split
      · exact .nil
      · exact .cons (by decide) (printed_compactFields rest)

end

/-- The bytes of a printed character are no control characters: those of a character that takes
several bytes have their highest bit set. -/
theorem le_of_mem_utf8EncodeChar {c : Char} {b : UInt8} (isPrinted : IsPrinted c)
    (mem : b ∈ String.utf8EncodeChar c) : 32 ≤ b.toNat := by
  have code : c.val.toNat = c.toNat := rfl
  have shown : 32 ≤ c.toNat := isPrinted
  unfold String.utf8EncodeChar at mem
  rw [code] at mem
  dsimp only at mem
  split at mem
  · simp only [List.mem_singleton] at mem
    rw [mem, UInt8.toNat_ofNat']
    omega
  · split at mem
    · simp only [List.mem_cons, List.not_mem_nil, or_false] at mem
      rcases mem with rfl | rfl <;> rw [UInt8.toNat_ofNat'] <;> omega
    · split at mem
      · simp only [List.mem_cons, List.not_mem_nil, or_false] at mem
        rcases mem with rfl | rfl | rfl <;> rw [UInt8.toNat_ofNat'] <;> omega
      · simp only [List.mem_cons, List.not_mem_nil, or_false] at mem
        rcases mem with rfl | rfl | rfl | rfl <;> rw [UInt8.toNat_ofNat'] <;> omega

def line (j : Json) : List UInt8 := j.compact.toUTF8.data.toList

/-- No control character is among the bytes of a compact text, so neither a line feed nor a carriage
return. -/
theorem le_of_mem_line {j : Json} {b : UInt8} (mem : b ∈ j.line) : 32 ≤ b.toNat := by
  have bytes : j.line = j.compactChars.flatMap String.utf8EncodeChar := by
    change (j.compactChars.flatMap String.utf8EncodeChar).toByteArray.data.toList = _
    rw [List.toList_data_toByteArray]
  rw [bytes] at mem
  obtain ⟨c, char, encoded⟩ := List.mem_flatMap.1 mem
  exact le_of_mem_utf8EncodeChar (printed_compactChars j c char) encoded

end BenchReport.Json
