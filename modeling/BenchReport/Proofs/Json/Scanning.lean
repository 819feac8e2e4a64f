import BenchReport.Json.Token
import BenchReport.Json.Write
import Mathlib
set_option autoImplicit false

namespace BenchReport.Json

open Token

/-- A text and the tokens it is scanned into. None of them is a flaw that ends the scan. -/
inductive Scanned : List Char → List Token → Prop
  | nil : Scanned [] []
  | space {c : Char} {cs : List Char} {ts : List Token} :
      isSpace c = true → Scanned cs ts → Scanned (c :: cs) ts
  | token {c : Char} {cs rest : List Char} {t : Token} {ts : List Token} :
      isSpace c = false → scan c cs = (t, rest) → t.isEnd = false → rest.length ≤ cs.length →
        Scanned rest ts → Scanned (c :: cs) (t :: ts)

theorem Scanned.scanAll_eq {cs : List Char} {ts : List Token} (scanned : Scanned cs ts) :
    ∀ {fuel : Nat}, cs.length ≤ fuel → scanAll fuel cs = ts := by
  induction scanned with
  | nil =>
      intro fuel _
      cases fuel <;> rfl
  | space blank _ ih =>
      intro fuel enough
      cases fuel with
      | zero => simp at enough
      | succ fuel =>
          rw [scanAll, if_pos blank]
          exact ih (by simpa using enough)
  | token visible first open' shorter _ ih =>
      intro fuel enough
      cases fuel with
      | zero => simp at enough
      | succ fuel =>
          have left : fuel ≥ _ := Nat.le_trans shorter (by simpa using enough)
          simp [scanAll, visible, first, open', ih left]

theorem Scanned.tokens_eq {cs : List Char} {ts : List Token} (scanned : Scanned cs ts) :
    tokens cs = ts := scanned.scanAll_eq (Nat.le_refl _)

/-- What holds no token is blank, and blanks may stand before any text. -/
theorem Scanned.after_blanks {rest : List Char} {ts : List Token} (scanned : Scanned rest ts) :
    ∀ {blanks : List Char} {fuel : Nat}, blanks.length ≤ fuel → scanAll fuel blanks = [] →
      Scanned (blanks ++ rest) ts
  | [], _, _, _ => scanned
  | c :: cs, 0, enough, _ => by simp at enough
  | c :: cs, fuel + 1, enough, none_found => by
      rw [scanAll] at none_found
      split at none_found
      · rename_i blank
        exact .space blank (after_blanks scanned (by simpa using enough) none_found)
      · dsimp only at none_found
        split at none_found <;> cases none_found

section Fixed

variable {cs : List Char} {ts : List Token}

theorem Scanned.punctuation {c : Char} {t : Token} (scanned : Scanned cs ts)
    (visible : isSpace c = false) (mark : scan c cs = (t, cs)) (open' : t.isEnd = false) :
    Scanned (c :: cs) (t :: ts) :=
  .token visible mark open' (Nat.le_refl _) scanned

theorem Scanned.openList (scanned : Scanned cs ts) : Scanned ('[' :: cs) (.openList :: ts) :=
  scanned.punctuation rfl rfl rfl

theorem Scanned.closeList (scanned : Scanned cs ts) : Scanned (']' :: cs) (.closeList :: ts) :=
  scanned.punctuation rfl rfl rfl

theorem Scanned.openRecord (scanned : Scanned cs ts) : Scanned ('{' :: cs) (.openRecord :: ts) :=
  scanned.punctuation rfl rfl rfl

theorem Scanned.closeRecord (scanned : Scanned cs ts) : Scanned ('}' :: cs) (.closeRecord :: ts) :=
  scanned.punctuation rfl rfl rfl

theorem Scanned.comma (scanned : Scanned cs ts) : Scanned (',' :: cs) (.comma :: ts) :=
  scanned.punctuation rfl rfl rfl

theorem Scanned.colon (scanned : Scanned cs ts) : Scanned (':' :: cs) (.colon :: ts) :=
  scanned.punctuation rfl rfl rfl

theorem scanWord_append (o : Opening) (word : Token) (ws cs : List Char) :
    scanWord o word ws (ws ++ cs) = (word, cs) := by
  induction ws with
  | nil => cases cs <;> rfl
  | cons w ws ih => rw [List.cons_append, scanWord, if_pos rfl, ih]

theorem Scanned.null (scanned : Scanned cs ts) :
    Scanned (['n', 'u', 'l', 'l'] ++ cs) (.null :: ts) :=
  .token rfl (scanWord_append .null .null ['u', 'l', 'l'] cs) rfl (by simp; omega) scanned

theorem Scanned.bool (b : Bool) (scanned : Scanned cs ts) :
    Scanned (boolChars b ++ cs) (.bool b :: ts) := by
  cases b with
  | true =>
      exact .token rfl (scanWord_append .bool (.bool true) ['r', 'u', 'e'] cs) rfl
        (by simp; omega) scanned
  | false =>
      exact .token rfl (scanWord_append .bool (.bool false) ['a', 'l', 's', 'e'] cs) rfl
        (by simp; omega) scanned

end Fixed

theorem hexDigit?_digitChar {n : Nat} (small : n < 16) : hexDigit? (Nat.digitChar n) = some n := by
  revert n
  decide

/-- The characters gathered so far, none of them half of a pair. -/
def gathered (reversed : List Char) : Spelled := ⟨reversed, none, false⟩

/-- What one character is written as is scanned as the character. -/
theorem scanText_escapeChar (c : Char) (reversed rest : List Char) :
    scanText .plain (gathered reversed) (escapeChar c ++ rest) =
      scanText .plain (gathered (c :: reversed)) rest := by
  unfold escapeChar
  split
  · rfl
  · rfl
  · rfl
  · rfl
  · rfl
  · rename_i noQuote noSlash _ _ _
    have self : Char.ofNat c.toNat = c := Char.ofNat_toNat c
    split
    · rename_i eight
      rw [eight] at self
      rw [← self]
      rfl
    · split
      · rename_i twelve
        rw [twelve] at self
        rw [← self]
        rfl
      · split
        · rename_i control
          have value : ((0 * 16 + 0) * 16 + c.toNat / 16) * 16 + c.toNat % 16 = c.toNat := by omega
          have noFirst : (0xD800 ≤ c.toNat && c.toNat ≤ 0xDBFF) = false := by
            simp only [Bool.and_eq_false_iff, decide_eq_false_iff_not]
            omega
          have noSecond : (0xDC00 ≤ c.toNat && c.toNat ≤ 0xDFFF) = false := by
            simp only [Bool.and_eq_false_iff, decide_eq_false_iff_not]
            omega
          have unit : (gathered reversed).unit c.toNat = gathered (c :: reversed) := by
            simp [gathered, Spelled.unit, noFirst, noSecond, self, Spelled.push]
          have zero : hexDigit? '0' = some 0 := rfl
          simp only [List.cons_append, List.nil_append, scanText, ↓reduceIte, zero,
            hexDigit?_digitChar (show c.toNat / 16 < 16 by omega),
            hexDigit?_digitChar (show c.toNat % 16 < 16 by omega), value, unit]
          rfl
        · rename_i printed
          have notSlash : c ≠ '\\' := noSlash
          have notQuote : c ≠ '"' := noQuote
          simp [scanText, notSlash, notQuote, printed, gathered, Spelled.dropHalf, Spelled.push]

theorem scanText_escaped (cs reversed rest : List Char) :
    scanText .plain (gathered reversed) (cs.flatMap escapeChar ++ '"' :: rest) =
      (.text (String.ofList (reversed.reverse ++ cs)), rest) := by
  induction cs generalizing reversed with
  | nil => simp [scanText, gathered, Spelled.dropHalf, Spelled.close]
  | cons c cs ih =>
      rw [List.flatMap_cons, List.append_assoc, scanText_escapeChar, ih]
      simp

theorem Scanned.text {cs : List Char} {ts : List Token} (s : String) (scanned : Scanned cs ts) :
    Scanned (textChars s ++ cs) (.text s :: ts) := by
  have spelled : scan '"' (s.toList.flatMap escapeChar ++ '"' :: cs) = (.text s, cs) := by
    refine (scanText_escaped s.toList [] cs).trans ?_
    simp
  have split : textChars s ++ cs = '"' :: (s.toList.flatMap escapeChar ++ '"' :: cs) := by
    simp [textChars]
  rw [split]
  exact .token rfl spelled rfl (by simp; omega) scanned

end BenchReport.Json
