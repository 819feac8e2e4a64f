import BenchReport.Proofs.Json.Numerals
import BenchReport.Json.Codec
set_option autoImplicit false

namespace BenchReport

/-- A text spells a value when its draft is read as the value and nothing follows. -/
theorem Codec.ofText_ok_iff {α : Type} {c : Codec α} {s : String} {a : α} :
    c.ofText s = .ok a ↔
      c.read .text (Json.Draft.ofText s).1 = .ok a ∧ (Json.Draft.ofText s).2 = [] := by
  unfold Codec.ofText
  generalize Json.Draft.ofText s = drafted
  obtain ⟨d, rest⟩ := drafted
  dsimp only
  cases c.read .text d with
  | error e =>
      constructor
      · rintro ⟨⟩
      · rintro ⟨⟨⟩, -⟩
  | ok b =>
      cases rest with
      | nil =>
          constructor
          · rintro ⟨⟩
            exact ⟨rfl, rfl⟩
          · rintro ⟨⟨⟩, -⟩
            rfl
      | cons t ts =>
          constructor
          · rintro ⟨⟩
          · rintro ⟨-, ⟨⟩⟩

/-- A double whose text is read as the double. -/
def Readable (x : Float) : Prop := Codec.float.ofText (Codec.float.toText x) = .ok x

instance (x : Float) : Decidable (Readable x) :=
  inferInstanceAs (Decidable (Codec.float.ofText (Codec.float.toText x) = .ok x))

end BenchReport

namespace BenchReport.Json

open Token

theorem isDigit_of_mem_digitChars {n : Nat} {c : Char} (mem : c ∈ Decimal.digitChars n) :
    isDigit c = true := by
  have digit : c.isDigit = true := Nat.isDigit_of_mem_toDigits (by decide) (by decide) mem
  simpa [Char.isDigit, isDigit, Char.le_def] using digit

theorem natOfDigits_digitChars (n : Nat) : natOfDigits (Decimal.digitChars n) = n := by
  refine Eq.trans ?_ (Nat.ofDigitChars_ten_toDigits (n := n))
  simp only [natOfDigits, Nat.ofDigitChars_eq_foldl, Nat.mul_comm 10]
  rfl

theorem head_digitChars {n : Nat} (positive : 0 < n) : (Decimal.digitChars n).head? ≠ some '0' := by
  induction n using Nat.strong_induction_on with
  | _ n ih =>
      rcases Nat.lt_or_ge n 10 with small | large
      · rw [Decimal.digitChars, Nat.toDigits_of_lt_base small]
        clear ih
        interval_cases n <;> decide
      · have shorter := ih (n / 10) (by omega) (by omega)
        rw [Decimal.digitChars, Nat.toDigits_of_base_le (by decide) large, List.head?_append]
        cases first : (Nat.toDigits 10 (n / 10)).head? with
        | none => exact absurd (List.head?_eq_none_iff.1 first) Nat.toDigits_ne_nil
        | some d =>
            rw [Decimal.digitChars, first] at shorter
            simpa using shorter

theorem starts_digitChars (n : Nat) :
    Numeral.Starts ⟨Decimal.digitChars n, none, none⟩ (Decimal.digitChars n) [] := by
  refine ⟨[], [], ?_, Nat.toDigits_ne_nil, ?_, rfl, rfl⟩
  · rw [List.span_eq_takeWhile_dropWhile, List.takeWhile_eq_self_iff.2, List.dropWhile_eq_nil_iff.2]
    · intro c mem
      exact isDigit_of_mem_digitChars mem
    · intro c mem
      exact isDigit_of_mem_digitChars mem
  · intro d ds zero_first
    rcases Nat.eq_zero_or_pos n with rfl | positive
    · cases zero_first
    · refine head_digitChars positive ?_
      simp only at zero_first
      rw [zero_first]
      rfl

/-- Digits, then a point or the mark of an exponent. -/
def Fractional (cs : List Char) : Prop :=
  ∃ ds c rest, cs = ds ++ c :: rest ∧ ds ≠ [] ∧ (∀ d ∈ ds, isDigit d = true) ∧ (c = '.' ∨ c = 'e')

theorem fractional_positionalChars {ds : List Char} (leading : Int) (some_digit : ds ≠ [])
    (digits : ∀ d ∈ ds, isDigit d = true) :
    Fractional (Decimal.positionalChars true ds leading) := by
  unfold Decimal.positionalChars
  split
  · refine ⟨['0'], '.', List.replicate (-leading - 1).toNat '0' ++ ds, rfl, by simp, ?_, .inl rfl⟩
    intro d mem
    rw [List.mem_singleton.1 mem]
    rfl
  · dsimp only
    split
    · refine ⟨ds ++ List.replicate (leading.toNat + 1 - ds.length) '0', '.', ['0'], by simp,
        by simp [some_digit], ?_, .inl rfl⟩
      intro d mem
      rcases List.mem_append.1 mem with mem | mem
      · exact digits d mem
      · rw [List.eq_of_mem_replicate mem]
        rfl
    · refine ⟨ds.take (leading.toNat + 1), '.', ds.drop (leading.toNat + 1), by simp,
        by simp [some_digit], ?_, .inl rfl⟩
      intro d mem
      exact digits d (List.mem_of_mem_take mem)

theorem fractional_exponentChars {ds : List Char} (leading : Int) (some_digit : ds ≠ [])
    (digits : ∀ d ∈ ds, isDigit d = true) : Fractional (Decimal.exponentChars ds leading) := by
  have first : ∀ d ∈ ds.take 1, isDigit d = true :=
    fun d mem => digits d (List.mem_of_mem_take mem)
  unfold Decimal.exponentChars
  split
  · exact ⟨ds.take 1, 'e', (if leading < 0 then '-' else '+') :: Decimal.digitChars leading.natAbs,
      by simp, by simp [some_digit], first, .inr rfl⟩
  · exact ⟨ds.take 1, '.', ds.drop 1 ++ ['e', if leading < 0 then '-' else '+'] ++
      Decimal.digitChars leading.natAbs, by simp, by simp [some_digit], first, .inl rfl⟩

theorem fractional_finiteChars (d : Decimal.Digits) :
    Fractional (Decimal.Layout.document.finiteChars d) := by
  have some_digit : Decimal.digitChars d.digits ≠ [] := Nat.toDigits_ne_nil
  have digits : ∀ c ∈ Decimal.digitChars d.digits, isDigit c = true :=
    fun c mem => isDigit_of_mem_digitChars mem
  simp only [Decimal.Layout.finiteChars, Decimal.Layout.document]
  split
  · exact fractional_positionalChars _ some_digit digits
  · exact fractional_exponentChars _ some_digit digits

theorem Fractional.head {cs : List Char} (fractional : Fractional cs) :
    (∀ d ∈ cs.head?, isDigit d = true) ∧ cs ≠ [] := by
  obtain ⟨_ | ⟨d, ds⟩, c, rest, rfl, some_digit, digits, -⟩ := fractional
  · exact absurd rfl some_digit
  · refine ⟨?_, List.cons_ne_nil d _⟩
    rintro _ ⟨⟩
    exact digits d List.mem_cons_self

/-- A fractional text is not that of an integer. -/
theorem Numeral.Starts.not_whole {n : Numeral} {cs rest : List Char} (starts : n.Starts cs rest)
    (fractional : Fractional cs) : n.fraction ≠ none ∨ n.exponent ≠ none := by
  obtain ⟨after, after', span, -, -, fraction, exponent⟩ := starts
  obtain ⟨ds, c, more, rfl, -, digits, mark⟩ := fractional
  by_contra whole
  simp only [ne_eq, not_or, Decidable.not_not] at whole
  have noDigit : isDigit c = false := by
    rcases mark with rfl | rfl <;> rfl
  have reached : after = c :: more := by
    rw [List.span_eq_takeWhile_dropWhile, List.dropWhile_append_of_pos digits,
      List.dropWhile_cons_of_neg (by simp [noDigit]), Prod.mk.injEq] at span
    exact span.2.symm
  rw [whole.1, reached] at fraction
  rw [whole.2] at exponent
  rcases mark with rfl | rfl
  · simp only [scanFraction] at fraction
    split at fraction <;> cases fraction
  · cases fraction
    rw [scanExponent_cons, if_pos (.inl rfl)] at exponent
    unfold exponentDigits at exponent
    dsimp only at exponent
    split at exponent <;> cases exponent

end BenchReport.Json

namespace BenchReport.Number

open Json Json.Token

/-- A number that is scanned as it was written wherever a delimiter follows. -/
def Rereads (n : Number) : Prop :=
  ∀ rest ts, Delimits rest → Scanned rest ts → Scanned (numberChars n ++ rest) (.number n :: ts)

/-- Integers of 64 bits, with or without a sign, are scanned as they were written. -/
theorem rereads_int {i : Int} (low : Int64.minValue.toInt ≤ i) (high : i < UInt64.size) :
    (int i).Rereads := by
  intro rest ts delimits scanned
  have starts := (starts_digitChars i.natAbs).append delimits
  have written : numberChars (.int i) ++ rest =
      Decimal.signed (decide (i < 0)) (Decimal.digitChars i.natAbs ++ rest) := by
    rcases Int.lt_or_le i 0 with negative | plus
    · simp [numberChars, Decimal.signed, negative]
    · simp [numberChars, Decimal.signed, Int.not_lt.2 plus]
  have token : Numeral.token (decide (i < 0)) ⟨Decimal.digitChars i.natAbs, none, none⟩ =
      .number (.int i) := by
    simp only [Numeral.token, natOfDigits_digitChars, wholeToken]
    rcases Int.lt_or_le i 0 with negative | plus
    · have self : -(i.natAbs : Int) = i := by omega
      have fits : fitsInt64 i = true := by
        simp only [fitsInt64, Bool.and_eq_true, decide_eq_true_eq]
        exact ⟨low, Int.le_trans (Int.le_of_lt negative) (by decide)⟩
      have some_digit : i.natAbs ≠ 0 := by omega
      rw [if_pos (decide_eq_true negative), self, if_neg (by simp [some_digit, fits])]
    · have self : (i.natAbs : Int) = i := by omega
      have small : i.natAbs < UInt64.size := by omega
      rw [if_neg (by simpa using plus), if_pos small, self]
  rw [written, ← token]
  exact starts.scanned (by rw [token]; rfl) scanned

theorem token_of_not_whole {n : Numeral} (negative : Bool)
    (fractional : n.fraction ≠ none ∨ n.exponent ≠ none) :
    ∃ x, n.token negative = floatToken negative x := by
  obtain ⟨digits, f, e⟩ := n
  cases f with
  | some fs => exact ⟨_, rfl⟩
  | none =>
      cases e with
      | some e => exact ⟨_, rfl⟩
      | none => simp at fractional

theorem flaw_of_isEnd {t : Token} (ends : t.isEnd = true) : ∃ f, t = .flaw f := by
  cases t with
  | flaw f => exact ⟨f, rfl⟩
  | _ => cases ends

theorem ofTokens_flaw (depth fuel : Nat) (f : Flaw) (ts : List Token) :
    Draft.ofTokens depth (fuel + 1) (.flaw f :: ts) = (.flaw f, ts) := by
  rw [Draft.ofTokens]

theorem ofTokens_number (depth fuel : Nat) (n : Number) (ts : List Token) :
    Draft.ofTokens depth (fuel + 1) (.number n :: ts) = (.number n, ts) := by
  rw [Draft.ofTokens]

theorem tokens_signed (negative : Bool) {cs : List Char} (digit : ∀ d ∈ cs.head?, isDigit d = true)
    (some_char : cs ≠ []) :
    ∃ k, cs.length ≤ k + 1 ∧ tokens (Decimal.signed negative cs) =
      if (scanNumber negative cs).1.isEnd then [(scanNumber negative cs).1]
      else (scanNumber negative cs).1 :: scanAll k (scanNumber negative cs).2 := by
  obtain ⟨c, more, written, visible, first, longer⟩ :=
    exists_scan_signed negative digit some_char
  refine ⟨more.length, longer, ?_⟩
  rw [written, tokens, List.length_cons, scanAll, if_neg (by simp [visible]), first]

/-- A fractional text that is read as a double is a numeral of the double, with nothing but blanks
behind it. -/
theorem numeral_of_read {s : String} {x : Float} {negative : Bool} {cs : List Char}
    (fractional : Fractional cs) (text : s.toList = Decimal.signed negative cs)
    (reads : Codec.float.ofText s = .ok x) :
    ∃ n : Numeral, ∃ r k, n.Starts cs r ∧ n.token negative = .number (.float x) ∧
      r.length ≤ k ∧ scanAll k r = [] := by
  obtain ⟨k, longer, found⟩ := tokens_signed negative fractional.head.1 fractional.head.2
  obtain ⟨read, nothing_left⟩ := Codec.ofText_ok_iff.1 reads
  cases number : scanNumber negative cs with
  | mk t r =>
      simp only [number] at found
      simp only [Draft.ofText, text, found] at read nothing_left
      cases open' : t.isEnd with
      | true =>
          obtain ⟨f, rfl⟩ := flaw_of_isEnd open'
          rw [if_pos open', ofTokens_flaw] at read
          cases read
      | false =>
          obtain ⟨n, starts, rfl⟩ := starts_of_scanNumber number open'
          obtain ⟨y, token⟩ := token_of_not_whole negative (starts.not_whole fractional)
          rw [if_neg (by simp [open']), token] at read nothing_left
          cases y with
          | none =>
              rw [floatToken, unreadable, ofTokens_flaw] at read
              cases read
          | some y =>
              rw [floatToken, ofTokens_number] at read nothing_left
              cases read
              have shorter := starts.length_lt
              exact ⟨n, r, k, starts, token, by omega, nothing_left⟩

/-- A double with a fractional text that reads back is scanned as it was written wherever a
delimiter follows. -/
theorem rereads_of_fractional {x : Float} {negative : Bool} {cs : List Char}
    (fractional : Fractional cs) (written : numberChars (.float x) = Decimal.signed negative cs)
    (readable : Readable x) : (float x).Rereads := by
  have text : (Codec.float.toText x).toList = Decimal.signed negative cs := by
    rw [← written, Codec.toText, Json.compact, String.toList_ofList]
    rfl
  obtain ⟨n, r, k, starts, token, enough, blank⟩ := numeral_of_read fractional text readable
  intro rest ts delimits scanned
  have open' : (n.token negative).isEnd = false := by
    rw [token]
    rfl
  have whole := (starts.append delimits).scanned open' (scanned.after_blanks enough blank)
  rw [token] at whole
  rw [written]
  cases negative <;> exact whole

/-- What is written for a double that is not finite is no text of a double. -/
theorem not_finite_refused {cs : List Char} {x : Float}
    (reads : Codec.float.ofText (String.ofList cs) = .ok x) :
    cs ≠ ['n', 'u', 'l', 'l'] ∧ cs ≠ ['N', 'a', 'N'] ∧
      ∀ negative, cs ≠ Decimal.signed negative ['i', 'n', 'f'] := by
  have refused : ∀ cs ∈ [['n', 'u', 'l', 'l'], ['N', 'a', 'N'], ['i', 'n', 'f'], ['-', 'i', 'n', 'f']],
      (Codec.float.ofText (String.ofList cs)).toOption = none := by decide +kernel
  have other : ∀ cs' ∈ [['n', 'u', 'l', 'l'], ['N', 'a', 'N'], ['i', 'n', 'f'], ['-', 'i', 'n', 'f']],
      cs ≠ cs' := by
    rintro _ mem rfl
    have none_read := refused cs mem
    rw [reads] at none_read
    cases none_read
  refine ⟨other _ (by simp), other _ (by simp), fun negative => other _ ?_⟩
  cases negative <;> simp [Decimal.signed]

/-- A double whose text reads back is scanned as it was written wherever a delimiter follows: a
finite one is written with a fraction or an exponent. -/
theorem rereads_float {x : Float} (readable : Readable x) : (float x).Rereads := by
  have reads : Codec.float.ofText (String.ofList (numberChars (.float x))) = .ok x := readable
  obtain ⟨notNull, notNaN, notInf⟩ := not_finite_refused reads
  have written : numberChars (.float x) =
      if x.isFinite then Decimal.Layout.document.chars x else ['n', 'u', 'l', 'l'] := rfl
  split at written
  · unfold Decimal.Layout.chars at written
    split at written
    · exact absurd written notNaN
    · exact absurd written (notInf _)
    · exact rereads_of_fractional ⟨['0'], '.', ['0'], rfl, by simp, by simp; rfl, .inl rfl⟩
        written readable
    · exact rereads_of_fractional (fractional_finiteChars _) written readable
  · exact absurd written notNull

end BenchReport.Number
