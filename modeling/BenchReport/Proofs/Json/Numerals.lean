import BenchReport.Proofs.Json.Scanning
set_option autoImplicit false

namespace BenchReport.Json

open Token

/-- What may follow a number: nothing in it goes on with the number. -/
def Delimits (rest : List Char) : Prop :=
  ∀ c ∈ rest.head?, isDigit c = false ∧ c ≠ '.' ∧ c ≠ 'e' ∧ c ≠ 'E'

theorem Delimits.nil : Delimits [] := nofun

theorem Delimits.cons {c : Char} {rest : List Char}
    (other : isDigit c = false ∧ c ≠ '.' ∧ c ≠ 'e' ∧ c ≠ 'E') : Delimits (c :: rest) := by
  rintro _ ⟨⟩
  exact other

theorem span_append {rest : List Char} (delimits : Delimits rest) (cs : List Char) :
    (cs ++ rest).span isDigit = ((cs.span isDigit).1, (cs.span isDigit).2 ++ rest) := by
  simp only [List.span_eq_takeWhile_dropWhile]
  induction cs with
  | nil =>
      cases rest with
      | nil => rfl
      | cons c rest =>
          have other : isDigit c = false := (delimits c rfl).1
          simp [other]
  | cons c cs ih =>
      cases digit : isDigit c with
      | true => simpa [digit] using ih
      | false => simp [digit]

theorem scanFraction_append {cs rest r : List Char} {f : Option (List Char)}
    (delimits : Delimits rest) (scanned : scanFraction cs = .ok (f, r)) :
    scanFraction (cs ++ rest) = .ok (f, r ++ rest) := by
  rcases cs with _ | ⟨c, cs⟩
  · cases scanned
    cases rest with
    | nil => rfl
    | cons c rest =>
        have noPoint : c ≠ '.' := (delimits c rfl).2.1
        simp [scanFraction, noPoint]
  · by_cases point : c = '.'
    · subst point
      simp only [scanFraction, List.cons_append, span_append delimits] at scanned ⊢
      split at scanned
      · cases scanned
      · rename_i some_digit
        cases scanned
        rw [if_neg some_digit]
    · simp only [scanFraction, List.cons_append, List.cons.injEq, point, false_and,
        imp_self, implies_true] at scanned ⊢
      cases scanned
      rfl

def exponentDigits (negative : Bool) (cs : List Char) : Except Token (Option Int × List Char) :=
  let (ds, rest) := cs.span isDigit
  if ds.isEmpty then .error (if rest.isEmpty then cutNumber else garbled .number)
  else
    let n : Int := natOfDigits ds
    .ok (some (if negative then -n else n), rest)

theorem exponentDigits_append {negative : Bool} {cs rest r : List Char} {e : Option Int}
    (delimits : Delimits rest) (scanned : exponentDigits negative cs = .ok (e, r)) :
    exponentDigits negative (cs ++ rest) = .ok (e, r ++ rest) := by
  simp only [exponentDigits, span_append delimits] at scanned ⊢
  split at scanned
  · cases scanned
  · rename_i some_digit
    cases scanned
    rw [if_neg some_digit]

def exponentSign : List Char → Bool × List Char
  | '-' :: r => (true, r)
  | '+' :: r => (false, r)
  | r => (false, r)

theorem exponentSign_append {cs : List Char} (rest : List Char) (some_char : cs ≠ []) :
    exponentSign (cs ++ rest) = ((exponentSign cs).1, (exponentSign cs).2 ++ rest) := by
  rcases cs with _ | ⟨sign, cs⟩
  · exact absurd rfl some_char
  · by_cases minus : sign = '-'
    · subst minus
      rfl
    · by_cases plus : sign = '+'
      · subst plus
        rfl
      · simp [exponentSign, minus, plus]

theorem scanExponent_cons (c : Char) (cs : List Char) :
    scanExponent (c :: cs) =
      if c = 'e' ∨ c = 'E' then exponentDigits (exponentSign cs).1 (exponentSign cs).2
      else .ok (none, c :: cs) := rfl

theorem scanExponent_append {cs rest r : List Char} {e : Option Int}
    (delimits : Delimits rest) (scanned : scanExponent cs = .ok (e, r)) :
    scanExponent (cs ++ rest) = .ok (e, r ++ rest) := by
  rcases cs with _ | ⟨c, cs⟩
  · cases scanned
    cases rest with
    | nil => rfl
    | cons c rest =>
        have noExponent : ¬ (c = 'e' ∨ c = 'E') := by
          have other := (delimits c rfl).2.2
          simpa using other
        rw [List.nil_append, scanExponent_cons, if_neg noExponent]
  · rw [scanExponent_cons] at scanned
    rw [List.cons_append, scanExponent_cons]
    split at scanned
    · rename_i marked
      rw [if_pos marked]
      rcases cs with _ | ⟨c', cs⟩
      · cases scanned
      · rw [exponentSign_append rest (List.cons_ne_nil c' cs)]
        exact exponentDigits_append delimits scanned
    · rename_i unmarked
      cases scanned
      rw [if_neg unmarked]
      rfl

/-- What a number is written with: its digits before the point, those behind it, its exponent. -/
structure Numeral where
  digits : List Char
  fraction : Option (List Char)
  exponent : Option Int

/-- A numeral without fraction and exponent is a whole number. -/
def Numeral.token (negative : Bool) (n : Numeral) : Token :=
  match n.fraction, n.exponent with
  | none, none => wholeToken negative n.digits
  | _, _ => floatToken negative (double? n.digits (n.fraction.getD []) (n.exponent.getD 0))

/-- A text starts with a numeral, which `rest` follows. Its digits have no zero before them. -/
def Numeral.Starts (n : Numeral) (cs rest : List Char) : Prop :=
  ∃ after after', cs.span isDigit = (n.digits, after) ∧ n.digits ≠ [] ∧
    (∀ d ds, n.digits ≠ '0' :: d :: ds) ∧ scanFraction after = .ok (n.fraction, after') ∧
    scanExponent after' = .ok (n.exponent, rest)

theorem Numeral.Starts.append {n : Numeral} {cs r rest : List Char} (delimits : Delimits rest)
    (starts : n.Starts cs r) : n.Starts (cs ++ rest) (r ++ rest) := by
  obtain ⟨after, after', span, some_digit, no_zero, fraction, exponent⟩ := starts
  refine ⟨after ++ rest, after' ++ rest, ?_, some_digit, no_zero,
    scanFraction_append delimits fraction, scanExponent_append delimits exponent⟩
  rw [span_append delimits, span]

theorem Numeral.Starts.scanNumber_eq {n : Numeral} {cs r : List Char} (starts : n.Starts cs r)
    (negative : Bool) : scanNumber negative cs = (n.token negative, r) := by
  obtain ⟨digits, f, e⟩ := n
  obtain ⟨after, after', span, some_digit, no_zero, fraction, exponent⟩ := starts
  simp only at span some_digit no_zero fraction exponent
  simp only [scanNumber, span, fraction, exponent]
  cases f <;> cases e <;> rfl

theorem isEnd_of_scanFraction {cs : List Char} {t : Token} (failed : scanFraction cs = .error t) :
    t.isEnd = true := by
  unfold scanFraction at failed
  split at failed
  · dsimp only at failed
    split at failed
    · cases failed
      split <;> rfl
    · cases failed
  · cases failed

theorem isEnd_of_scanExponent {cs : List Char} {t : Token} (failed : scanExponent cs = .error t) :
    t.isEnd = true := by
  rcases cs with _ | ⟨c, cs⟩
  · cases failed
  · rw [scanExponent_cons] at failed
    split at failed
    · unfold exponentDigits at failed
      dsimp only at failed
      split at failed
      · cases failed
        split <;> rfl
      · cases failed
    · cases failed

/-- A number that does not end the scan was scanned from a numeral. -/
theorem starts_of_scanNumber {negative : Bool} {cs r : List Char} {t : Token}
    (scanned : scanNumber negative cs = (t, r)) (open' : t.isEnd = false) :
    ∃ n : Numeral, n.Starts cs r ∧ t = n.token negative := by
  simp only [scanNumber] at scanned
  split at scanned
  · cases scanned
    split at open' <;> cases open'
  · cases scanned
    cases open'
  · rename_i some_digit no_zero
    cases fraction : scanFraction (cs.span isDigit).2 with
    | error t' =>
        simp only [fraction] at scanned
        cases scanned
        rw [isEnd_of_scanFraction fraction] at open'
        cases open'
    | ok read =>
        obtain ⟨f, after'⟩ := read
        simp only [fraction] at scanned
        cases exponent : scanExponent after' with
        | error t' =>
            simp only [exponent] at scanned
            cases scanned
            rw [isEnd_of_scanExponent exponent] at open'
            cases open'
        | ok read =>
            obtain ⟨e, rest⟩ := read
            simp only [exponent] at scanned
            refine ⟨⟨(cs.span isDigit).1, f, e⟩, ⟨(cs.span isDigit).2, after', rfl,
              some_digit, no_zero, fraction, ?_⟩, ?_⟩
            · rw [exponent]
              split at scanned <;> cases scanned <;> rfl
            · cases f <;> cases e <;> cases scanned <;> rfl

theorem length_span_le (cs : List Char) : (cs.span isDigit).2.length ≤ cs.length := by
  rw [List.span_eq_takeWhile_dropWhile]
  exact (List.dropWhile_suffix _).length_le

theorem length_scanFraction_le {cs r : List Char} {f : Option (List Char)}
    (scanned : scanFraction cs = .ok (f, r)) : r.length ≤ cs.length := by
  unfold scanFraction at scanned
  split at scanned
  · rename_i cs
    dsimp only at scanned
    split at scanned
    · cases scanned
    · cases scanned
      exact Nat.le_succ_of_le (length_span_le cs)
  · cases scanned
    exact Nat.le_refl _

theorem length_exponentSign_le (cs : List Char) : (exponentSign cs).2.length ≤ cs.length := by
  unfold exponentSign
  split <;> simp

theorem length_scanExponent_le {cs r : List Char} {e : Option Int}
    (scanned : scanExponent cs = .ok (e, r)) : r.length ≤ cs.length := by
  rcases cs with _ | ⟨c, cs⟩
  · cases scanned
    exact Nat.le_refl _
  · rw [scanExponent_cons] at scanned
    split at scanned
    · unfold exponentDigits at scanned
      dsimp only at scanned
      split at scanned
      · cases scanned
      · cases scanned
        have digits := length_span_le (exponentSign cs).2
        have sign := length_exponentSign_le cs
        simp only [List.length_cons]
        omega
    · cases scanned
      exact Nat.le_refl _

/-- A numeral takes at least one character. -/
theorem Numeral.Starts.length_lt {n : Numeral} {cs r : List Char} (starts : n.Starts cs r) :
    r.length < cs.length := by
  obtain ⟨after, after', span, some_digit, -, fraction, exponent⟩ := starts
  have whole : n.digits.length + after.length = cs.length := by
    rw [List.span_eq_takeWhile_dropWhile, Prod.mk.injEq] at span
    rw [← span.1, ← span.2, ← List.length_append, List.takeWhile_append_dropWhile]
  have one := List.length_pos_iff.2 some_digit
  have shorter := length_scanFraction_le fraction
  have shorter' := length_scanExponent_le exponent
  omega

theorem scan_digit {d : Char} (digit : isDigit d = true) (cs : List Char) :
    scan d cs = scanNumber false (d :: cs) := by
  unfold scan
  split <;> first | cases digit | skip
  rw [if_pos digit]

theorem isSpace_digit {d : Char} (digit : isDigit d = true) : isSpace d = false := by
  simp only [isDigit, Bool.and_eq_true, decide_eq_true_eq] at digit
  simp only [isSpace, Bool.or_eq_false_iff, decide_eq_false_iff_not]
  refine ⟨⟨⟨?_, ?_⟩, ?_⟩, ?_⟩ <;> rintro rfl <;> revert digit <;> decide

/-- The first character of a number, its sign or its first digit, leads to the number. -/
theorem exists_scan_signed (negative : Bool) {cs : List Char}
    (digit : ∀ d ∈ cs.head?, isDigit d = true) (some_char : cs ≠ []) :
    ∃ c more, Decimal.signed negative cs = c :: more ∧ isSpace c = false ∧
      scan c more = scanNumber negative cs ∧ cs.length ≤ more.length + 1 := by
  cases negative with
  | true => exact ⟨'-', cs, rfl, rfl, rfl, Nat.le_succ _⟩
  | false =>
      rcases cs with _ | ⟨d, cs⟩
      · exact absurd rfl some_char
      · exact ⟨d, cs, rfl, isSpace_digit (digit d rfl), scan_digit (digit d rfl) cs, Nat.le_refl _⟩

theorem Numeral.Starts.head {n : Numeral} {cs rest : List Char} (starts : n.Starts cs rest) :
    (∀ d ∈ cs.head?, isDigit d = true) ∧ cs ≠ [] := by
  obtain ⟨_, _, span, some_digit, -⟩ := starts
  rw [List.span_eq_takeWhile_dropWhile, Prod.mk.injEq] at span
  rcases cs with _ | ⟨d, cs⟩
  · exact absurd span.1.symm some_digit
  · refine ⟨?_, List.cons_ne_nil d cs⟩
    rintro _ ⟨⟩
    by_contra other
    rw [List.takeWhile_cons_of_neg other] at span
    exact some_digit span.1.symm

/-- A numeral behind its sign is scanned as its token. -/
theorem Numeral.Starts.scanned {n : Numeral} {negative : Bool} {cs rest : List Char}
    {ts : List Token} (starts : n.Starts cs rest) (open' : (n.token negative).isEnd = false)
    (scanned : Scanned rest ts) :
    Scanned (Decimal.signed negative cs) (n.token negative :: ts) := by
  obtain ⟨c, more, written, visible, first, longer⟩ :=
    exists_scan_signed negative starts.head.1 starts.head.2
  have shorter := starts.length_lt
  rw [written]
  exact .token visible (first.trans (starts.scanNumber_eq negative)) open' (by omega) scanned

end BenchReport.Json
