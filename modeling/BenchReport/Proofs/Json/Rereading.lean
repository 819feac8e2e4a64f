import BenchReport.Proofs.Json.Numbers
set_option autoImplicit false

namespace BenchReport.Json

mutual

def tokensOf : Json → List Token
  | .null => [.null]
  | .bool b => [.bool b]
  | .number n => [.number n]
  | .text s => [.text s]
  | .list items => .openList :: tokensOfItems items ++ [.closeList]
  | .record fields => .openRecord :: tokensOfFields fields ++ [.closeRecord]
termination_by structural j => j

def tokensOfItems : List Json → List Token
  | [] => []
  | x :: rest => tokensOf x ++ (if rest.isEmpty then [] else .comma :: tokensOfItems rest)
termination_by structural l => l

def tokensOfFields : List (String × Json) → List Token
  | [] => []
  | (k, v) :: rest =>
    .text k :: .colon :: tokensOf v ++ (if rest.isEmpty then [] else .comma :: tokensOfFields rest)
termination_by structural l => l

end

/-- A value whose numbers read back, with at most `n` lists and records around anything in it. -/
inductive Plain : Nat → Json → Prop
  | null {n : Nat} : Plain n .null
  | bool {n : Nat} (b : Bool) : Plain n (.bool b)
  | number {n : Nat} {m : Number} : m.Rereads → Plain n (.number m)
  | text {n : Nat} (s : String) : Plain n (.text s)
  | list {n : Nat} {items : List Json} : (∀ j ∈ items, Plain n j) → Plain (n + 1) (.list items)
  | record {n : Nat} {fields : List (String × Json)} :
      (∀ e ∈ fields, Plain n e.2) → Plain (n + 1) (.record fields)

/-- A value whose text is scanned into its tokens wherever a delimiter follows. -/
def Scans (j : Json) : Prop :=
  ∀ rest ts, Delimits rest → Scanned rest ts →
    Scanned (compactChars j ++ rest) (tokensOf j ++ ts)

theorem delimits_comma (cs : List Char) : Delimits (',' :: cs) := .cons (by decide)

theorem delimits_closeList (cs : List Char) : Delimits (']' :: cs) := .cons (by decide)

theorem delimits_closeRecord (cs : List Char) : Delimits ('}' :: cs) := .cons (by decide)

theorem scanned_items {items : List Json} (scans : ∀ j ∈ items, j.Scans) {rest : List Char}
    {ts : List Token} (scanned : Scanned rest ts) :
    Scanned (compactItems items ++ ']' :: rest) (tokensOfItems items ++ .closeList :: ts) := by
  induction items with
  | nil => exact scanned.closeList
  | cons j items ih =>
      obtain ⟨first, others⟩ := List.forall_mem_cons.1 scans
      cases items with
      | nil =>
          simp only [compactItems, tokensOfItems, List.isEmpty_nil, ↓reduceIte, List.append_nil]
          exact first _ _ (delimits_closeList rest) scanned.closeList
      | cons j' items =>
          have tail := first _ _ (delimits_comma _) (ih others).comma
          rw [compactItems, tokensOfItems]
          simpa only [List.isEmpty_cons, Bool.false_eq_true, ↓reduceIte, List.append_assoc,
            List.cons_append] using tail

theorem scanned_fields {fields : List (String × Json)} (scans : ∀ e ∈ fields, e.2.Scans)
    {rest : List Char} {ts : List Token} (scanned : Scanned rest ts) :
    Scanned (compactFields fields ++ '}' :: rest)
      (tokensOfFields fields ++ .closeRecord :: ts) := by
  induction fields with
  | nil => exact scanned.closeRecord
  | cons e fields ih =>
      obtain ⟨key, j⟩ := e
      obtain ⟨first, others⟩ := List.forall_mem_cons.1 scans
      cases fields with
      | nil =>
          have value := first _ _ (delimits_closeRecord rest) scanned.closeRecord
          rw [compactFields, tokensOfFields]
          simpa only [List.isEmpty_nil, ↓reduceIte, List.append_nil, List.append_assoc,
            List.cons_append] using value.colon.text key
      | cons e' fields =>
          have value := first _ _ (delimits_comma _) (ih others).comma
          rw [compactFields, tokensOfFields]
          simpa only [List.isEmpty_cons, Bool.false_eq_true, ↓reduceIte, List.append_assoc,
            List.cons_append] using value.colon.text key

theorem Plain.scans {n : Nat} {j : Json} (plain : j.Plain n) : j.Scans := by
  induction plain with
  | null => exact fun rest ts _ scanned => scanned.null
  | bool b => exact fun rest ts _ scanned => scanned.bool b
  | number rereads => exact rereads
  | text s => exact fun rest ts _ scanned => scanned.text s
  | list _ ih =>
      intro rest ts _ scanned
      simpa [compactChars, tokensOf] using (scanned_items ih scanned).openList
  | record _ ih =>
      intro rest ts _ scanned
      simpa [compactChars, tokensOf] using (scanned_fields ih scanned).openRecord

theorem Plain.tokens_compact {n : Nat} {j : Json} (plain : j.Plain n) :
    tokens j.compact.toList = tokensOf j := by
  have scanned := plain.scans [] [] .nil .nil
  rw [List.append_nil, List.append_nil] at scanned
  rw [compact, String.toList_ofList]
  exact scanned.tokens_eq

/-- A value whose pretty text is scanned into its tokens wherever a delimiter follows. -/
def ScansPretty (j : Json) : Prop :=
  ∀ level rest ts, Delimits rest → Scanned rest ts →
    Scanned (prettyChars level j ++ rest) (tokensOf j ++ ts)

theorem Scanned.newLine {cs : List Char} {ts : List Token} (scanned : Scanned cs ts) (level : Nat) :
    Scanned (newLine level ++ cs) ts := by
  apply Scanned.space rfl
  induction 2 * level with
  | zero => exact scanned
  | succ n ih => exact .space rfl ih

theorem delimits_newLine (level : Nat) (cs : List Char) : Delimits (newLine level ++ cs) :=
  .cons (by decide)

theorem scanned_prettyItems {items : List Json} (scans : ∀ j ∈ items, j.ScansPretty) (level : Nat)
    {rest : List Char} {ts : List Token} (delimits : Delimits rest) (scanned : Scanned rest ts) :
    Scanned (prettyItems level items ++ rest) (tokensOfItems items ++ ts) := by
  induction items with
  | nil => exact scanned
  | cons j items ih =>
      obtain ⟨first, others⟩ := List.forall_mem_cons.1 scans
      cases items with
      | nil =>
          have only := (first level _ _ delimits scanned).newLine level
          rw [prettyItems, tokensOfItems]
          simpa only [List.isEmpty_nil, ↓reduceIte, List.append_nil, List.append_assoc] using only
      | cons j' items =>
          have tail := (first level _ _ (delimits_comma _) (ih others).comma).newLine level
          rw [prettyItems, tokensOfItems]
          simpa only [List.isEmpty_cons, Bool.false_eq_true, ↓reduceIte, List.append_assoc,
            List.cons_append] using tail

theorem scanned_prettyFields {fields : List (String × Json)}
    (scans : ∀ e ∈ fields, e.2.ScansPretty) (level : Nat) {rest : List Char} {ts : List Token}
    (delimits : Delimits rest) (scanned : Scanned rest ts) :
    Scanned (prettyFields level fields ++ rest) (tokensOfFields fields ++ ts) := by
  induction fields with
  | nil => exact scanned
  | cons e fields ih =>
      obtain ⟨key, j⟩ := e
      obtain ⟨first, others⟩ := List.forall_mem_cons.1 scans
      have entry {cs : List Char} {us : List Token} (value : Scanned cs us) :
          Scanned (newLine level ++ (textChars key ++ ':' :: ' ' :: cs))
            (.text key :: .colon :: us) :=
        ((Scanned.space rfl value).colon.text key).newLine level
      cases fields with
      | nil =>
          have only := entry (first level _ _ delimits scanned)
          rw [prettyFields, tokensOfFields]
          simpa only [List.isEmpty_nil, ↓reduceIte, List.append_nil, List.append_assoc,
            List.cons_append, List.nil_append] using only
      | cons e' fields =>
          have tail := entry (first level _ _ (delimits_comma _) (ih others).comma)
          rw [prettyFields, tokensOfFields]
          simpa only [List.isEmpty_cons, Bool.false_eq_true, ↓reduceIte, List.append_assoc,
            List.cons_append, List.nil_append] using tail

theorem Plain.scansPretty {n : Nat} {j : Json} (plain : j.Plain n) : j.ScansPretty := by
  induction plain with
  | null => exact fun _ rest ts _ scanned => scanned.null
  | bool b => exact fun _ rest ts _ scanned => scanned.bool b
  | number rereads => exact fun _ => rereads
  | text s => exact fun _ rest ts _ scanned => scanned.text s
  | @list _ items _ ih =>
      intro level rest ts _ scanned
      cases items with
      | nil => exact scanned.closeList.openList
      | cons j items =>
          have inner := scanned_prettyItems ih (level + 1) (delimits_newLine level _)
            (scanned.closeList.newLine level)
          simpa [prettyChars, tokensOf] using inner.openList
  | @record _ fields _ ih =>
      intro level rest ts _ scanned
      cases fields with
      | nil => exact scanned.closeRecord.openRecord
      | cons e fields =>
          have inner := scanned_prettyFields ih (level + 1) (delimits_newLine level _)
            (scanned.closeRecord.newLine level)
          simpa [prettyChars, tokensOf] using inner.openRecord

theorem Plain.tokens_pretty {n : Nat} {j : Json} (plain : j.Plain n) :
    tokens j.pretty.toList = tokensOf j := by
  have scanned := plain.scansPretty 0 [] [] .nil .nil
  rw [List.append_nil, List.append_nil] at scanned
  rw [pretty, String.toList_ofList]
  exact scanned.tokens_eq

namespace Draft

/-- A value whose tokens, inside `depth` lists and records, are drafted as the value. -/
def Drafts (depth : Nat) (j : Json) : Prop :=
  ∀ fuel rest, 2 * (tokensOf j).length ≤ fuel →
    ofTokens depth fuel (tokensOf j ++ rest) = (ofJson j, rest)

theorem ofTokens_openList {depth fuel : Nat} {t : Token} {ts rest : List Token}
    {items : List Draft} (opens : t ≠ .closeList)
    (drafted : itemsOfTokens (depth + 1) fuel (t :: ts) = (items, none, rest)) :
    ofTokens depth (fuel + 1) (.openList :: t :: ts) = (nested depth (.list items none), rest) := by
  rw [ofTokens, drafted]
  · rintro rest ⟨⟩
    exact opens rfl
  · exact fun nothing => List.cons_ne_nil t ts nothing

theorem ofTokens_openRecord {depth fuel : Nat} {t : Token} {ts rest : List Token}
    {members : List (Except Flaw String × Draft)} (opens : t ≠ .closeRecord)
    (drafted : membersOfTokens (depth + 1) fuel (t :: ts) = (members, none, rest)) :
    ofTokens depth (fuel + 1) (.openRecord :: t :: ts) =
      (nested depth (.record members none), rest) := by
  rw [ofTokens, drafted]
  rintro rest ⟨⟩
  exact opens rfl

theorem nested_of_lt {depth : Nat} (d : Draft) (inside : depth < depthLimit) :
    nested depth d = d := if_pos inside

/-- The tokens of a value start with one that closes no list. -/
theorem head_tokensOf (j : Json) : ∃ t ts, tokensOf j = t :: ts ∧ t ≠ .closeList := by
  cases j <;> simp [tokensOf]

theorem items_drafted {depth : Nat} {j : Json} {items : List Json}
    (drafts : ∀ i ∈ j :: items, Drafts depth i) {fuel : Nat} (rest : List Token)
    (enough : 2 * (tokensOfItems (j :: items)).length + 1 ≤ fuel) :
    itemsOfTokens depth fuel (tokensOfItems (j :: items) ++ .closeList :: rest) =
      (itemsOfJson (j :: items), none, rest) := by
  induction items generalizing j fuel with
  | nil =>
      obtain ⟨fuel, rfl⟩ : ∃ k, fuel = k + 1 := ⟨fuel - 1, by omega⟩
      have first := drafts j List.mem_cons_self fuel (.closeList :: rest)
      simp only [tokensOfItems, List.isEmpty_nil, ↓reduceIte, List.append_nil] at enough ⊢
      rw [itemsOfTokens, first (by omega)]
      rfl
  | cons j' items ih =>
      obtain ⟨fuel, rfl⟩ : ∃ k, fuel = k + 1 := ⟨fuel - 1, by omega⟩
      obtain ⟨first, others⟩ := List.forall_mem_cons.1 drafts
      rw [tokensOfItems, List.isEmpty_cons, if_neg Bool.false_ne_true] at enough ⊢
      simp only [List.length_append, List.length_cons] at enough
      rw [List.append_assoc, itemsOfTokens, first fuel _ (by omega), List.cons_append]
      simp only [ih others (show 2 * (tokensOfItems (j' :: items)).length + 1 ≤ fuel by omega)]
      rfl

theorem members_drafted {depth : Nat} {e : String × Json} {fields : List (String × Json)}
    (drafts : ∀ e' ∈ e :: fields, Drafts depth e'.2) {fuel : Nat} (rest : List Token)
    (enough : 2 * (tokensOfFields (e :: fields)).length ≤ fuel) :
    membersOfTokens depth fuel (tokensOfFields (e :: fields) ++ .closeRecord :: rest) =
      (membersOfJson (e :: fields), none, rest) := by
  induction fields generalizing e fuel with
  | nil =>
      obtain ⟨key, j⟩ := e
      have value : Drafts depth j := drafts (key, j) List.mem_cons_self
      simp only [tokensOfFields, List.isEmpty_nil, ↓reduceIte, List.append_nil, List.cons_append,
        List.length_cons] at enough ⊢
      obtain ⟨fuel, rfl⟩ : ∃ k, fuel = k + 2 := ⟨fuel - 2, by omega⟩
      rw [membersOfTokens, memberOfTokens, value fuel _ (by omega)]
      rfl
  | cons e' fields ih =>
      obtain ⟨key, j⟩ := e
      have value : Drafts depth j := drafts (key, j) List.mem_cons_self
      have others : ∀ e ∈ e' :: fields, Drafts depth e.2 :=
        fun e mem => drafts e (List.mem_cons_of_mem _ mem)
      rw [tokensOfFields, List.isEmpty_cons, if_neg Bool.false_ne_true] at enough ⊢
      simp only [List.length_append, List.length_cons] at enough
      obtain ⟨fuel, rfl⟩ : ∃ k, fuel = k + 2 := ⟨fuel - 2, by omega⟩
      rw [List.append_assoc, List.cons_append, List.cons_append, List.cons_append,
        membersOfTokens, memberOfTokens, value fuel _ (by omega)]
      simp only [ih others (show 2 * (tokensOfFields (e' :: fields)).length ≤ fuel by omega)]
      rfl

/-- A plain value is drafted from its tokens wherever the reader follows the nesting. -/
theorem drafts_of_plain {n : Nat} {j : Json} (plain : j.Plain n) {depth : Nat}
    (shallow : depth + n ≤ depthLimit) : Drafts depth j := by
  have least (t : Token) {ts : List Token} {fuel : Nat} (enough : 2 * (t :: ts).length ≤ fuel) :
      ∃ k, fuel = k + 1 := by
    rw [List.length_cons] at enough
    exact ⟨fuel - 1, by omega⟩
  induction plain generalizing depth with
  | null | bool _ | number _ | text _ =>
      intro fuel rest enough
      obtain ⟨fuel, rfl⟩ := least _ enough
      simp only [tokensOf, List.cons_append, List.nil_append, ofTokens, ofJson]
  | list plain ih =>
      rename_i n items
      intro fuel rest enough
      obtain ⟨fuel, rfl⟩ := least _ enough
      have inside : depth < depthLimit := by omega
      simp only [tokensOf, List.length_append, List.length_cons, List.length_nil] at enough
      rw [tokensOf, List.append_assoc, List.cons_append, List.singleton_append]
      cases items with
      | nil => simp only [tokensOfItems, List.nil_append, ofTokens, ofJson,
          itemsOfJson, nested_of_lt _ inside]
      | cons j items =>
          have inner : ∀ i ∈ j :: items, Drafts (depth + 1) i := fun i mem => ih i mem (by omega)
          have drafted := items_drafted inner rest
            (show 2 * (tokensOfItems (j :: items)).length + 1 ≤ fuel by omega)
          obtain ⟨t, ts, first, opens⟩ := head_tokensOf j
          rw [tokensOfItems, first, List.cons_append, List.cons_append] at drafted ⊢
          rw [ofTokens_openList opens drafted, nested_of_lt _ inside, ofJson]
  | record plain ih =>
      rename_i n fields
      intro fuel rest enough
      obtain ⟨fuel, rfl⟩ := least _ enough
      have inside : depth < depthLimit := by omega
      simp only [tokensOf, List.length_append, List.length_cons, List.length_nil] at enough
      rw [tokensOf, List.append_assoc, List.cons_append, List.singleton_append]
      cases fields with
      | nil => simp only [tokensOfFields, List.nil_append, ofTokens, ofJson,
          membersOfJson, nested_of_lt _ inside]
      | cons e fields =>
          have inner : ∀ e' ∈ e :: fields, Drafts (depth + 1) e'.2 :=
            fun e' mem => ih e' mem (by omega)
          have drafted := members_drafted inner rest
            (show 2 * (tokensOfFields (e :: fields)).length ≤ fuel by omega)
          obtain ⟨key, j⟩ := e
          rw [tokensOfFields, List.cons_append, List.cons_append] at drafted ⊢
          rw [ofTokens_openRecord (by rintro ⟨⟩) drafted, nested_of_lt _ inside,
            ofJson]

theorem ofText_of_tokens {n : Nat} {j : Json} (plain : j.Plain n) (shallow : n ≤ depthLimit)
    {text : String} (written : tokens text.toList = tokensOf j) :
    ofText text = (ofJson j, []) := by
  have drafts : Drafts 0 j := drafts_of_plain plain (by omega)
  have drafted := drafts (2 * (tokensOf j).length + 2) [] (Nat.le_add_right _ 2)
  rw [List.append_nil] at drafted
  rw [ofText, written, drafted]

theorem ofText_compact {n : Nat} {j : Json} (plain : j.Plain n) (shallow : n ≤ depthLimit) :
    ofText j.compact = (ofJson j, []) :=
  ofText_of_tokens plain shallow plain.tokens_compact

theorem ofText_pretty {n : Nat} {j : Json} (plain : j.Plain n) (shallow : n ≤ depthLimit) :
    ofText j.pretty = (ofJson j, []) :=
  ofText_of_tokens plain shallow plain.tokens_pretty

end Draft

/-- The text is read as the value, if its numbers are read as they are and it is nested no deeper
than the reader follows. -/
def Spells (text : String) (j : Json) : Prop :=
  ∀ n ≤ Draft.depthLimit, j.Plain n → Draft.ofText text = (Draft.ofJson j, [])

theorem spells_compact (j : Json) : Spells j.compact j :=
  fun _ shallow plain => Draft.ofText_compact plain shallow

theorem spells_pretty (j : Json) : Spells j.pretty j :=
  fun _ shallow plain => Draft.ofText_pretty plain shallow

namespace Draft

mutual

theorem passing_ofJson : ∀ j : Json, (ofJson j).passing = none
  | .null => rfl
  | .bool _ => rfl
  | .number _ => rfl
  | .text _ => rfl
  | .list items => by rw [ofJson, passing, passing_itemsOfJson items]; rfl
  | .record fields => by rw [ofJson, passing, passing_membersOfJson fields]; rfl

theorem passing_itemsOfJson : ∀ items : List Json, passingItems (itemsOfJson items) = none
  | [] => rfl
  | j :: items => by
      rw [itemsOfJson, passingItems, passing_ofJson j, passing_itemsOfJson items]
      rfl

theorem passing_membersOfJson :
    ∀ fields : List (String × Json), passingMembers (membersOfJson fields) = none
  | [] => rfl
  | (_, j) :: fields => by
      rw [membersOfJson, passingMembers, passing_ofJson j, passing_membersOfJson fields]
      rfl

end

mutual

theorem reading_ofJson : ∀ j : Json, (ofJson j).reading = none
  | .null => rfl
  | .bool _ => rfl
  | .number _ => rfl
  | .text _ => rfl
  | .list items => by rw [ofJson, reading, reading_itemsOfJson items]; rfl
  | .record fields => by rw [ofJson, reading, reading_membersOfJson fields]; rfl

theorem reading_itemsOfJson : ∀ items : List Json, readingItems (itemsOfJson items) = none
  | [] => rfl
  | j :: items => by
      rw [itemsOfJson, readingItems, reading_ofJson j, reading_itemsOfJson items]
      rfl

theorem reading_membersOfJson :
    ∀ fields : List (String × Json), readingMembers (membersOfJson fields) = none
  | [] => rfl
  | (_, j) :: fields => by
      rw [membersOfJson, readingMembers, reading_ofJson j, reading_membersOfJson fields]
      rfl

end

end Draft

end BenchReport.Json
