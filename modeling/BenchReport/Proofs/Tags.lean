import BenchReport.Proofs.Text.Trimming
import BenchReport.Tag
set_option autoImplicit false

namespace BenchReport.Tag

variable {s : String} {t : Tag} {cs before after : List Char}

def Unseparated (cs : List Char) : Prop := ':' ∉ cs ∧ '=' ∉ cs

/-- A text in two: what stands before its first separator and what stands behind it. -/
structure Cut (cs before after : List Char) : Prop where
  whole : cs = before ++ ':' :: after ∨ cs = before ++ '=' :: after
  first : Unseparated before

theorem unseparated_iff : Unseparated cs ↔ ∀ c ∈ cs, isSeparator c = false := by
  simp only [Unseparated, isSeparator, Bool.or_eq_false_iff, beq_eq_false_iff_ne]
  constructor
  · intro ⟨colon, equals⟩ c mem
    exact ⟨fun same => colon (same ▸ mem), fun same => equals (same ▸ mem)⟩
  · intro others
    exact ⟨fun mem => (others _ mem).1 rfl, fun mem => (others _ mem).2 rfl⟩

theorem Unseparated.not_separator (free : Unseparated cs) :
    ∀ c ∈ cs, (!isSeparator c) = true := by
  intro c mem
  rw [unseparated_iff.1 free c mem]
  rfl

theorem unseparated_or_cut (cs : List Char) :
    Unseparated cs ∨ ∃ before after, Cut cs before after := by
  cases found : cs.find? isSeparator with
  | none =>
      left
      apply unseparated_iff.2
      intro c mem
      exact Bool.eq_false_iff.2 (List.find?_eq_none.1 found c mem)
  | some c =>
      right
      obtain ⟨separator, before, after, whole, first⟩ := List.find?_eq_some_iff_append.1 found
      refine ⟨before, after, ?_, ?_⟩
      · simp only [isSeparator, Bool.or_eq_true, beq_iff_eq] at separator
        rcases separator with rfl | rfl
        · exact .inl whole
        · exact .inr whole
      · apply unseparated_iff.2
        intro d mem
        simpa using first d mem

theorem Cut.exists_separator (cut : Cut cs before after) :
    ∃ c, isSeparator c = true ∧ cs = before ++ c :: after := by
  rcases cut.whole with colon | equals
  · exact ⟨':', rfl, colon⟩
  · exact ⟨'=', rfl, equals⟩

theorem parse_unseparated (free : Unseparated s.toList) : parse s = .error .noSeparator := by
  have nothing : s.toList.dropWhile (!isSeparator ·) = [] :=
    List.dropWhile_eq_nil_iff.2 free.not_separator
  simp only [parse, nothing]

theorem parse_cut (cut : Cut s.toList before after) :
    parse s = if Text.trimChars before = [] then .error .blankName
      else .ok ⟨String.ofList (Text.trimChars before), String.ofList (Text.trimChars after)⟩ := by
  obtain ⟨c, separator, whole⟩ := cut.exists_separator
  have ahead : s.toList.takeWhile (!isSeparator ·) = before := by
    rw [whole, List.takeWhile_append_of_pos cut.first.not_separator,
      List.takeWhile_cons_of_neg (by simp [separator]), List.append_nil]
  have behind : s.toList.dropWhile (!isSeparator ·) = c :: after := by
    rw [whole, List.dropWhile_append_of_pos cut.first.not_separator,
      List.dropWhile_cons_of_neg (by simp [separator])]
  simp only [parse, ahead, behind]
  split
  · next blank => rw [if_pos blank]
  · next named => rw [if_neg named]

structure Normal (t : Tag) : Prop where
  named : t.name ≠ ""
  unseparated : Unseparated t.name.toList
  name : Text.Unbordered t.name.toList
  value : Text.Unbordered t.value.toList

/-- A text spells a tag: the name stands before its first separator and the value behind it, with
blanks or nothing around each of them. -/
def Spells (s : String) (t : Tag) : Prop :=
  ∃ before after, Cut s.toList before after ∧ Text.Padded t.name.toList before ∧
    Text.Padded t.value.toList after

/-- Both parts of a text that is cut come to a tag in normal form, unless the first one is blank. -/
theorem Cut.normal (cut : Cut cs before after) (named : Text.trimChars before ≠ []) :
    Normal ⟨String.ofList (Text.trimChars before), String.ofList (Text.trimChars after)⟩ := by
  constructor
  case named =>
    intro empty
    apply named
    exact String.ofList_eq_empty_iff.1 empty
  case unseparated =>
    have kept := (Text.padded_trimChars before).subset
    rw [String.toList_ofList]
    exact ⟨fun mem => cut.first.1 (kept mem), fun mem => cut.first.2 (kept mem)⟩
  case name =>
    rw [String.toList_ofList]
    exact Text.unbordered_trimChars before
  case value =>
    rw [String.toList_ofList]
    exact Text.unbordered_trimChars after

theorem parse_ok_iff : parse s = .ok t ↔ t.Normal ∧ Spells s t := by
  constructor
  · intro ok
    rcases unseparated_or_cut s.toList with free | ⟨before, after, cut⟩
    · rw [parse_unseparated free] at ok
      cases ok
    · rw [parse_cut cut] at ok
      split at ok
      · cases ok
      · next named =>
          cases ok
          refine ⟨cut.normal named, before, after, cut, ?_, ?_⟩
          · rw [String.toList_ofList]
            exact Text.padded_trimChars before
          · rw [String.toList_ofList]
            exact Text.padded_trimChars after
  · rintro ⟨normal, before, after, cut, name, value⟩
    have named : t.name.toList ≠ [] := by
      intro empty
      exact normal.named (String.toList_eq_nil_iff.1 empty)
    rw [parse_cut cut, Text.trimChars_of_padded normal.name name,
      Text.trimChars_of_padded normal.value value, if_neg named, String.ofList_toList,
      String.ofList_toList]

theorem parse_error_iff :
    (∃ flaw, parse s = .error flaw) ↔
      Unseparated s.toList ∨
        ∃ before after, Cut s.toList before after ∧ ∀ c ∈ before, Text.isBlank c = true := by
  constructor
  · rintro ⟨flaw, failed⟩
    rcases unseparated_or_cut s.toList with free | ⟨before, after, cut⟩
    · exact .inl free
    · right
      rw [parse_cut cut] at failed
      split at failed
      · next blank => exact ⟨before, after, cut, Text.trimChars_eq_nil_iff.1 blank⟩
      · cases failed
  · rintro (free | ⟨before, after, cut, blank⟩)
    · exact ⟨_, parse_unseparated free⟩
    · refine ⟨.blankName, ?_⟩
      rw [parse_cut cut, if_pos (Text.trimChars_eq_nil_iff.2 blank)]

/-- The first separator in the text of a tag in normal form is the one that was written. -/
theorem Normal.spells_display (normal : t.Normal) : Spells t.display t := by
  refine ⟨t.name.toList, t.value.toList, ⟨?_, normal.unseparated⟩, Text.padded_self _,
    Text.padded_self _⟩
  left
  rw [display, String.toList_append, String.toList_append, List.append_assoc]
  rfl

/-- The text of a tag is a normal form of all texts that spell the tag. A text is refused exactly if
it has no separator or the part before the first one is blank. Any other is read into the tag in
normal form that it spells, and the text of this tag is read into the same tag again. Every tag in
normal form is what its text is read into. -/
theorem parse_display_normal :
    (∀ s, (∃ flaw, parse s = .error flaw) ↔
      Unseparated s.toList ∨
        ∃ before after, Cut s.toList before after ∧ ∀ c ∈ before, Text.isBlank c = true) ∧
    (∀ s t, parse s = .ok t ↔ t.Normal ∧ Spells s t) ∧
    (∀ s t, parse s = .ok t → parse t.display = .ok t) ∧
    ∀ t, t.Normal → parse t.display = .ok t := by
  have again : ∀ t, t.Normal → parse t.display = .ok t := by
    intro t normal
    exact parse_ok_iff.2 ⟨normal, normal.spells_display⟩
  refine ⟨fun s => parse_error_iff, fun s t => parse_ok_iff, ?_, again⟩
  intro s t ok
  exact again t (parse_ok_iff.1 ok).1

/-- An address holds both separators itself; behind an equals sign and blanks it is read as it is,
and written behind a colon. A tag may have no value, but nothing but a wide blank is no name. -/
theorem parse_display_normal_address :
    parse " url =\thttp://host:80/?a=b " = .ok ⟨"url", "http://host:80/?a=b"⟩ ∧
    Normal ⟨"url", "http://host:80/?a=b"⟩ ∧
    parse (display ⟨"url", "http://host:80/?a=b"⟩) = .ok ⟨"url", "http://host:80/?a=b"⟩ ∧
    display ⟨"url", "http://host:80/?a=b"⟩ = "url:http://host:80/?a=b" ∧
    Normal ⟨"team", ""⟩ ∧ parse (display ⟨"team", ""⟩) = .ok ⟨"team", ""⟩ ∧
    ∃ flaw, parse "\u2003= value" = .error flaw := by
  obtain ⟨refused, spelled, same, again⟩ := parse_display_normal
  have read : parse " url =\thttp://host:80/?a=b " = .ok ⟨"url", "http://host:80/?a=b"⟩ := by
    decide +kernel
  have team : Normal ⟨"team", ""⟩ := by
    refine ⟨by decide, ⟨by decide, by decide⟩, ⟨?_, ?_⟩, Text.unbordered_nil⟩
    · rintro _ ⟨⟩
      rfl
    · rintro _ ⟨⟩
      rfl
  have cut : Cut "\u2003= value".toList ['\u2003'] [' ', 'v', 'a', 'l', 'u', 'e'] := by
    refine ⟨.inr (by decide +kernel), ?_⟩
    exact ⟨by decide, by decide⟩
  have blank : ∀ c ∈ ['\u2003'], Text.isBlank c = true := List.forall_mem_singleton.2 rfl
  exact ⟨read, ((spelled _ _).1 read).1, same _ _ read, by decide +kernel, team, again _ team,
    (refused _).2 (.inr ⟨_, _, cut, blank⟩)⟩

end BenchReport.Tag
