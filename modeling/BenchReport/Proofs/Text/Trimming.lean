import BenchReport.Text.Blank
import Mathlib.Data.List.DropRight
set_option autoImplicit false

namespace BenchReport.Text

/-- A text that neither begins nor ends with a blank. -/
structure Unbordered (cs : List Char) : Prop where
  first : ∀ c ∈ cs.head?, isBlank c = false
  last : ∀ c ∈ cs.getLast?, isBlank c = false

/-- The text `cs` is `core` with blanks or nothing around it. -/
def Padded (core cs : List Char) : Prop :=
  ∃ front back, cs = front ++ core ++ back ∧ (∀ c ∈ front, isBlank c = true) ∧
    ∀ c ∈ back, isBlank c = true

variable {cs core : List Char}

theorem unbordered_nil : Unbordered [] := ⟨nofun, nofun⟩

theorem padded_self (cs : List Char) : Padded cs cs := by
  refine ⟨[], [], ?_, nofun, nofun⟩
  rw [List.append_nil, List.nil_append]

theorem Padded.subset (padded : Padded core cs) : core ⊆ cs := by
  obtain ⟨front, back, rfl, -, -⟩ := padded
  intro c mem
  exact List.mem_append_left back (List.mem_append_right front mem)

theorem head?_dropWhile_isBlank (cs : List Char) :
    ∀ c ∈ (cs.dropWhile isBlank).head?, isBlank c = false := by
  intro c mem
  have start := List.head?_dropWhile_not isBlank cs
  rw [Option.mem_def.1 mem] at start
  exact start

theorem dropWhile_isBlank_of_first (first : ∀ c ∈ cs.head?, isBlank c = false) :
    cs.dropWhile isBlank = cs := by
  cases cs with
  | nil => rfl
  | cons c rest =>
      apply List.dropWhile_cons_of_neg
      rw [first c rfl]
      exact Bool.false_ne_true

theorem unbordered_trimChars (cs : List Char) : Unbordered (trimChars cs) := by
  constructor
  case first =>
    intro c mem
    -- dropping blanks at the end leaves the beginning as it was
    have kept : trimChars cs <+: cs.dropWhile isBlank := List.rdropWhile_prefix isBlank _
    obtain ⟨back, whole⟩ := kept
    apply head?_dropWhile_isBlank cs
    rw [← whole, List.head?_append, Option.mem_def.1 mem]
    rfl
  case last =>
    intro c mem
    rw [trimChars, List.getLast?_reverse] at mem
    exact head?_dropWhile_isBlank _ c mem

theorem padded_trimChars (cs : List Char) : Padded (trimChars cs) cs := by
  refine ⟨cs.takeWhile isBlank, (cs.dropWhile isBlank).rtakeWhile isBlank, ?_, ?_, ?_⟩
  · have behind : trimChars cs ++ (cs.dropWhile isBlank).rtakeWhile isBlank =
        cs.dropWhile isBlank := List.rdropWhile_append_rtakeWhile
    rw [List.append_assoc, behind, List.takeWhile_append_dropWhile]
  · intro c mem
    exact List.mem_takeWhile_imp mem
  · intro c mem
    exact List.mem_rtakeWhile_imp mem

theorem trimChars_of_padded (unbordered : Unbordered core) (padded : Padded core cs) :
    trimChars cs = core := by
  obtain ⟨front, back, rfl, front_blank, back_blank⟩ := padded
  rw [trimChars, List.append_assoc, List.dropWhile_append_of_pos front_blank]
  cases core with
  | nil =>
      have none : back.dropWhile isBlank = [] := List.dropWhile_eq_nil_iff.2 back_blank
      rw [List.nil_append, none]
      rfl
  | cons c rest =>
      have start : (c :: rest ++ back).dropWhile isBlank = c :: rest ++ back :=
        dropWhile_isBlank_of_first unbordered.first
      have stop : (c :: rest).reverse.dropWhile isBlank = (c :: rest).reverse := by
        apply dropWhile_isBlank_of_first
        rw [List.head?_reverse]
        exact unbordered.last
      have back_reversed : ∀ d ∈ back.reverse, isBlank d = true := by
        intro d mem
        exact back_blank d (List.mem_reverse.1 mem)
      rw [start, List.reverse_append, List.dropWhile_append_of_pos back_reversed, stop,
        List.reverse_reverse]

/-- Nothing is left of a text exactly if it is blank. -/
theorem trimChars_eq_nil_iff : trimChars cs = [] ↔ ∀ c ∈ cs, isBlank c = true := by
  constructor
  · intro nothing
    obtain ⟨front, back, whole, front_blank, back_blank⟩ := padded_trimChars cs
    rw [nothing, List.append_nil] at whole
    rw [whole]
    exact List.forall_mem_append.2 ⟨front_blank, back_blank⟩
  · intro blank
    apply trimChars_of_padded unbordered_nil
    refine ⟨cs, [], ?_, blank, nofun⟩
    rw [List.append_nil, List.append_nil]

end BenchReport.Text
