set_option autoImplicit false

namespace BenchReport

/-- A finite map whose keys stand in strictly ascending order. -/
structure Table (κ α : Type) [Ord κ] where
  entries : List (κ × α)
  ascending : entries.Pairwise fun a b => compare a.1 b.1 = .lt

namespace Table

variable {κ α β : Type} [Ord κ]

theorem ext_entries {s t : Table κ α} (h : s.entries = t.entries) : s = t := by
  cases s; cases t; cases h; rfl

instance [DecidableEq κ] [DecidableEq α] : DecidableEq (Table κ α) := fun s t =>
  decidable_of_iff (s.entries = t.entries) ⟨ext_entries, congrArg entries⟩

instance [BEq κ] [BEq α] : BEq (Table κ α) := ⟨fun s t => s.entries == t.entries⟩

/-- The table without a binding. -/
def empty : Table κ α := ⟨[], List.Pairwise.nil⟩

instance : Inhabited (Table κ α) := ⟨empty⟩

def toList (t : Table κ α) : List (κ × α) := t.entries

def keys (t : Table κ α) : List κ := t.entries.map (·.1)

def values (t : Table κ α) : List α := t.entries.map (·.2)

def isEmpty (t : Table κ α) : Bool := t.entries.isEmpty

/-- The value bound to `k` in a list of bindings. -/
def lookup (k : κ) : List (κ × α) → Option α
  | [] => none
  | (k', x) :: rest => if compare k k' = .eq then some x else lookup k rest

def get? (t : Table κ α) (k : κ) : Option α := lookup k t.entries

def contains (t : Table κ α) (k : κ) : Bool := (t.get? k).isSome

/-- Rebinds `k` in an ascending list: the new value may depend on the one it replaces. -/
def alterEntries (k : κ) (f : Option α → α) : List (κ × α) → List (κ × α)
  | [] => [(k, f none)]
  | (k', x) :: rest =>
    match compare k k' with
    | .lt => (k, f none) :: (k', x) :: rest
    | .eq => (k', f (some x)) :: rest
    | .gt => (k', x) :: alterEntries k f rest

theorem mem_alterEntries {k : κ} {f : Option α → α} {e : κ × α} {l : List (κ × α)}
    (h : e ∈ alterEntries k f l) : e.1 = k ∨ ∃ e' ∈ l, e'.1 = e.1 := by
  induction l with
  | nil => simp [alterEntries] at h; simp [h]
  | cons hd tl ih =>
    obtain ⟨k', x⟩ := hd
    simp only [alterEntries] at h
    split at h
    · rcases List.mem_cons.1 h with h | h
      · exact .inl (by simp [h])
      · exact .inr ⟨e, h, rfl⟩
    · rcases List.mem_cons.1 h with h | h
      · exact .inr ⟨(k', x), by simp, by simp [h]⟩
      · exact .inr ⟨e, by simp [h], rfl⟩
    · rcases List.mem_cons.1 h with h | h
      · exact .inr ⟨(k', x), by simp, by simp [h]⟩
      · rcases ih h with h | ⟨e', he', hk⟩
        · exact .inl h
        · exact .inr ⟨e', by simp [he'], hk⟩

theorem pairwise_alterEntries [Std.TransOrd κ] {k : κ} {f : Option α → α} {l : List (κ × α)}
    (h : l.Pairwise fun a b => compare a.1 b.1 = .lt) :
    (alterEntries k f l).Pairwise fun a b => compare a.1 b.1 = .lt := by
  induction l with
  | nil => simp [alterEntries]
  | cons hd tl ih =>
    obtain ⟨k', x⟩ := hd
    have hcons := List.pairwise_cons.1 h
    simp only [alterEntries]
    split
    · rename_i hlt
      refine List.pairwise_cons.2 ⟨fun e he => ?_, h⟩
      rcases List.mem_cons.1 he with he | he
      · simpa [he] using hlt
      · exact Std.TransCmp.lt_trans hlt (hcons.1 e he)
    · exact List.pairwise_cons.2 ⟨fun e he => hcons.1 e he, hcons.2⟩
    · rename_i hgt
      refine List.pairwise_cons.2 ⟨fun e he => ?_, ih hcons.2⟩
      rcases mem_alterEntries he with hk | ⟨e', he', hk⟩
      · simpa [hk] using Std.OrientedCmp.lt_of_gt hgt
      · simpa [hk] using hcons.1 e' he'

/-- The table with every value mapped. -/
def map (f : α → β) (t : Table κ α) : Table κ β where
  entries := t.entries.map fun e => (e.1, f e.2)
  ascending := List.pairwise_map.2 t.ascending

variable [Std.TransOrd κ]

/-- Rebinds `k`; the new value may depend on the one it replaces. -/
def alter (t : Table κ α) (k : κ) (f : Option α → α) : Table κ α :=
  ⟨alterEntries k f t.entries, pairwise_alterEntries t.ascending⟩

/-- Binds `k` to `x`, replacing what was bound to it. -/
def insert (t : Table κ α) (k : κ) (x : α) : Table κ α := t.alter k fun _ => x

/-- Binds the pairs one after another, so the last binding of a key stays. -/
def ofList (l : List (κ × α)) : Table κ α := l.foldl (fun t e => t.insert e.1 e.2) empty

/-- The value at `k` mapped, if there is one. -/
def modify (t : Table κ α) (k : κ) (f : α → α) : Table κ α :=
  match t.get? k with
  | none => t
  | some x => t.insert k (f x)

end Table

end BenchReport
