import BenchReport.Proofs.Json.Rereading
import BenchReport.Proofs.TableBindings
import BenchReport.Json.Tagged
set_option autoImplicit false

namespace BenchReport

open Json

namespace Codec

variable {α β : Type} {n : Nat}

/-- What the codec writes of a value is plain and is read as the value again. -/
structure Restores (c : Codec α) (n : Nat) (a : α) : Prop where
  plain : (c.write a).Plain n
  reads : ∀ m, c.read m (Draft.ofJson (c.write a)) = .ok a

theorem Restores.rereads {c : Codec α} {a : α} (restores : c.Restores n a)
    (shallow : n ≤ Draft.depthLimit) : c.ofText (c.toText a) = .ok a := by
  rw [ofText_ok_iff, toText, Draft.ofText_compact restores.plain shallow]
  exact ⟨restores.reads .text, rfl⟩

theorem text_restores (s : String) : text.Restores n s := ⟨.text s, fun _ => rfl⟩

theorem integer_restores {low high i : Int} {expected : String} (small : Int64.minValue.toInt ≤ i)
    (large : i < UInt64.size) (within : low ≤ i ∧ i ≤ high) :
    (integer low high expected).Restores n i := by
  refine ⟨.number (Number.rereads_int small large), fun m => ?_⟩
  exact if_pos within

theorem along_restores {c : Codec α} {into : β → α} {out : α → β} {b : β}
    (restores : c.Restores n (into b)) (back : out (into b) = b) :
    (c.along into out).Restores n b := by
  refine ⟨restores.plain, fun m => ?_⟩
  change out <$> c.read m (Draft.ofJson (c.write (into b))) = .ok b
  rw [restores.reads m]
  exact congrArg Except.ok back

theorem checked_restores {c : Codec α} {into : β → α} {out : α → Except Fault β} {b : β}
    (restores : c.Restores n (into b)) (back : out (into b) = .ok b) :
    (c.checked into out).Restores n b := by
  refine ⟨restores.plain, fun m => ?_⟩
  change c.read m (Draft.ofJson (c.write (into b))) >>= out = .ok b
  rw [restores.reads m]
  exact back

theorem word16_restores (w : UInt16) : word16.Restores n w := by
  have bounded : w.toNat < UInt16.size := w.toNat_lt
  have large : (UInt16.size : Int) ≤ UInt64.size := by decide
  have least : Int64.minValue.toInt ≤ 0 := by decide
  refine along_restores (integer_restores (by omega) (by omega) (by omega)) ?_
  exact UInt16.ofNat_toNat

theorem word32_restores (w : UInt32) : word32.Restores n w := by
  have bounded : w.toNat < UInt32.size := w.toNat_lt
  have large : (UInt32.size : Int) ≤ UInt64.size := by decide
  have least : Int64.minValue.toInt ≤ 0 := by decide
  refine along_restores (integer_restores (by omega) (by omega) (by omega)) ?_
  exact UInt32.ofNat_toNat

theorem float_restores {x : Float} (readable : Readable x) : float.Restores n x :=
  ⟨.number (Number.rereads_float readable), fun _ => rfl⟩

/-- An optional value is told from an absent one unless it is written as null itself. -/
theorem option_some_restores {c : Codec α} {a : α} (restores : c.Restores n a)
    (shown : c.write a ≠ .null) : c.option.Restores n (some a) := by
  refine ⟨restores.plain, fun m => ?_⟩
  have read : some <$> c.read m (Draft.ofJson (c.write a)) = .ok (some a) := by
    rw [restores.reads m]
    rfl
  change c.option.read m (Draft.ofJson (c.write a)) = .ok (some a)
  -- Of all drafts only null and a flaw that begins as null are not left to the codec within.
  cases written : c.write a with
  | null => exact absurd written shown
  | bool b => rw [written] at read; exact read
  | number k => rw [written] at read; exact read
  | text s => rw [written] at read; exact read
  | list items => rw [written] at read; exact read
  | record fields => rw [written] at read; exact read

theorem readItems_map {c : Codec α} {as : List α} (restores : ∀ a ∈ as, c.Restores n a)
    (m : Medium) : readItems c m none (Draft.itemsOfJson (as.map c.write)) = .ok as := by
  induction as with
  | nil => rfl
  | cons a as ih =>
      obtain ⟨first, others⟩ := List.forall_mem_cons.1 restores
      rw [List.map_cons, Draft.itemsOfJson, readItems, first.reads m, ih others]
      rfl

theorem list_restores {c : Codec α} {as : List α} (restores : ∀ a ∈ as, c.Restores n a) :
    c.list.Restores (n + 1) as := by
  refine ⟨.list ?_, fun m => readItems_map restores m⟩
  exact List.forall_mem_map.2 fun a mem => (restores a mem).plain

theorem readMembers_map {c : Codec α} {l : List (String × α)}
    (restores : ∀ e ∈ l, c.Restores n e.2) (m : Medium) :
    readMembers .ok c m none (Draft.membersOfJson (l.map fun e => (e.1, c.write e.2))) = .ok l := by
  induction l with
  | nil => rfl
  | cons e l ih =>
      obtain ⟨first, others⟩ := List.forall_mem_cons.1 restores
      rw [List.map_cons, Draft.membersOfJson, readMembers, first.reads m, ih others]
      rfl

theorem texts_restores {c : Codec α} {t : Table String α}
    (restores : ∀ e ∈ t.entries, c.Restores n e.2) : c.texts.Restores (n + 1) t := by
  refine ⟨.record ?_, fun m => ?_⟩
  · exact List.forall_mem_map.2 fun e mem => (restores e mem).plain
  · change Table.ofList <$> readMembers .ok c m none (Draft.membersOfJson
      (t.entries.map fun e => (e.1, c.write e.2))) = .ok t
    rw [readMembers_map restores m]
    exact congrArg Except.ok (Table.ofList_entries t)

theorem findWord_spell {words : List α} {spell : α → String} {a : α} (mem : a ∈ words)
    (distinct : ∀ b ∈ words, spell b = spell a → b = a) :
    findWord words spell (spell a) = .ok a := by
  unfold findWord
  cases found : words.find? (spell · == spell a) with
  | none =>
      have none_spelled := List.find?_eq_none.1 found a mem
      simp at none_spelled
  | some b =>
      have spelled : spell b = spell a := by simpa using List.find?_some found
      rw [distinct b (List.mem_of_find?_eq_some found) spelled]

theorem word_restores {words : List α} {spell : α → String} {a : α} (mem : a ∈ words)
    (distinct : ∀ b ∈ words, spell b = spell a → b = a) : (word words spell).Restores n a :=
  ⟨.text _, fun m => by cases m <;> exact findWord_spell mem distinct⟩

end Codec

namespace Codec

def unplaced (m : Member) : Except Flaw String × Draft := (.ok m.name, m.value)

theorem unplaced_placed (place : Nat) (ws : List (String × Json)) :
    (placed place (Draft.membersOfJson ws)).map unplaced = Draft.membersOfJson ws := by
  induction ws generalizing place with
  | nil => rfl
  | cons e ws ih => rw [Draft.membersOfJson, placed, List.map_cons, ih]; rfl

theorem filter_of_unplaced {ms : List Member} {ws : List (String × Json)}
    (same : ms.map unplaced = Draft.membersOfJson ws) (wanted : String → Bool) :
    (ms.filter fun m => wanted m.name).map unplaced =
      Draft.membersOfJson (ws.filter fun e => wanted e.1) := by
  induction ms generalizing ws with
  | nil =>
      cases ws with
      | nil => rfl
      | cons e ws => cases same
  | cons m ms ih =>
      cases ws with
      | nil => cases same
      | cons e ws =>
          rw [List.map_cons, Draft.membersOfJson, List.cons.injEq, unplaced, Prod.mk.injEq,
            Except.ok.injEq] at same
          obtain ⟨⟨name, value⟩, same⟩ := same
          rw [List.filter_cons, List.filter_cons, name]
          split
          · rw [List.map_cons, Draft.membersOfJson, ih same, unplaced, name, value]
          · exact ih same

theorem textTrouble_membersOfJson (keep : String → Bool) (gathers : Bool) (place : Nat)
    (ws : List (String × Json)) :
    textTrouble keep gathers none place (Draft.membersOfJson ws) = .ok () := by
  induction ws generalizing place with
  | nil => rfl
  | cons e ws ih =>
      rw [Draft.membersOfJson, textTrouble, Draft.reading_ofJson, Draft.passing_ofJson, ite_self]
      split
      · exact ih (place + 1)
      · exact ih (place + 1)

end Codec

namespace Fields

open Codec (unplaced)

variable {σ τ α β : Type} {n : Nat} {s : σ}

def names (f : Fields σ α) : List String := f.named ++ f.gathered

theorem names_seq_perm (f : Fields σ (α → β)) (x : Fields σ α) :
    (f <*> x).names.Perm (f.names ++ x.names) := by
  have listed : (f <*> x).names = f.named ++ x.named ++ (f.gathered ++ x.gathered) := rfl
  rw [listed, names, names, List.append_assoc, List.append_assoc]
  apply List.Perm.append_left
  rw [← List.append_assoc, ← List.append_assoc]
  exact List.perm_append_comm.append_right x.gathered

theorem mem_names_seq {f : Fields σ (α → β)} {x : Fields σ α} {k : String} :
    k ∈ (f <*> x).names ↔ k ∈ f.names ∨ k ∈ x.names :=
  (names_seq_perm f x).mem_iff.trans List.mem_append

/-- Fields of a record with distinct names have distinct names, and the names differ from part to
part. -/
theorem nodup_names_seq {f : Fields σ (α → β)} {x : Fields σ α} (distinct : (f <*> x).names.Nodup) :
    f.names.Nodup ∧ x.names.Nodup ∧ ∀ k ∈ f.names, k ∉ x.names := by
  obtain ⟨left, right, apart⟩ := List.nodup_append.1 ((names_seq_perm f x).nodup_iff.1 distinct)
  exact ⟨left, right, fun k mem mem' => apart k mem k mem' rfl⟩

theorem write_seq (f : Fields σ (α → β)) (x : Fields σ α) (s : σ) :
    (f <*> x).write s = f.write s ++ x.write s := rfl

/-- The members of a record hold what some of its fields wrote: under their names stands nothing
else. -/
structure Held (f : Fields σ α) (s : σ) (known : List String) (ms : List Member) : Prop where
  among : ∀ k ∈ f.names, k ∈ known
  named : ∀ k ∈ f.names, (ms.filter fun m => m.name == k).map unplaced =
    Draft.membersOfJson ((f.write s).filter fun e => e.1 == k)

/-- The members that no field names are also what the fields wrote. -/
structure HeldFree (f : Fields σ α) (s : σ) (known : List String) (ms : List Member) : Prop
    extends f.Held s known ms where
  apart : ∀ e ∈ f.write s, e.1 ∈ f.names ∨ e.1 ∉ known
  free : (ms.filter fun m => !known.contains m.name).map unplaced =
    Draft.membersOfJson ((f.write s).filter fun e => !known.contains e.1)

/-- The fields write under their own names only. What they write of `s` is plain, and from a record
that holds it they read `a`. -/
structure Keeps (f : Fields σ α) (n : Nat) (s : σ) (a : α) : Prop where
  plain : ∀ e ∈ f.write s, e.2.Plain n
  closed : ∀ e ∈ f.write s, e.1 ∈ f.names
  reads : f.names.Nodup → ∀ {m known ms}, f.Held s known ms → f.ofMembers m known ms = .ok a

/-- Fields that may also write under names of their value, and read `a` from a record that holds no
further names. -/
structure Restores (f : Fields σ α) (n : Nat) (s : σ) (a : α) : Prop where
  plain : ∀ e ∈ f.write s, e.2.Plain n
  reads : f.names.Nodup → ∀ {m known ms}, f.HeldFree s known ms → f.ofMembers m known ms = .ok a

theorem Keeps.restores {f : Fields σ α} {a : α} (keeps : f.Keeps n s a) : f.Restores n s a :=
  ⟨keeps.plain, fun distinct _ _ _ held => keeps.reads distinct held.toHeld⟩

theorem pure_keeps (a : α) : (Fields.pure a : Fields σ α).Keeps n s a where
  plain _ mem := by cases mem
  reads _ _ _ _ _ := rfl
  closed _ mem := by cases mem

theorem filter_write_eq_nil {ws : List (String × Json)} {k : String} (absent : ∀ e ∈ ws, e.1 ≠ k) :
    ws.filter (fun e => e.1 == k) = [] :=
  List.filter_eq_nil_iff.2 fun e mem => by simpa using absent e mem

theorem Held.left {f : Fields σ (α → β)} {x : Fields σ α} {known : List String} {ms : List Member}
    (held : (f <*> x).Held s known ms) (apart : ∀ e ∈ x.write s, e.1 ∉ f.names) :
    f.Held s known ms := by
  refine ⟨fun k mem => held.among k (mem_names_seq.2 (.inl mem)), fun k mem => ?_⟩
  have elsewhere : ∀ e ∈ x.write s, e.1 ≠ k := by
    rintro e written rfl
    exact apart e written mem
  rw [held.named k (mem_names_seq.2 (.inl mem)), write_seq, List.filter_append,
    filter_write_eq_nil elsewhere, List.append_nil]

theorem Held.right {f : Fields σ (α → β)} {x : Fields σ α} {known : List String} {ms : List Member}
    (held : (f <*> x).Held s known ms) (closed : ∀ e ∈ f.write s, e.1 ∈ f.names)
    (apart : ∀ k ∈ f.names, k ∉ x.names) : x.Held s known ms := by
  refine ⟨fun k mem => held.among k (mem_names_seq.2 (.inr mem)), fun k mem => ?_⟩
  have elsewhere : ∀ e ∈ f.write s, e.1 ≠ k := by
    rintro e written rfl
    exact apart e.1 (closed e written) mem
  rw [held.named k (mem_names_seq.2 (.inr mem)), write_seq, List.filter_append,
    filter_write_eq_nil elsewhere, List.nil_append]

theorem HeldFree.right {f : Fields σ (α → β)} {x : Fields σ α} {known : List String}
    {ms : List Member} (held : (f <*> x).HeldFree s known ms)
    (closed : ∀ e ∈ f.write s, e.1 ∈ f.names) (apart : ∀ k ∈ f.names, k ∉ x.names)
    (apart' : ∀ e ∈ x.write s, e.1 ∉ f.names) : x.HeldFree s known ms := by
  refine ⟨held.toHeld.right closed apart, fun e written => ?_, ?_⟩
  · rcases held.apart e (List.mem_append_right _ written) with mem | free
    · exact .inl ((mem_names_seq.1 mem).resolve_left (apart' e written))
    · exact .inr free
  · have named : (f.write s).filter (fun e => !known.contains e.1) = [] := by
      refine List.filter_eq_nil_iff.2 fun e written => ?_
      have mem := held.among e.1 (mem_names_seq.2 (.inl (closed e written)))
      simpa using mem
    rw [held.free, write_seq, List.filter_append, named, List.nil_append]

/-- Fields without names of their own get all that they wrote as members that no field names. -/
theorem HeldFree.all {f : Fields σ α} {known : List String} {ms : List Member}
    (held : f.HeldFree s known ms) (nameless : f.names = []) :
    (ms.filter fun m => !known.contains m.name).map unplaced =
      Draft.membersOfJson (f.write s) := by
  have unnamed : (f.write s).filter (fun e => !known.contains e.1) = f.write s := by
    refine List.filter_eq_self.2 fun e mem => ?_
    have apart := held.apart e mem
    rw [nameless] at apart
    simpa using apart.resolve_left List.not_mem_nil
  rw [held.free, unnamed]

theorem ofMembers_seq {f : Fields σ (α → β)} {x : Fields σ α} {m : Medium} {known : List String}
    {ms : List Member} {g : α → β} {a : α} (left : f.ofMembers m known ms = .ok g)
    (right : x.ofMembers m known ms = .ok a) : (f <*> x).ofMembers m known ms = .ok (g a) := by
  change Trouble.both (f.ofMembers m known ms) (x.ofMembers m known ms) = .ok (g a)
  rw [left, right]
  rfl

theorem plain_seq {f : Fields σ (α → β)} {x : Fields σ α} (left : ∀ e ∈ f.write s, e.2.Plain n)
    (right : ∀ e ∈ x.write s, e.2.Plain n) : ∀ e ∈ (f <*> x).write s, e.2.Plain n := by
  intro e mem
  rcases List.mem_append.1 mem with mem | mem
  · exact left e mem
  · exact right e mem

theorem Keeps.seq {f : Fields σ (α → β)} {x : Fields σ α} {g : α → β} {a : α}
    (left : f.Keeps n s g) (right : x.Keeps n s a) : (f <*> x).Keeps n s (g a) := by
  refine ⟨plain_seq left.plain right.plain, fun e mem => mem_names_seq.2 ?_, ?_⟩
  · rcases List.mem_append.1 mem with mem | mem
    · exact .inl (left.closed e mem)
    · exact .inr (right.closed e mem)
  · intro distinct m known ms held
    obtain ⟨left_distinct, right_distinct, apart⟩ := nodup_names_seq distinct
    have apart' : ∀ e ∈ x.write s, e.1 ∉ f.names :=
      fun e written mem => apart e.1 mem (right.closed e written)
    exact ofMembers_seq (left.reads left_distinct (held.left apart'))
      (right.reads right_distinct (held.right left.closed apart))

/-- Fields that write under names of their value may stand last in a record. -/
theorem Keeps.seqFree {f : Fields σ (α → β)} {x : Fields σ α} {g : α → β} {a : α}
    (left : f.Keeps n s g) (right : x.Restores n s a)
    (apart' : ∀ e ∈ x.write s, e.1 ∉ f.names) : (f <*> x).Restores n s (g a) := by
  refine ⟨plain_seq left.plain right.plain, fun distinct m known ms held => ?_⟩
  obtain ⟨left_distinct, right_distinct, apart⟩ := nodup_names_seq distinct
  exact ofMembers_seq (left.reads left_distinct (held.toHeld.left apart'))
    (right.reads right_distinct (held.right left.closed apart apart'))

theorem Keeps.map {x : Fields σ α} {a : α} (g : α → β) (keeps : x.Keeps n s a) :
    (g <$> x).Keeps n s (g a) := (pure_keeps g).seq keeps

theorem inline_keeps {sub : Fields τ β} {get : σ → τ} {b : β} (keeps : sub.Keeps n (get s) b) :
    (inline sub get).Keeps n s b := by
  refine ⟨keeps.plain, keeps.closed, fun distinct m known ms held => ?_⟩
  have read := keeps.reads distinct (m := .value) ⟨held.among, held.named⟩
  simp only [inline, read]

theorem inline_restores {sub : Fields τ β} {get : σ → τ} {b : β}
    (restores : sub.Restores n (get s) b) : (inline sub get).Restores n s b := by
  refine ⟨restores.plain, fun distinct m known ms held => ?_⟩
  have read := restores.reads distinct (m := .value)
    ⟨⟨held.among, held.named⟩, held.apart, held.free⟩
  simp only [inline, read]

/-- A field is read back when it is written as something that reads back, or is left out where its
absence says the same. -/
theorem field_keeps {name : String} {c : Codec β} {get : σ → β} {p : Policy β}
    (shown : p.shown (get s) = true → c.Restores n (get s))
    (hidden : p.shown (get s) = false → p.absent = some (get s)) :
    (field name c get p).Keeps n s (get s) := by
  have written : (field name c get p).write s =
      if p.shown (get s) then [(name, c.write (get s))] else [] := rfl
  have own : name ∈ (field name c get p).names := List.mem_singleton_self name
  cases visible : p.shown (get s) with
  | false =>
      rw [visible, if_neg Bool.false_ne_true] at written
      refine ⟨by simp [written], by simp [written], fun _ m known ms held => ?_⟩
      have nothing := held.named name own
      rw [written, List.filter_nil, Draft.membersOfJson, List.map_eq_nil_iff] at nothing
      simp only [field, nothing, hidden visible]
  | true =>
      rw [visible, if_pos rfl] at written
      have restores := shown visible
      refine ⟨by simpa [written] using restores.plain, by simpa [written] using own,
        fun _ m known ms held => ?_⟩
      have one := held.named name own
      rw [written, List.filter_cons_of_pos (by simp), List.filter_nil, Draft.membersOfJson,
        Draft.membersOfJson, List.map_eq_singleton_iff] at one
      obtain ⟨x, found, same⟩ := one
      have value : x.value = Draft.ofJson (c.write (get s)) := congrArg Prod.snd same
      simp only [field, found, value, restores.reads m]

theorem required_keeps {name : String} {c : Codec β} {get : σ → β}
    (restores : c.Restores n (get s)) : (required name c get).Keeps n s (get s) :=
  field_keeps (fun _ => restores) (fun hidden => nomatch hidden)

theorem defaulted_keeps {name : String} {c : Codec β} {get : σ → β} {b : β}
    (restores : c.Restores n (get s)) : (defaulted name c get b).Keeps n s (get s) :=
  field_keeps (fun _ => restores) (fun hidden => nomatch hidden)

theorem sparse_keeps {name : String} {c : Codec β} {get : σ → Option β}
    (restores : ∀ b, get s = some b → c.Restores n b ∧ c.write b ≠ .null) :
    (sparse name c get).Keeps n s (get s) := by
  refine field_keeps (fun shown => ?_) (fun hidden => ?_)
  · obtain ⟨b, present⟩ := Option.isSome_iff_exists.1 shown
    rw [present]
    exact Codec.option_some_restores (restores b present).1 (restores b present).2
  · have absent : get s = none := by simpa using hidden
    rw [absent]

section Kinds

variable {name : String}

theorem required_text_keeps {get : σ → String} : (required name Codec.text get).Keeps n s (get s) :=
  required_keeps (Codec.text_restores _)

theorem defaulted_text_keeps {get : σ → String} {t : String} :
    (defaulted name Codec.text get t).Keeps n s (get s) :=
  defaulted_keeps (Codec.text_restores _)

theorem sparse_text_keeps {get : σ → Option String} :
    (sparse name Codec.text get).Keeps n s (get s) :=
  sparse_keeps fun t _ => ⟨Codec.text_restores t, nofun⟩

theorem sparse_word16_keeps {get : σ → Option UInt16} :
    (sparse name Codec.word16 get).Keeps n s (get s) :=
  sparse_keeps fun w _ => ⟨Codec.word16_restores w, nofun⟩

theorem sparse_word32_keeps {get : σ → Option UInt32} :
    (sparse name Codec.word32 get).Keeps n s (get s) :=
  sparse_keeps fun w _ => ⟨Codec.word32_restores w, nofun⟩

theorem sparse_float_keeps {get : σ → Option Float} (readable : ∀ x ∈ get s, Readable x) :
    (sparse name Codec.float get).Keeps n s (get s) :=
  sparse_keeps fun x present => ⟨Codec.float_restores (readable x present), nofun⟩

end Kinds

/-- The fields of a vector keep a vector when each of them keeps its item. -/
theorem vector_keeps {size : Nat} {f : Fin size → Fields σ β} {v : Fin size → β}
    (keeps : ∀ i, (f i).Keeps n s (v i)) : (vector size f).Keeps n s (Vector.ofFn v) := by
  induction size with
  | zero =>
      have nothing : Vector.ofFn v = #v[] := Vector.eq_empty
      rw [nothing]
      exact pure_keeps #v[]
  | succ size ih =>
      have front := ih fun i => keeps i.castSucc
      rw [Vector.ofFn_succ]
      exact .seq (.map Vector.push front) (keeps (Fin.last size))

theorem valuesOf_unplaced {c : Codec β} {l : List (String × β)}
    (restores : ∀ e ∈ l, c.Restores n e.2) (place : Nat) {ms : List Member}
    (same : ms.map unplaced = Draft.membersOfJson (l.map fun e => (e.1, c.write e.2))) :
    valuesOf c place ms = .ok l := by
  induction l generalizing ms with
  | nil =>
      rw [List.map_nil, Draft.membersOfJson, List.map_eq_nil_iff] at same
      rw [same, valuesOf]
  | cons e l ih =>
      have first : c.Restores n e.2 := restores e List.mem_cons_self
      have rest := fun e' mem => restores e' (List.mem_cons_of_mem e mem)
      rw [List.map_cons, Draft.membersOfJson, List.map_eq_cons_iff] at same
      obtain ⟨m, ms, rfl, member, same⟩ := same
      have name : m.name = e.1 := Except.ok.inj (congrArg Prod.fst member)
      have value : m.value = Draft.ofJson (c.write e.2) := congrArg Prod.snd member
      simp only [valuesOf, value, first.reads, ih rest same, name]

/-- A table set into a record is read back from the members that no other field names. -/
theorem others_restores {c : Codec β} {get : σ → Table String β}
    (restores : ∀ e ∈ (get s).entries, c.Restores n e.2) : (others c get).Restores n s (get s) := by
  refine ⟨?_, fun _ m known ms held => ?_⟩
  · exact List.forall_mem_map.2 fun e mem => (restores e mem).plain
  · have read := valuesOf_unplaced restores (afterwards ms) (held.all rfl)
    simp only [others, read]
    exact congrArg Except.ok (Table.ofList_entries (get s))

end Fields

/-- A record without flaws is read as what its fields read from its members. -/
theorem Codec.record_read {α : Type} {name : String} {fs : Fields α α} {m : Medium}
    {ws : List (String × Json)} {a : α}
    (read : fs.ofMembers m fs.names (placed 0 (Draft.membersOfJson ws)) = .ok a) :
    (record name fs).read m (Draft.ofJson (.record ws)) = .ok a := by
  change settle (Trouble.both (Trouble.both (.ok fun _ a => a) (textTrouble fs.named.contains
    fs.gathers none 0 (Draft.membersOfJson ws))) (fs.ofMembers m fs.names
      (placed 0 (Draft.membersOfJson ws)))) = .ok a
  rw [read, textTrouble_membersOfJson]
  rfl

/-- A record whose fields have distinct names reads back when its fields do. -/
theorem Codec.record_restores {α : Type} {n : Nat} {name : String} {fs : Fields α α} {a : α}
    (restores : fs.Restores n a a) (distinct : fs.names.Nodup) :
    (record name fs).Restores (n + 1) a := by
  refine ⟨.record restores.plain, fun m => record_read ?_⟩
  have placed_as := unplaced_placed 0 (fs.write a)
  have held : fs.HeldFree a fs.names (placed 0 (Draft.membersOfJson (fs.write a))) :=
    ⟨⟨fun _ mem => mem, fun k _ => filter_of_unplaced placed_as (· == k)⟩,
      fun e _ => Decidable.em _, filter_of_unplaced placed_as fun k => !fs.names.contains k⟩
  exact restores.reads distinct held

namespace Variants

variable {α : Type} {n : Nat}

theorem readTag_word {v : Variants α} {a : α} (listed : v.word a ∈ v.words) (m : Medium) :
    v.readTag m (.text (v.word a)) = .ok (v.word a) := by
  have found : Codec.findWord v.words id (v.word a) = .ok (v.word a) :=
    Codec.findWord_spell listed fun _ _ same => same
  cases m <;> exact found

/-- The tag and the fields of a form are read back from the members that no field names. -/
theorem fields_restores {v : Variants α} {a : α} (listed : v.word a ∈ v.words)
    (plain : ∀ e ∈ v.write a, e.2.Plain n) (untagged : ∀ e ∈ v.write a, e.1 ≠ v.tag)
    (reads : v.read (v.word a) (Draft.ofJson (.record (v.write a))) = .ok a) :
    v.fields.Restores n a a := by
  have written : v.fields.write a = (v.tag, .text (v.word a)) :: v.write a := rfl
  refine ⟨?_, fun _ m known ms held => ?_⟩
  · rw [written]
    exact List.forall_mem_cons.2 ⟨.text _, plain⟩
  · have free := held.all rfl
    rw [written] at free
    have tagged := Codec.filter_of_unplaced free (· == v.tag)
    have own := Codec.filter_of_unplaced free (· != v.tag)
    have no_tag : (v.write a).filter (fun e => e.1 == v.tag) = [] :=
      Fields.filter_write_eq_nil untagged
    have no_other : (v.write a).filter (fun e => e.1 != v.tag) = v.write a :=
      List.filter_eq_self.2 fun e mem => by simpa using untagged e mem
    rw [List.filter_cons_of_pos (by simp), no_tag, Draft.membersOfJson, Draft.membersOfJson,
      List.map_eq_singleton_iff] at tagged
    rw [List.filter_cons_of_neg (by simp), no_other] at own
    obtain ⟨t, found, same⟩ := tagged
    have word : t.value = .text (v.word a) := congrArg Prod.snd same
    have read : v.readFree (ms.filter fun m => !known.contains m.name) = .ok a := by
      unfold readFree
      simp only [found, word]
      rw [readTag_word listed]
      change v.read (v.word a) (.record (List.map Codec.unplaced _) none) = .ok a
      rw [own]
      exact reads
    simp only [fields, read]

end Variants

end BenchReport
