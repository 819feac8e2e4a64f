import BenchReport.Proofs.Json.Codecs
set_option autoImplicit false

namespace BenchReport

open Json

namespace Fields

open Codec (unplaced)

variable {σ α β : Type} {n : Nat} {s : σ} {name k : String}

/-- The values under a name among written members. -/
def under (k : String) (ws : List (String × Json)) : List Json :=
  (ws.filter fun e => e.1 == k).map (·.2)

@[simp] theorem under_append (k : String) (ws ws' : List (String × Json)) :
    under k (ws ++ ws') = under k ws ++ under k ws' := by
  rw [under, List.filter_append, List.map_append, under, under]

@[simp] theorem under_cons (k k' : String) (j : Json) (ws : List (String × Json)) :
    under k ((k', j) :: ws) = (if k' = k then [j] else []) ++ under k ws := by
  unfold under
  by_cases same : k' = k
  · simp [same]
  · simp [same]

@[simp] theorem under_seq (k : String) (f : Fields σ (α → β)) (x : Fields σ α) (s : σ) :
    under k ((f <*> x).write s) = under k (f.write s) ++ under k (x.write s) :=
  under_append k _ _

@[simp] theorem under_map (k : String) (g : α → β) (x : Fields σ α) (s : σ) :
    under k ((g <$> x).write s) = under k (x.write s) := rfl

@[simp] theorem under_required (k : String) (c : Codec β) (get : σ → β) :
    under k ((required name c get).write s) = if name = k then [c.write (get s)] else [] :=
  (under_cons k name _ []).trans (List.append_nil _)

@[simp] theorem under_defaulted (k : String) (c : Codec β) (get : σ → β) (b : β) :
    under k ((defaulted name c get b).write s) = if name = k then [c.write (get s)] else [] :=
  (under_cons k name _ []).trans (List.append_nil _)

@[simp] theorem under_sparse (k : String) (c : Codec β) (get : σ → Option β) :
    under k ((sparse name c get).write s) =
      if name = k then (get s).toList.map c.write else [] := by
  have written : (sparse name c get).write s =
      if (get s).isSome then [(name, c.option.write (get s))] else [] := rfl
  rw [written]
  cases get s with
  | none => exact (ite_self []).symm
  | some b => exact (under_cons k name _ []).trans (List.append_nil _)

/-- From a record of the members `ws` the fields read `a`, whatever stands under other names. -/
def Reads (f : Fields σ α) (ws : List (String × Json)) (a : α) : Prop :=
  ∀ m known ms, (∀ k ∈ f.names, (ms.filter fun m => m.name == k).map unplaced =
    Draft.membersOfJson (ws.filter fun e => e.1 == k)) → f.ofMembers m known ms = .ok a

variable {ws : List (String × Json)}

theorem pure_reads (a : α) : (Fields.pure a : Fields σ α).Reads ws a := fun _ _ _ _ => rfl

theorem Reads.seq {f : Fields σ (α → β)} {x : Fields σ α} {g : α → β} {a : α}
    (left : f.Reads ws g) (right : x.Reads ws a) : (f <*> x).Reads ws (g a) := by
  intro m known ms same
  apply ofMembers_seq
  · exact left m known ms fun k mem => same k (mem_names_seq.2 (.inl mem))
  · exact right m known ms fun k mem => same k (mem_names_seq.2 (.inr mem))

theorem Reads.map {x : Fields σ α} {a : α} (g : α → β) (reads : x.Reads ws a) :
    (g <$> x).Reads ws (g a) := .seq (pure_reads g) reads

theorem filter_of_under {js : List Json} (stands : under k ws = js) :
    ws.filter (fun e => e.1 == k) = js.map (k, ·) := by
  rw [← stands, under, List.map_map]
  refine (List.map_id _).symm.trans (List.map_congr_left fun e mem => ?_)
  have named : e.1 = k := by simpa using (List.mem_filter.1 mem).2
  rw [← named]
  rfl

/-- A field reads the one value under its name. -/
theorem field_reads {c : Codec β} {get : σ → β} {p : Policy β} {j : Json} {b : β}
    (stands : under name ws = [j]) (reads : ∀ m, c.read m (Draft.ofJson j) = .ok b) :
    (field name c get p).Reads ws b := by
  intro m known ms same
  have one := same name (List.mem_singleton_self name)
  rw [filter_of_under stands, List.map_singleton, Draft.membersOfJson, Draft.membersOfJson,
    List.map_eq_singleton_iff] at one
  obtain ⟨x, found, member⟩ := one
  have value : x.value = Draft.ofJson j := congrArg Prod.snd member
  simp only [field, found, value, reads m]

/-- A field without a value under its name is what it is when the record lacks it. -/
theorem field_reads_absent {c : Codec β} {get : σ → β} {p : Policy β} {b : β}
    (nothing : under name ws = []) (absent : p.absent = some b) :
    (field name c get p).Reads ws b := by
  intro m known ms same
  have none := same name (List.mem_singleton_self name)
  rw [filter_of_under nothing, List.map_nil, Draft.membersOfJson, List.map_eq_nil_iff] at none
  simp only [field, none, absent]

theorem defaulted_reads {c : Codec β} {get : σ → β} {b b' : β}
    (stands : under name ws = [c.write b]) (restores : c.Restores n b) :
    (defaulted name c get b').Reads ws b := field_reads stands restores.reads

theorem nullable_reads {c : Codec β} {get : σ → Option β} {o : Option β}
    (stands : under name ws = o.toList.map c.write)
    (restores : ∀ b ∈ o, c.Restores n b ∧ c.write b ≠ .null) :
    (nullable name c get).Reads ws o := by
  cases o with
  | none => exact field_reads_absent stands rfl
  | some b =>
      have ⟨restored, shown⟩ := restores b rfl
      exact field_reads stands (Codec.option_some_restores restored shown).reads

theorem nullable_text_reads {get : σ → Option String} {o : Option String}
    (stands : under name ws = o.toList.map Codec.text.write) :
    (nullable name Codec.text get).Reads ws o :=
  nullable_reads (n := 0) stands fun t _ => ⟨Codec.text_restores t, nofun⟩

end Fields

/-- A record is read as what its fields read from the members that were written. -/
theorem Codec.record_reads {α : Type} {name : String} {fs : Fields α α}
    {ws : List (String × Json)} {a : α} (reads : fs.Reads ws a) (m : Medium) :
    (record name fs).read m (Draft.ofJson (.record ws)) = .ok a := by
  apply record_read
  exact reads m fs.names _ fun k _ => filter_of_unplaced (unplaced_placed 0 ws) (· == k)

end BenchReport
