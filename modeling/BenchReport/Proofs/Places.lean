import BenchReport.Files
import BenchReport.Proofs.Outcome
import BenchReport.Proofs.TableBindings
set_option autoImplicit false

namespace BenchReport.Files

def between : List Char → List (List Char)
  | [] => [[]]
  | c :: rest =>
    if c = '/' then [] :: between rest
    else match between rest with
      | [] => [[c]]
      | name :: names => (c :: name) :: names

theorem parts_eq (path : String) : parts path = (between path.toList).map String.ofList := by
  rw [parts]
  congr 1
  generalize path.toList = cs
  induction cs with
  | nil => rfl
  | cons c rest ih =>
      rw [List.foldr_cons, ih]
      rfl

theorem between_ne_nil (cs : List Char) : between cs ≠ [] := by
  cases cs with
  | nil => exact List.cons_ne_nil _ _
  | cons c rest =>
      unfold between
      split
      · exact List.cons_ne_nil _ _
      · split
        · exact List.cons_ne_nil _ _
        · exact List.cons_ne_nil _ _

theorem between_plain {cs : List Char} (plain : '/' ∉ cs) : between cs = [cs] := by
  induction cs with
  | nil => rfl
  | cons c rest ih =>
      obtain ⟨differs, plain_rest⟩ := not_or.1 (List.mem_cons.not.1 plain)
      unfold between
      rw [if_neg (Ne.symm differs), ih plain_rest]

theorem between_slash (xs ys : List Char) :
    between (xs ++ '/' :: ys) = between xs ++ between ys := by
  induction xs with
  | nil => rfl
  | cons c rest ih =>
      rw [List.cons_append, between, between, ih]
      by_cases slash : c = '/'
      · rw [if_pos slash, if_pos slash, List.cons_append]
      · rw [if_neg slash, if_neg slash]
        cases names : between rest with
        | nil => exact absurd names (between_ne_nil rest)
        | cons name others => rfl

/-- The name of a file, and no way to anywhere else. -/
structure IsName (name : String) : Prop where
  plain : '/' ∉ name.toList
  some : name ≠ ""
  notHere : name ≠ "."
  notAround : name ≠ ".."

theorem follow_name {name : String} (isName : IsName name) (here : List String) :
    follow here name = here ++ [name] := by
  unfold follow
  rw [if_neg (by simp [isName.some, isName.notHere]), if_neg isName.notAround]

theorem parts_join (folder : String) :
    ∃ front, ∀ name, IsName name → parts (join folder name) = front ++ [name] := by
  have named {name : String} (isName : IsName name) :
      (between name.toList).map String.ofList = [name] := by
    rw [between_plain isName.plain, List.map_singleton, String.ofList_toList]
  have slashed (cs : List Char) {name : String} (isName : IsName name) :
      (between (cs ++ '/' :: name.toList)).map String.ofList =
        (between cs).map String.ofList ++ [name] := by
    rw [between_slash, List.map_append, named isName]
  by_cases none : folder = ""
  · refine ⟨[], fun name isName => ?_⟩
    rw [join, if_pos (.inl none), none, String.empty_append, parts_eq, named isName]
    rfl
  · by_cases closed : folder.toList.getLast? = Option.some '/'
    · obtain ⟨cs, folder_eq⟩ := List.getLast?_eq_some_iff.1 closed
      refine ⟨(between cs).map String.ofList, fun name isName => ?_⟩
      rw [join, if_pos (.inr closed), parts_eq, String.toList_append, folder_eq, List.append_assoc]
      exact slashed cs isName
    · refine ⟨(between folder.toList).map String.ofList, fun name isName => ?_⟩
      rw [join, if_neg (not_or.2 ⟨none, closed⟩), parts_eq, String.toList_append,
        String.toList_append, List.append_assoc]
      exact slashed folder.toList isName

theorem start_join (folder : String) :
    ∃ first, ∀ name, IsName name → start (join folder name) = first := by
  by_cases none : folder = ""
  · refine ⟨[], fun name isName => ?_⟩
    rw [join, if_pos (.inl none), none, String.empty_append, start, if_neg]
    intro slash
    exact isName.plain (List.mem_of_mem_head? slash)
  · have some : folder.toList ≠ [] := fun empty => none (String.toList_eq_nil_iff.1 empty)
    refine ⟨start folder, fun name isName => ?_⟩
    have head (cs : List Char) : (folder.toList ++ cs).head? = folder.toList.head? :=
      List.head?_append_of_ne_nil _ some
    rw [join, start, start]
    split
    · rw [String.toList_append, head]
    · rw [String.toList_append, String.toList_append, List.append_assoc, head]

/-- The place of a file is in the place of its folder. -/
theorem resolve_join (folder : String) :
    ∃ place, ∀ name, IsName name → resolve (join folder name) = pathOf (place ++ [name]) := by
  obtain ⟨front, parts_eq⟩ := parts_join folder
  obtain ⟨first, start_eq⟩ := start_join folder
  refine ⟨front.foldl follow first, fun name isName => ?_⟩
  rw [resolve, parts_eq name isName, start_eq name isName, List.foldl_append]
  exact congrArg pathOf (follow_name isName _)

theorem pathOf_injective {place : List String} {name other : String}
    (same : pathOf (place ++ [name]) = pathOf (place ++ [other])) : name = other := by
  by_cases none : place = []
  · rw [none] at same
    simpa [pathOf] using same
  · rw [pathOf, pathOf, String.intercalate_append_of_ne_nil none (List.cons_ne_nil _ _),
      String.intercalate_append_of_ne_nil none (List.cons_ne_nil _ _),
      String.intercalate_singleton, String.intercalate_singleton] at same
    exact (String.append_right_inj _).1 same

/-- Files of different names in a folder are at different places. -/
theorem resolve_join_injective {folder name other : String} (isName : IsName name)
    (isOther : IsName other) (same : resolve (join folder name) = resolve (join folder other)) :
    name = other := by
  obtain ⟨place, resolve_eq⟩ := resolve_join folder
  rw [resolve_eq name isName, resolve_eq other isOther] at same
  exact pathOf_injective same

/-- Every file and every folder is kept under the path of its place. -/
structure Straight (f : Files) : Prop where
  files : ∀ k ∈ f.contents.keys, resolve k = k
  folders : ∀ k ∈ f.folders, resolve k = k

theorem straight_of_kept {f : Files} (kept : f.Straight) : f.straight = f := by
  have same (e : String × ByteArray) (mem : e ∈ f.contents.entries) : (resolve e.1, e.2) = e := by
    rw [kept.files e.1 (List.mem_map_of_mem mem)]
  have files : f.contents.entries.map (fun e => (resolve e.1, e.2)) = f.contents.entries := by
    rw [List.map_congr_left same, List.map_id']
  have folders : f.folders.map resolve = f.folders := by
    rw [List.map_congr_left kept.folders, List.map_id']
  rw [straight, files, folders, Table.ofList_entries]

variable {f f' : Files} {path : String}

theorem look_ok {here place : List String} {name : String} (looked : look here name = .ok place) :
    place = follow here name := by
  unfold look at looked
  split at looked
  · cases looked
  · cases looked
    rfl

theorem enter_ok {here place : List String} {name : String}
    (entered : f.enter here name = .ok place) : place = follow here name := by
  obtain ⟨there, looked, entered⟩ := Outcome.bind_ok entered
  split at entered
  · cases entered
    exact look_ok looked
  · cases entered

theorem walk_ok {here names place : List String} (walked : f.walk here names = .ok place) :
    place = names.foldl follow here := by
  induction names generalizing here with
  | nil =>
      cases walked
      rfl
  | cons name rest ih =>
      cases rest with
      | nil => exact look_ok walked
      | cons next others =>
          obtain ⟨there, entered, walked⟩ := Outcome.bind_ok walked
          rw [ih walked, enter_ok entered]
          rfl

theorem locate_ok {place : List String} (located : f.locate path = .ok place) :
    pathOf place = resolve path := by
  unfold locate at located
  split at located
  · rw [walk_ok located]
    rfl
  · cases located

theorem update_ok {change : Option ByteArray → ByteArray} (updated : f.update path change = .ok f') :
    f' = { f with contents := f.contents.alter (resolve path) change } := by
  unfold update at updated
  split at updated
  · cases updated
  · rename_i place located
    rw [← locate_ok located]
    split at updated
    · cases updated
    · cases updated
      rfl

theorem makeLast_contents {here names : List String} (made : f.makeLast here names = .ok f') :
    f'.contents = f.contents := by
  obtain ⟨place, -, made⟩ := Outcome.bind_ok made
  split at made
  · cases made
    rfl
  · split at made
    · cases made
    · cases made
      rfl

theorem settle_contents {made : Except FileFlaw Files}
    (kept : ∀ f', made = .ok f' → f'.contents = f.contents) :
    (f.settle made).2.contents = f.contents := by
  cases made with
  | error flaw => rfl
  | ok f' => exact kept f' rfl

theorem makeFirst_contents (here : List String) (folders : List (List String)) (f : Files) :
    (makeFirst here folders f).2.contents = f.contents := by
  induction folders generalizing f with
  | nil => rfl
  | cons names around ih =>
      unfold makeFirst
      split
      · have before := ih f
        split
        · rename_i f' made
          rw [made] at before
          rw [settle_contents fun f'' => makeLast_contents]
          exact before
        · exact before
      · exact settle_contents fun f'' => makeLast_contents

/-- Making a folder touches no file. -/
theorem makeFolder_contents (f : Files) (path : String) :
    (f.makeFolder path).2.contents = f.contents := by
  unfold makeFolder
  dsimp only
  split
  · exact makeFirst_contents _ _ f
  · rfl

end BenchReport.Files
