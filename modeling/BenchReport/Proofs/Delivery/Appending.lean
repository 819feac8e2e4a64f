import BenchReport.Proofs.Delivery.Replacement
import BenchReport.Proofs.Json.Lines
import BenchReport.Proofs.Json.Rereading
set_option autoImplicit false

namespace BenchReport

namespace Files

variable {f f' : Files} {path : String} {place : List String}

def occupied (f : Files) : List String := f.contents.keys ++ f.folders

theorem holdsBelow_iff {path : String} :
    f.holdsBelow path = true ↔
      ∃ k ∈ f.occupied, (path ++ "/").toList.isPrefixOf k.toList = true :=
  List.any_eq_true

theorem isFolder_mono (folders : ∀ k ∈ f.folders, k ∈ f'.folders)
    (more : ∀ k ∈ f.occupied, k ∈ f'.occupied) (isFolder : f.isFolder place = true) :
    f'.isFolder place = true := by
  simp only [Files.isFolder, Bool.or_eq_true, List.contains_iff_mem, holdsBelow_iff] at isFolder ⊢
  rcases isFolder with (around | listed) | ⟨k, lies, below⟩
  · exact .inl (.inl around)
  · exact .inl (.inr (folders _ listed))
  · exact .inr ⟨k, more k lies, below⟩

/-- A walk stays possible when more comes to lie in the folders. -/
theorem walk_mono {here names : List String} (folders : ∀ k ∈ f.folders, k ∈ f'.folders)
    (more : ∀ k ∈ f.occupied, k ∈ f'.occupied) (walked : f.walk here names = .ok place) :
    f'.walk here names = .ok place := by
  induction names generalizing here with
  | nil => exact walked
  | cons name rest ih =>
      cases rest with
      | nil => exact walked
      | cons next others =>
          obtain ⟨there, entered, walked⟩ := Outcome.bind_ok walked
          obtain ⟨there', looked, isFolder⟩ := Outcome.bind_ok entered
          split at isFolder
          · rename_i folder
            cases isFolder
            have entered' : f'.enter here name = .ok there := by
              unfold enter
              rw [looked]
              exact if_pos (isFolder_mono folders more folder)
            change (f'.enter here name >>= fun there => f'.walk there (next :: others)) = _
            rw [entered']
            exact ih walked
          · cases isFolder

/-- A file may be put at the place that a path leads to. -/
structure Writable (f : Files) (path : String) (place : List String) : Prop where
  located : f.locate path = .ok place
  free : f.isFolder place = false

theorem mem_keys_alter {t : Table String ByteArray} {k k' : String}
    {change : Option ByteArray → ByteArray} :
    k' ∈ (t.alter k change).keys ↔ k' = k ∨ k' ∈ t.keys := by
  rw [← not_iff_not, ← Table.get?_eq_none_iff, not_or, ← Table.get?_eq_none_iff]
  by_cases same : k' = k
  · simp [same, Table.get?_alter_self]
  · simp [same, Table.get?_alter_of_ne]

/-- A file that was put at a place can be put there again. -/
theorem Writable.put (writable : f.Writable path place) (change : Option ByteArray → ByteArray) :
    ∃ f', f.update path change = .ok f' ∧ f'.Writable path place ∧
      f'.contents.get? (pathOf place) = some (change (f.contents.get? (pathOf place))) := by
  obtain ⟨located, free⟩ := writable
  have occupied_iff (k : String) :
      k ∈ occupied { f with contents := f.contents.alter (pathOf place) change } ↔
        k = pathOf place ∨ k ∈ f.occupied := by
    simp only [occupied, List.mem_append, mem_keys_alter, or_assoc]
  refine ⟨{ f with contents := f.contents.alter (pathOf place) change }, ?_, ⟨?_, ?_⟩, ?_⟩
  · unfold update
    rw [located]
    simp only [free, Bool.false_eq_true, ↓reduceIte]
  · unfold locate at located ⊢
    split at located
    · rename_i isPath
      rw [if_pos isPath]
      exact walk_mono (f := f) (fun _ => id) (fun k before => (occupied_iff k).2 (.inr before))
        located
    · cases located
  · simp only [Files.isFolder, Bool.or_eq_false_iff] at free ⊢
    refine ⟨free.1, Bool.eq_false_iff.2 fun below => ?_⟩
    obtain ⟨k, lies, isPrefix⟩ := holdsBelow_iff.1 below
    rcases (occupied_iff k).1 lies with rfl | before
    · -- A path is no beginning of itself with a slash behind it.
      have longer := (List.isPrefixOf_iff_prefix.1 isPrefix).length_le
      rw [String.toList_append, List.length_append] at longer
      simp at longer
    · rw [holdsBelow_iff.2 ⟨k, before, isPrefix⟩] at free
      cases free.2
  · exact Table.get?_alter_self _ _ _

end Files

namespace Folder

variable {s : FolderSettings} {c : Category} {f : Files} {place : List String}

theorem toList_lined (rows : List Json) :
    (lined rows).data.toList = rows.flatMap fun r => r.line ++ [10] := by
  induction rows with
  | nil => rfl
  | cons r rest ih =>
      have first : (lined (r :: rest)) = (r.compact ++ "\n").toUTF8 ++ lined rest := by
        rw [lined, List.map_cons, String.join_cons]
        exact String.toByteArray_append
      have feed : (r.compact ++ "\n").toUTF8.data.toList = r.line ++ [10] := by
        rw [String.toUTF8_eq_toByteArray, String.toByteArray_append, ByteArray.data_append,
          Array.toList_append]
        rfl
      rw [first, ByteArray.data_append, Array.toList_append, feed, ih, List.flatMap_cons]

theorem lined_append (rows rows' : List Json) :
    lined (rows ++ rows') = lined rows ++ lined rows' := by
  rw [lined, List.map_append, String.join_append]
  exact String.toByteArray_append

/-- Lines that are each closed by a line feed are what stands between the line feeds. -/
theorem splitOn_lined (rows : List Json) :
    (lined rows).data.toList.splitOn 10 = rows.map Json.line ++ [[]] := by
  have joined : (lined rows).data.toList = [10].intercalate (rows.map Json.line ++ [[]]) := by
    rw [toList_lined]
    induction rows with
    | nil => rfl
    | cons r rest ih =>
        rw [List.flatMap_cons, ih, List.map_cons, List.cons_append,
          List.intercalate_cons_of_ne_nil (by simp), List.append_assoc]
  rw [joined]
  refine List.splitOn_intercalate 10 ?_ (by simp)
  intro bytes mem feed
  rcases List.mem_append.1 mem with line | last
  · obtain ⟨r, -, rfl⟩ := List.mem_map.1 line
    exact absurd (Json.le_of_mem_line feed) (by decide)
  · rw [List.mem_singleton.1 last] at feed
    exact List.not_mem_nil feed

theorem submit_run {p : Payload} {f' : Files} (written : write s c (p.rows c) f = .ok f') :
    ((backend s false).submit c p).run f = (Backend.answer (.ok ()), f') := by
  simp only [backend, StateT.run, Bool.false_eq_true, ↓reduceIte, written]

/-- Submissions that append leave behind what was there the lines of all their rows. -/
theorem mapM_submit_run (appends : s.policy = .append) (ps : List Payload)
    (writable : f.Writable (path s c) place) :
    ∃ f', (ps.mapM ((backend s false).submit c)).run f =
        (ps.map fun _ => Backend.answer (.ok ()), f') ∧
      f'.Writable (path s c) place ∧
      f'.contents.get? (Files.pathOf place) = if ps.isEmpty then
        f.contents.get? (Files.pathOf place) else
        some ((f.contents.get? (Files.pathOf place)).getD ByteArray.empty ++
          lined (ps.flatMap fun p => p.rows c)) := by
  induction ps generalizing f with
  | nil => exact ⟨f, rfl, writable, rfl⟩
  | cons p rest ih =>
      obtain ⟨g, written, writable', held⟩ := writable.put (contents s.policy (p.rows c))
      obtain ⟨f', run, writable'', held'⟩ := ih writable'
      refine ⟨f', ?_, writable'', ?_⟩
      · rw [List.mapM_cons, StateT.run_bind, submit_run written]
        change StateT.run (List.mapM _ rest >>= _) g = _
        rw [StateT.run_bind, run]
        rfl
      · rw [held', held, appends]
        change _ = some ((f.contents.get? (Files.pathOf place)).getD ByteArray.empty ++
          lined (p.rows c ++ rest.flatMap fun p => p.rows c))
        cases rest with
        | nil => rw [List.flatMap_nil, List.append_nil]; rfl
        | cons next others =>
            rw [lined_append, ← ByteArray.append_assoc]
            rfl

/-- Rows that are handed to a category one call after another, each call appending, become a file of
lines: every call succeeds, and split at its line feeds the file is the compact texts of all rows in
the order of the calls, with nothing behind the last line feed. No such text holds a line feed or a
carriage return, and each is read as its row. Without a call there is no file. -/
theorem append_lines (s : FolderSettings) (appends : s.policy = .append) (c : Category)
    (ps : List Payload) {f : Files} {place : List String}
    (writable : f.Writable (path s c) place)
    (absent : f.contents.get? (Files.pathOf place) = none) :
    ∃ f' bytes, (ps.mapM ((backend s false).submit c)).run f =
        (ps.map fun _ => Backend.answer (.ok ()), f') ∧
      f'.read (path s c) = (if ps.isEmpty then .error (.file .absent) else .ok bytes) ∧
      bytes.data.toList.splitOn 10 =
        (ps.flatMap fun p => p.rows c).map Json.line ++ [[]] ∧
      ((ps.flatMap fun p => p.rows c) ≠ [] → bytes.data.toList.getLast? = some 10) ∧
      ∀ r ∈ ps.flatMap fun p => p.rows c, (10 : UInt8) ∉ r.line ∧ (13 : UInt8) ∉ r.line ∧
        ∃ text : String, r.line = text.toUTF8.data.toList ∧ Json.Spells text r := by
  obtain ⟨f', run, writable', held⟩ := mapM_submit_run appends ps writable
  refine ⟨f', lined (ps.flatMap fun p => p.rows c), run, ?_, splitOn_lined _, ?_, ?_⟩
  · rw [absent] at held
    unfold Files.read
    rw [writable'.located]
    cases ps with
    | nil =>
        simp only [List.isEmpty_nil, ↓reduceIte] at held ⊢
        rw [held]
    | cons p rest =>
        simp only [List.isEmpty_cons, Bool.false_eq_true, ↓reduceIte] at held ⊢
        rw [held]
        exact congrArg Except.ok ByteArray.empty_append
  · intro some
    rcases List.eq_nil_or_concat' (ps.flatMap fun p => p.rows c) with none | ⟨front, last, rows_eq⟩
    · exact absurd none some
    · rw [rows_eq, toList_lined, List.flatMap_append, List.flatMap_singleton, ← List.append_assoc]
      exact List.getLast?_concat
  · intro r _
    refine ⟨?_, ?_, r.compact, rfl, Json.spells_compact r⟩
    · intro feed
      exact absurd (Json.le_of_mem_line feed) (by decide)
    · intro back
      exact absurd (Json.le_of_mem_line back) (by decide)

def brokenFailure (message : String) : Payload := { Payload.empty with
  actions := [⟨"log\nin", "", "peak", ⟨1, 0, 1, 0⟩, PerPhase.ofFn fun _ => none, Table.empty,
    [⟨message, 1⟩], [], []⟩] }

theorem append_lines_broken_failures :
    let calls := ["refused\r\n\\n", "", "timed\u0000 out\n"].map brokenFailure
    ∃ f' bytes,
      (calls.mapM ((backend ⟨".", .append⟩ false).submit .errors)).run Files.empty =
        (calls.map fun _ => Backend.answer (.ok ()), f') ∧
      f'.read "./errors.json" = .ok bytes ∧
      bytes.data.toList.splitOn 10 = (calls.flatMap fun p => p.rows .errors).map Json.line ++ [[]] ∧
      (bytes.data.toList.splitOn 10).length = 4 ∧ bytes.data.toList.getLast? = some 10 := by
  have writable : Files.empty.Writable (path ⟨".", .append⟩ .errors) ["errors.json"] :=
    ⟨rfl, by decide⟩
  obtain ⟨f', bytes, run, read, lines, closed, -⟩ := append_lines ⟨".", .append⟩ rfl .errors
    (["refused\r\n\\n", "", "timed\u0000 out\n"].map brokenFailure) writable rfl
  refine ⟨f', bytes, run, read, lines, ?_, closed (List.cons_ne_nil _ _)⟩
  rw [lines]
  rfl

end Folder

end BenchReport
