import BenchReport.Proofs.Delivery.Calls
import BenchReport.Proofs.Places
import BenchReport.Report.Folder
set_option autoImplicit false

namespace BenchReport

theorem Files.update_error {f : Files} {path : String} {change : Option ByteArray → ByteArray}
    {e : Error} (refused : f.update path change = .error e) : ∃ flaw, e = .file flaw := by
  unfold update at refused
  split at refused
  · cases refused
    exact ⟨_, rfl⟩
  · split at refused
    · cases refused
      exact ⟨_, rfl⟩
    · cases refused

namespace Folder

variable {s : FolderSettings} {p : Payload} {f f' : Files} {c : Category} {d : Delivery}

def stored (s : FolderSettings) (f : Files) (c : Category) : Option ByteArray :=
  f.contents.get? (Files.resolve (path s c))

theorem isName_file (c : Category) : Files.IsName (c.store ++ ".json") := by
  constructor <;> cases c <;> decide

/-- Each category has a file of its own. -/
theorem resolve_path_injective {c c' : Category}
    (same : Files.resolve (path s c) = Files.resolve (path s c')) : c = c' := by
  have names := Files.resolve_join_injective (isName_file c) (isName_file c') same
  exact Category.store_injective ((String.append_left_inj _).1 names)

theorem write_stored {rows : List Json} (written : write s c rows f = .ok f') (other : Category) :
    stored s f' other =
      if other = c then some (contents s.policy rows (stored s f c)) else stored s f other := by
  rw [stored, Files.update_ok written]
  by_cases same : other = c
  · rw [if_pos same, same]
    exact Table.get?_alter_self _ _ _
  · rw [if_neg same]
    exact Table.get?_alter_of_ne _ _ fun place => same (resolve_path_injective place)

theorem step_submit (s : FolderSettings) (c : Category) (p : Payload) (f : Files) :
    (∃ f', write s c (p.rows c) f = .ok f' ∧
      (Backend.step c.step ((backend s false).submit c p) false).run f = ((.ok (), false), f')) ∨
    ∃ e, e.kind ≠ .unsupported ∧
      (Backend.step c.step ((backend s false).submit c p) false).run f =
        ((.error e, false), f) := by
  rw [Backend.step_run]
  cases written : write s c (p.rows c) f with
  | error e =>
      have submitted : ((backend s false).submit c p).run f = (Backend.answer (.error e), f) := by
        simp only [backend, StateT.run, Bool.false_eq_true, ↓reduceIte, written]
      obtain ⟨flaw, rfl⟩ := Files.update_error written
      have failed : (Error.file flaw).kind ≠ .unsupported := by
        intro refused
        cases refused
      refine .inr ⟨_, failed, ?_⟩
      rw [submitted]
      rfl
  | ok f' =>
      have submitted : ((backend s false).submit c p).run f = (Backend.answer (.ok ()), f') := by
        simp only [backend, StateT.run, Bool.false_eq_true, ↓reduceIte, written]
      refine .inl ⟨f', rfl, ?_⟩
      rw [submitted]
      rfl

/-- Submissions write the files of those categories that have rows, and no other. -/
theorem submitAll_stored {cs : List Category} {start : Delivery} {ended : Bool}
    (distinct : cs.Nodup)
    (run : ((backend s false).submitAll p cs false start).run f = ((.ok d, ended), f'))
    (c : Category) :
    stored s f' c = if c ∈ cs ∧ p.has c = true then
      some (contents s.policy (p.rows c) (stored s f c)) else stored s f c := by
  induction cs generalizing start f with
  | nil =>
      cases run
      rw [if_neg (fun listed => List.not_mem_nil listed.1)]
  | cons first rest ih =>
      obtain ⟨fresh, distinct_rest⟩ := List.nodup_cons.1 distinct
      have takes : (backend s false).supports first = true :=
        List.contains_iff_mem.2 first.mem_all
      cases some : p.has first with
      | false =>
          rw [Backend.submitAll_not_due (by rw [some, Bool.false_and])] at run
          rw [ih distinct_rest run]
          by_cases own : c = first
          · rw [own, some, if_neg (fun listed => Bool.false_ne_true listed.2),
              if_neg (fun listed => Bool.false_ne_true listed.2)]
          · simp only [List.mem_cons, own, false_or]
      | true =>
          have handed : (p.has first && (backend s false).supports first) = true := by
            rw [some, takes, Bool.and_self]
          rcases step_submit s first p f with ⟨next, written, answered⟩ | ⟨e, failed, answered⟩
          · rw [Backend.submitAll_passed handed answered nofun] at run
            rw [ih distinct_rest run, write_stored written]
            by_cases own : c = first
            · rw [own, if_neg (fun listed => fresh listed.1), if_pos rfl,
                if_pos ⟨List.mem_cons_self, some⟩]
            · simp only [List.mem_cons, own, false_or, if_false]
          · rw [Backend.submitAll_failed handed answered failed] at run
            cases run

/-- A delivery that succeeds leaves the files of the categories that have rows, as it wrote them,
and all other files of categories as they were. -/
theorem deliver_stored (run : ((backend s false).deliver p false).run f = (.ok d, f'))
    (c : Category) :
    stored s f' c = if p.has c = true then
      some (contents s.policy (p.rows c) (stored s f c)) else stored s f c := by
  obtain ⟨now, g, ended, h, late, connected, submitted, closed⟩ := Backend.deliver_ok run
  rw [Backend.step_run] at connected
  change (Backend.judge "connect" (Backend.answer (f.makeFolder s.directory).1),
    (f.makeFolder s.directory).2) = _ at connected
  have made : (f.makeFolder s.directory).2 = g := congrArg Prod.snd connected
  have not_cancelled : now = false := (congrArg (fun r => r.1.2) connected).symm
  have untouched : stored s g c = stored s f c := by
    have kept := Files.makeFolder_contents f s.directory
    rw [made] at kept
    rw [stored, stored, kept]
  have same_files : h = f' := by
    cases ended with
    | true =>
        rw [Backend.step_cancelled] at closed
        cases closed
    | false =>
        rw [Backend.step_run] at closed
        cases closed
        rfl
  rw [not_cancelled] at submitted
  rw [← same_files, submitAll_stored Category.nodup_all submitted, untouched]
  simp only [Category.mem_all, true_and]

/-- After two deliveries in turn, of which the later overwrites, the files of categories are those
of the later one alone exactly when every category without rows in it had neither rows in the
earlier one nor a file before. -/
theorem deliver_replaces_iff (s : FolderSettings) (overwrites : s.policy = .overwrite)
    {first second : Payload} {f g h fresh alone : Files} {d d' d'' : Delivery}
    (before : ((backend s false).deliver first false).run f = (.ok d, g))
    (after : ((backend s false).deliver second false).run g = (.ok d', h))
    (only : ((backend s false).deliver second false).run fresh = (.ok d'', alone))
    (none_stored : ∀ c, stored s fresh c = none) :
    (∀ c, stored s h c = stored s alone c) ↔
      ∀ c, second.has c = false → first.has c = false ∧ stored s f c = none := by
  have of_both := deliver_stored after
  have of_first := deliver_stored before
  have of_second := deliver_stored only
  rw [overwrites] at of_both of_first of_second
  refine forall_congr' fun c => ?_
  rw [of_both, of_first, of_second, none_stored]
  cases second.has c with
  | true => simp [contents]
  | false => cases first.has c <;> simp

/-- The streams of a stage, and monitors of the session if there were any. -/
def sample (monitored : Bool) : Payload := { Payload.empty with
  streams := Table.empty.insert "ramp" ⟨"ramp", Table.empty, 0, 0, 0, []⟩
  monitors := ⟨[], if monitored then [⟨none, "load", .cpu, .zero⟩] else [], []⟩ }

theorem delivered (succeeded : (((backend .default false).deliver p false).run
    f).1.isOk = true) :
    ∃ d left, ((backend .default false).deliver p false).run f = (.ok d, left) := by
  rcases run : ((backend .default false).deliver p false).run f with ⟨outcome, left⟩
  rw [run] at succeeded
  cases outcome with
  | error e => cases succeeded
  | ok d => exact ⟨d, left, rfl⟩

theorem deliver_replaces_more_rows :
    ∃ g h alone d d' d'',
      ((backend .default false).deliver (sample false) false).run Files.empty = (.ok d, g) ∧
      ((backend .default false).deliver (sample true) false).run g = (.ok d', h) ∧
      ((backend .default false).deliver (sample true) false).run Files.empty = (.ok d'', alone) ∧
      ∀ c, stored .default h c = stored .default alone c := by
  obtain ⟨d, g, before⟩ := delivered (p := sample false) (f := Files.empty) (by decide +kernel)
  have succeeded : (((backend .default false).deliver (sample true) false).run
      (((backend .default false).deliver (sample false) false).run Files.empty).2).1.isOk = true := by
    decide +kernel
  rw [before] at succeeded
  obtain ⟨d', h, after⟩ := delivered succeeded
  obtain ⟨d'', alone, only⟩ :=
    delivered (p := sample true) (f := Files.empty) (by decide +kernel)
  refine ⟨g, h, alone, d, d', d'', before, after, only, ?_⟩
  refine (deliver_replaces_iff .default rfl before after only fun _ => rfl).2 fun c empty => ?_
  refine ⟨?_, rfl⟩
  cases c <;> first | rfl | cases empty

/-- The later delivery has no monitors, so the file with those of the earlier one stays. -/
theorem deliver_keeps_earlier_rows :
    ∃ g h alone d d' d'',
      ((backend .default false).deliver (sample true) false).run Files.empty = (.ok d, g) ∧
      ((backend .default false).deliver (sample false) false).run g = (.ok d', h) ∧
      ((backend .default false).deliver (sample false) false).run Files.empty = (.ok d'', alone) ∧
      stored .default h .sessionMonitors ≠ none ∧
      stored .default alone .sessionMonitors = none := by
  obtain ⟨d, g, before⟩ := delivered (p := sample true) (f := Files.empty) (by decide +kernel)
  have succeeded : (((backend .default false).deliver (sample false) false).run
      (((backend .default false).deliver (sample true) false).run Files.empty).2).1.isOk = true := by
    decide +kernel
  rw [before] at succeeded
  obtain ⟨d', h, after⟩ := delivered succeeded
  obtain ⟨d'', alone, only⟩ :=
    delivered (p := sample false) (f := Files.empty) (by decide +kernel)
  refine ⟨g, h, alone, d, d', d'', before, after, only, ?_, ?_⟩
  · rw [deliver_stored after, deliver_stored before]
    exact Option.some_ne_none _
  · rw [deliver_stored only]
    rfl

end Folder

end BenchReport
