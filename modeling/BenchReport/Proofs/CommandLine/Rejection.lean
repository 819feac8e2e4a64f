import BenchReport.CommandLine.Run
import BenchReport.Proofs.Places
import BenchReport.Proofs.Session.Overflows
import BenchReport.Proofs.Session.ReadOnly
import BenchReport.Proofs.Session.Stamping
set_option autoImplicit false

namespace BenchReport

open StageBlock (resultsOf)

/-- No entry that its own name finds has a defect when a collection succeeds. -/
theorem Archive.not_defect_of_collect {stamps : Stamps} {a : Archive} {n : Nat}
    {report : SessionReport} {t : Archive × Nat}
    (collected : (source.stamped stamps).collect.run.run (a, n) = (.ok report, t)) :
    ∃ session, a.load = .ok session ∧ ∀ entry ∈ session.stages,
      session.find? entry.facts.stage = some entry → ¬ entry.Defect := by
  obtain ⟨loaded', blocks, told, made, -⟩ := (Source.collect_ok_iff _ report).1 collected
  obtain ⟨loaded, told, stamped⟩ := Source.loadAll_stamped told
  obtain ⟨session, read, tells⟩ := loadAll_ok told
  refine ⟨session, read, fun entry mem found defect => ?_⟩
  have name : entry.facts.stage ∈ listed session :=
    List.mem_map_of_mem (f := fun s : RecordedStage => s.facts.stage) mem
  obtain ⟨l, mem_loaded, entry', stored, found', parsed, rfl⟩ :=
    Outcome.exists_of_mem tells.flip name
  rw [found] at found'
  cases found'
  -- What came to a block is the stage with its results stamped, and a flaw outlives that.
  obtain ⟨_, mem_loaded', n', rfl⟩ := Outcome.exists_of_mem stamped.flip mem_loaded
  obtain ⟨b, -, block⟩ := Outcome.exists_of_mem made.flip mem_loaded'
  cases defect with
  | record stored refused =>
      obtain ⟨e, failed⟩ := Action.ofRecords_refused_iff.2 ⟨_, stored, _, refused⟩
      exact nomatch parsed.symm.trans failed
  | flaw flaw =>
      obtain ⟨e', refused⟩ := ((flaw.withActions stored).stamped stamps n').refused
      exact nomatch block.symm.trans refused

namespace CommandLine

/-- There are no settings to go by, or no report on the session that they name. -/
def Rejected (a : Arguments) (stamps : Stamps) (files : Files) (e : Error) : Prop :=
  (settings a files >>= fun s => collect s stamps files) = .error e

/-- What is wrong with a run before anything is delivered. Of entries with one name only the first
is ever looked at. -/
inductive Flawed (a : Arguments) (files : Files) : Prop where
  | settings {e : Error} (refused : settings a files = .error e) : Flawed a files
  /-- The document is missing, or it spells no session. -/
  | document {s : Settings} {e : Error} (set : CommandLine.settings a files = .ok s)
      (refused : (Archive.ofPath files s.connector.archive.path).load = .error e) : Flawed a files
  | stage {s : Settings} {session : RecordedSession} {entry : RecordedStage}
      (set : CommandLine.settings a files = .ok s)
      (loaded : (Archive.ofPath files s.connector.archive.path).load = .ok session)
      (listed : entry ∈ session.stages)
      (found : session.find? entry.facts.stage = some entry) (defect : entry.Defect) :
      Flawed a files

variable {a : Arguments} {stamps : Stamps} {files : Files} {e : Error}

theorem collect_ok {s : Settings} {report : SessionReport}
    (collected : collect s stamps files = .ok report) :
    ∃ session, (Archive.ofPath files s.connector.archive.path).load = .ok session ∧
      ∀ entry ∈ session.stages, session.find? entry.facts.stage = some entry → ¬ entry.Defect :=
  Archive.not_defect_of_collect (Prod.ext collected rfl)

theorem Flawed.rejected (flawed : Flawed a files) (stamps : Stamps) :
    ∃ e, Rejected a stamps files e := by
  unfold Rejected
  cases outcome : CommandLine.settings a files >>= fun s => collect s stamps files with
  | error e => exact ⟨e, rfl⟩
  | ok report =>
      obtain ⟨s, set, collected⟩ := Outcome.bind_ok outcome
      obtain ⟨session, loaded, sound⟩ := collect_ok collected
      cases flawed with
      | settings refused =>
          rw [set] at refused
          cases refused
      | document set' refused =>
          rw [set] at set'
          cases set'
          rw [loaded] at refused
          cases refused
      | stage set' loaded' listed found defect =>
          rw [set] at set'
          cases set'
          rw [loaded] at loaded'
          cases loaded'
          exact absurd defect (sound _ listed found)

theorem perform_of_rejected (rejected : Rejected a stamps files e) :
    perform a stamps files = (.error e, files) := by
  unfold perform
  rcases Outcome.bind_error rejected with refused | ⟨s, set, refused⟩
  · rw [refused]
  · simp only [set, refused]

theorem failureCode_ne_zero (e : Error) : failureCode e ≠ 0 := by
  have by_kind : (if e.kind = .cancelled then 130 else 1 : UInt32) ≠ 0 := by
    split <;> decide
  have broken_off : (101 : UInt32) ≠ 0 := by decide
  cases e with
  | poolSize _ | overflow => exact broken_off
  | _ => exact by_kind

/-- A run with something wrong in its settings or anywhere in its session is rejected. A run that is
rejected fails and leaves all files as they are, whatever its policy and its reporter. Collecting,
which comes before every delivery, only reads, whether it succeeds or fails. Files that are kept
under their places are run on as they are. -/
theorem run_rejected {arguments : List String} (asked : read arguments = .ok (.run a))
    (stamps : Stamps) (files : Files) :
    (Flawed a files.straight → ∃ e, Rejected a stamps files.straight e) ∧
      (∀ e, Rejected a stamps files.straight e →
        run arguments stamps files =
          ⟨failureCode e, "", e.message ++ "\n", files.straight⟩ ∧ failureCode e ≠ 0) ∧
      (∀ s : Settings,
        (((Archive.sourceFor s.connector.tag).stamped stamps).collect.run.run
          (Archive.ofPath files.straight s.connector.archive.path, 0)).2.1.files =
            files.straight) ∧
      (files.Straight → files.straight = files) := by
  refine ⟨fun flawed => flawed.rejected stamps, fun e rejected => ⟨?_, failureCode_ne_zero e⟩,
    fun s => ?_, Files.straight_of_kept⟩
  · simp only [run, asked, perform_of_rejected rejected]
  · exact (Archive.keeps_source.stamped stamps).collect _

/-- Settings that append, a file of an earlier run, and a session whose last result names no
engine. -/
def lateFlaw : Files :=
  let entry (stage result : String) :=
    "\x7b\"summary\":\x7b\"stage\":\"" ++ stage ++ "\",\"total_elapsed\":1\x7d," ++
      "\"workers\":[\x7b\"worker\":0,\"results\":[" ++ result ++ "]\x7d]\x7d"
  let session := "\x7b\"stages\":[" ++ entry "a" "\x7b\"type\":\"task\",\"name\":\"n\"\x7d" ++
    "," ++ entry "b" "\x7b\x7d" ++ "]\x7d"
  Files.ofList [("bench.toml", "[reporter.json]\npolicy = \"append\"\n".toUTF8),
    ("results/events.json", "earlier\n".toUTF8), ("session.json", session.toUTF8)]

theorem settings_lateFlaw :
    ∃ s, settings [(.config, "bench.toml")] lateFlaw = .ok s ∧
      s.reporter.folder = ⟨"results", .append⟩ ∧ s.connector.archive.path = "session.json" := by
  have spelled : (settings [(.config, "bench.toml")] lateFlaw).toOption.map
      (fun s => (s.reporter.folder, s.connector.archive.path)) =
        some (⟨"results", .append⟩, "session.json") := by decide +kernel
  cases set : settings [(.config, "bench.toml")] lateFlaw with
  | error e =>
      rw [set] at spelled
      cases spelled
  | ok s =>
      rw [set] at spelled
      obtain ⟨folder, path⟩ := Prod.mk.inj (Option.some_inj.1 spelled)
      exact ⟨s, rfl, folder, path⟩

theorem flawed_lateFlaw : Flawed [(.config, "bench.toml")] lateFlaw := by
  obtain ⟨s, set, -, path⟩ := settings_lateFlaw
  have last : ((Archive.ofPath lateFlaw "session.json").load.toOption.bind fun session =>
      session.find? "b").any (fun entry => (resultsOf entry.workers).any fun o =>
        decide (Event.ofObservation o "b" = .error .noEngine)) = true := by decide +kernel
  cases loaded : (Archive.ofPath lateFlaw "session.json").load with
  | error e =>
      rw [loaded] at last
      cases last
  | ok session =>
      rw [loaded] at last
      obtain ⟨entry, found, flawed⟩ := (Option.any_eq_true _ _).1 last
      obtain ⟨o, mem, refused⟩ := List.any_eq_true.1 flawed
      obtain ⟨w, worker, result⟩ := List.mem_flatMap.1 mem
      change session.stages.find? (fun s => s.facts.stage == "b") = some entry at found
      have name : entry.facts.stage = "b" := by simpa using List.find?_some found
      have kept : (Archive.ofPath lateFlaw s.connector.archive.path).load = .ok session := by
        rw [path, loaded]
      rw [← name] at found refused
      exact .stage set kept (List.mem_of_find?_eq_some found) found
        (.flaw (.result worker result (of_decide_eq_true refused)))

theorem run_rejected_late :
    ∃ s e, settings [(.config, "bench.toml")] lateFlaw = .ok s ∧
      s.reporter.folder = ⟨"results", .append⟩ ∧ Flawed [(.config, "bench.toml")] lateFlaw ∧
      run ["-c", "bench.toml"] Stamps.none lateFlaw =
        ⟨failureCode e, "", e.message ++ "\n", lateFlaw⟩ ∧ failureCode e ≠ 0 := by
  have asked : read ["-c", "bench.toml"] = .ok (.run [(.config, "bench.toml")]) := rfl
  have kept : lateFlaw.Straight := ⟨by decide +kernel, nofun⟩
  obtain ⟨rejected, fails, -, straight⟩ := run_rejected asked Stamps.none lateFlaw
  rw [straight kept] at rejected fails
  obtain ⟨s, set, folder, -⟩ := settings_lateFlaw
  obtain ⟨e, refused⟩ := rejected flawed_lateFlaw
  exact ⟨s, e, set, folder, flawed_lateFlaw, fails e refused⟩

end CommandLine

end BenchReport
