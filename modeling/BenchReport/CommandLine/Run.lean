import BenchReport.CommandLine.Arguments
import BenchReport.Pool
import BenchReport.Report.Delivery
import BenchReport.Report.Registry
import BenchReport.Session.Collect
import BenchReport.Session.Stamp
set_option autoImplicit false

namespace BenchReport.CommandLine

/-- What a run leaves behind: its exit code, what it says, and the files. -/
structure Ending where
  code : UInt32
  output : String
  complaint : String
  files : Files

def version : String := "bench-results 0.1.0\n"

def help : String :=
  "Aggregate a stored load-test session and submit it to a reporter\n\n" ++
  "Usage: bench-results [OPTIONS]\n\n" ++
  "Options:\n" ++
  "  -c, --config <CONFIG>        Path to a TOML configuration file\n" ++
  "  -i, --input <INPUT>          Stored session JSON, overrides `connector.json.path`\n" ++
  "  -r, --reporter <REPORTER>    Reporter tag, overrides `reporter.type`\n" ++
  "  -o, --output <OUTPUT>        Output directory for the json reporter\n" ++
  "  -l, --log-level <LOG_LEVEL>  Log level (trace, debug, info, warn, error) [default: info]\n" ++
  "  -h, --help                   Print help\n" ++
  "  -V, --version                Print version\n"

/-- The settings with those that the arguments replace. -/
def override (s : Settings) (a : Arguments) : Settings where
  workers := s.workers
  reporter := {
    tag := (a.lookup .reporter).getD s.reporter.tag
    folder := { s.reporter.folder with
      directory := (a.lookup .output).getD s.reporter.folder.directory }
    queue := s.reporter.queue }
  connector := { s.connector with
    archive := ⟨(a.lookup .input).getD s.connector.archive.path⟩ }

/-- The paths that a run with these settings reads or writes. -/
def paths (s : Settings) : List String :=
  [s.connector.archive.path, s.reporter.folder.directory] ++
    Category.all.map (Folder.path s.reporter.folder)

/-- The report on the session that the settings name. -/
def collect (s : Settings) (stamps : Stamps) (files : Files) : Except Error SessionReport :=
  let source := (Archive.sourceFor s.connector.tag).stamped stamps
  (source.collect.run (Archive.ofPath files s.connector.archive.path, 0)).1

/-- Delivers a payload through an outlet. No queue server is within reach of the files. -/
def deliver (o : Outlet) (p : Payload) (files : Files) : Except Error Delivery × Files :=
  match o with
  | .folder s => ((Folder.backend s false).deliver p false).run files
  | .queue s =>
    let unreachable := fun _ => Except.error "Connection refused"
    ((((Queue.backend s unreachable).deliver p false).run none).1, files)

/-- Refuses a number of workers that no pool can have. -/
def checkPool (workers : Option UInt64) : Except Error Unit :=
  match workers with
  | none => .ok ()
  | some n => if Pool.slotLimit < n.toNat then .error (.poolSize n) else .ok ()

/-- The settings that a run goes by. -/
def settings (a : Arguments) (files : Files) : Except Error Settings := do
  let s ← Settings.load files (a.lookup .config)
  checkPool s.workers
  return override s a

/-- Settings, session, delivery: the first failure ends the run. -/
def perform (a : Arguments) (stamps : Stamps) (files : Files) : Except Error Unit × Files :=
  match settings a files with
  | .error e => (.error e, files)
  | .ok s =>
    match collect s stamps files with
    | .error e => (.error e, files)
    | .ok report =>
      match Registry.builtins.create s.reporter.tag s.reporter with
      | .error e => (.error e, files)
      | .ok outlet =>
        let (delivered, files) := deliver outlet report.payload files
        (delivered.map fun _ => (), files)

/-- The exit code of a run that ended in an error. A run without a pool breaks off at once, and so
does one whose counters overflow. -/
def failureCode (e : Error) : UInt32 :=
  match e with
  | .poolSize _ | .overflow => 101
  | e => if e.kind = .cancelled then 130 else 1

/-- Runs the program with its arguments. The files may be given under any paths that lead to them.
-/
def run (arguments : List String) (stamps : Stamps) (files : Files) : Ending :=
  match read arguments with
  | .error m => ⟨2, "", m.message ++ "\n", files⟩
  | .ok .version => ⟨0, version, "", files⟩
  | .ok .help => ⟨0, help, "", files⟩
  | .ok (.run a) =>
    match perform a stamps files.straight with
    | (.ok (), files) => ⟨0, "", "", files⟩
    | (.error e, files) => ⟨failureCode e, "", e.message ++ "\n", files⟩

end BenchReport.CommandLine
