import BenchReport.CommandLine.Run
import Std.Time.DateTime.Timestamp
set_option autoImplicit false

namespace BenchReport.Disk

/-- The files with what stands at a path, be it a file or a folder. -/
def look (files : Files) (path : String) : IO Files := do
  match ← (IO.FS.readBinFile path).toBaseIO with
  | .ok bytes => return files.addFile path bytes
  | .error _ =>
    let here ← IO.currentDir
    return if ← (here / path).isDir then files.addFolder path else files

/-- The files with what stands at paths and on the way to them. -/
def survey (files : Files) (paths : List String) : IO Files :=
  (paths.flatMap Files.approaches).foldlM look files

/-- The files that a run with these arguments may read. -/
def gather (arguments : List String) : IO Files := do
  match CommandLine.read arguments with
  | .ok (.run a) =>
    let files ← survey Files.empty (a.lookup .config).toList
    match CommandLine.settings a files with
    | .ok s => survey files (CommandLine.paths s)
    | .error _ => return files
  | _ => return Files.empty

/-- Makes the folders and writes the files of `after` that are not as they were before. -/
def save (before after : Files) : IO Unit := do
  after.folders.forM fun path => do
    unless before.folders.contains path do IO.FS.createDirAll path
  after.contents.entries.forM fun (path, bytes) => do
    if before.contents.get? path != some bytes then IO.FS.writeBinFile path bytes

/-- Random bits. -/
def entropy : IO (BitVec 64) := do
  let bytes ← IO.getRandomBytes 8
  return BitVec.ofNat 64 (bytes.toList.foldl (fun n b => n * 256 + b.toNat) 0)

/-- Stamps of a run that starts now. -/
def stamps : IO Stamps := do
  let now ← Std.Time.Timestamp.now
  let nanos := now.toNanosecondsSinceUnixEpoch.val
  return Stamps.ofSeeds (← entropy) (← entropy)
    ⟨nanos.fdiv 1000000000, (nanos.fmod 1000000000).toNat⟩

end BenchReport.Disk

open BenchReport in
def main (arguments : List String) : IO UInt32 := do
  let files ← Disk.gather arguments
  let ending := CommandLine.run arguments (← Disk.stamps) files
  Disk.save files ending.files
  IO.print ending.output
  IO.eprint ending.complaint
  return ending.code
