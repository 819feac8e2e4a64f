import BenchReport.Report.Backend
import BenchReport.Settings
set_option autoImplicit false

namespace BenchReport.Folder

def name : String := "json"

/-- The file of a category. -/
def path (s : FolderSettings) (c : Category) : String :=
  Files.join s.directory (c.store ++ ".json")

/-- Rows as one pretty list. -/
def listed (rows : List Json) : ByteArray := (Json.list rows).pretty.toUTF8

/-- Rows as lines. -/
def lined (rows : List Json) : ByteArray :=
  (String.join (rows.map fun r => r.compact ++ "\n")).toUTF8

/-- The contents of a file after rows were written to it. -/
def contents (policy : WritePolicy) (rows : List Json) (earlier : Option ByteArray) : ByteArray :=
  match policy with
  | .overwrite => listed rows
  | .append => earlier.getD ByteArray.empty ++ lined rows

/-- Writes rows to the file of a category. -/
def write (s : FolderSettings) (c : Category) (rows : List Json) (files : Files) :
    Except Error Files :=
  files.update (path s c) (contents s.policy rows)

/-- The folder as a backend. Once the workers that write were sent home, every write fails. -/
def backend (s : FolderSettings) (stopped : Bool) : Backend Files where
  name := name
  categories := Category.all
  connect files :=
    if stopped then (Backend.answer (.error .poolClosed), files)
    else
      let (made, files) := files.makeFolder s.directory
      (Backend.answer made, files)
  submit c p files :=
    if stopped then (Backend.answer (.error .poolClosed), files)
    else match write s c (p.rows c) files with
      | .error e => (Backend.answer (.error e), files)
      | .ok files => (Backend.answer (.ok ()), files)
  close files := (Backend.answer (.ok ()), files)

end BenchReport.Folder
