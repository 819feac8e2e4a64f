import BenchReport.Error
import BenchReport.Table
set_option autoImplicit false

namespace BenchReport

/-- The files within reach, told by their places. A place is given by the names that lead there
straight, the first of them empty if they start at the top of all folders. -/
structure Files where
  /-- What the files hold, by path. -/
  contents : Table String ByteArray
  /-- The paths of folders, be there a file in them or not. -/
  folders : List String

namespace Files

def empty : Files := ⟨Table.empty, []⟩

/-- Files that lie in no other folders than their paths tell. -/
def ofList (l : List (String × ByteArray)) : Files := ⟨Table.ofList l, []⟩

/-- The names along a path. -/
def parts (path : String) : List String :=
  (path.toList.foldr
    (fun c acc => if c = '/' then [] :: acc else match acc with
      | [] => [[c]]
      | name :: rest => (c :: name) :: rest)
    [[]]).map String.ofList

/-- The place where a path starts. -/
def start (path : String) : List String := if path.toList.head? = some '/' then [""] else []

/-- One name further: `.` stays, and `..` goes back to the folder around, if there is one. -/
def follow (here : List String) (name : String) : List String :=
  if name = "" ∨ name = "." then here
  else if name = ".." then match here.getLast? with
    | none => [".."]
    | some last =>
      if last = "" then here else if last = ".." then here ++ [".."] else here.dropLast
  else here ++ [name]

/-- The path of a place. -/
def pathOf (place : List String) : String := "/".intercalate place

/-- The path of the place that a path leads to. -/
def resolve (path : String) : String := pathOf ((parts path).foldl follow (start path))

/-- A path inside a folder. -/
def join (folder name : String) : String :=
  if folder = "" ∨ folder.toList.getLast? = some '/' then folder ++ name else folder ++ "/" ++ name

/-- The beginnings of a list, the shortest first. -/
def lineage (names : List String) : List (List String) :=
  (List.range names.length).map fun n => names.take (n + 1)

/-- The paths that lead to a path, and the path itself. -/
def approaches (path : String) : List String := (lineage (parts path)).map pathOf

/-- The length in bytes that no path reaches. -/
def pathLimit : Nat := 4096

/-- The length in bytes that no name exceeds. -/
def nameLimit : Nat := 255

/-- Whether a path can be looked up at all. -/
def isPath (path : String) : Bool :=
  path.utf8ByteSize < pathLimit && !path.toList.contains (Char.ofNat 0)

/-- Whether something lies below a path. -/
def holdsBelow (f : Files) (path : String) : Bool :=
  (f.contents.keys ++ f.folders).any fun k => (path ++ "/").toList.isPrefixOf k.toList

/-- Whether a place is a folder. The folder that is looked at and those around it always are. -/
def isFolder (f : Files) (place : List String) : Bool :=
  place.all (fun name => name = "" || name = "..") || f.folders.contains (pathOf place) ||
    f.holdsBelow (pathOf place)

def isFile (f : Files) (place : List String) : Bool := f.contents.contains (pathOf place)

/-- One name further, be it there or not. -/
def look (here : List String) (name : String) : Except FileFlaw (List String) :=
  if nameLimit < name.utf8ByteSize then .error .unfit else .ok (follow here name)

/-- One name further, into a folder. -/
def enter (f : Files) (here : List String) (name : String) : Except FileFlaw (List String) := do
  let there ← look here name
  if f.isFolder there then return there
  else throw (if f.isFile there then .blocked else .absent)

/-- The place that names lead to; all but the last have to be folders. -/
def walk (f : Files) : List String → List String → Except FileFlaw (List String)
  | here, [] => .ok here
  | here, [name] => look here name
  | here, name :: rest => do walk f (← f.enter here name) rest

/-- The place that a path leads to. -/
def locate (f : Files) (path : String) : Except FileFlaw (List String) :=
  if isPath path then f.walk (start path) (parts path) else .error .unfit

/-- The contents at a path. -/
def read (f : Files) (path : String) : Except Error ByteArray :=
  match f.locate path with
  | .error flaw => .error (.file flaw)
  | .ok place => match f.contents.get? (pathOf place) with
    | none => .error (.file .absent)
    | some bytes => .ok bytes

/-- The contents at a path as text. -/
def readText (f : Files) (path : String) : Except Error String := do
  match String.fromUTF8? (← f.read path) with
  | some s => return s
  | none => throw (.file .notText)

/-- Puts contents at a path, as they depend on those that are there. -/
def update (f : Files) (path : String) (change : Option ByteArray → ByteArray) :
    Except Error Files :=
  match f.locate path with
  | .error flaw => .error (.file flaw)
  | .ok place =>
    if f.isFolder place then .error (.file .blocked)
    else .ok { f with contents := f.contents.alter (pathOf place) change }

/-- The files with one more. -/
def addFile (f : Files) (path : String) (bytes : ByteArray) : Files :=
  { f with contents := f.contents.insert (resolve path) bytes }

/-- The same files, each under the path of its place. -/
def straight (f : Files) : Files where
  contents := Table.ofList (f.contents.entries.map fun e => (resolve e.1, e.2))
  folders := f.folders.map resolve

/-- The files with one more folder. -/
def addFolder (f : Files) (path : String) : Files := { f with folders := resolve path :: f.folders }

/-- Makes the folder that names lead to, unless it is there. -/
def makeLast (f : Files) (here names : List String) : Except FileFlaw Files := do
  let place ← f.walk here names
  if f.isFolder place then return f
  else if f.isFile place then throw .blocked
  else return { f with folders := pathOf place :: f.folders }

/-- What became of an attempt, and the files as they are then. -/
def settle (f : Files) (made : Except FileFlaw Files) : Except FileFlaw Unit × Files :=
  match made with
  | .ok f => (.ok (), f)
  | .error flaw => (.error flaw, f)

/-- Makes the first of some folders, of which each should lie in the next. Where that is missing it
is made before. -/
def makeFirst (here : List String) : List (List String) → Files → Except FileFlaw Unit × Files
  | [], f => (.ok (), f)
  | names :: around, f =>
    match f.makeLast here names with
    | .error .absent => match makeFirst here around f with
      | (.ok (), f) => f.settle (f.makeLast here names)
      | failed => failed
    | made => f.settle made

/-- Makes a folder and those around it, as far as they are missing. The path itself is tried as it
stands, so a `.` behind a folder that is missing fails; the folders around it are those that its
proper names tell. What was made stays when a later step fails. -/
def makeFolder (f : Files) (path : String) : Except Error Unit × Files :=
  let names := (parts path).filter (· ≠ "")
  let around := (lineage (names.filter (· ≠ ".")).dropLast).reverse
  let (made, f) := if isPath path then makeFirst (start path) (names :: around) f
    else (.error .unfit, f)
  (made.mapError Error.file, f)

end Files

end BenchReport
