/-
  ChangeLedger.Audit.FileTree — change logs in a directory.

  The directory is a tree of folders with text files at the leaves.  Writing
  a log creates the folders above it.  An operation is blocked where a file
  stands in the place of a folder or a folder in the place of the file, and
  where a name is longer than the file system takes.
-/
import ChangeLedger.Audit.Sink
import ChangeLedger.Collections.SortedSet

namespace ChangeLedger

/-- A place in a directory: the names of the folders on the way, then the
    name itself. -/
abbrev FilePath := List String

/-- The folders and text files below a directory. -/
structure FileTree where
  /-- The texts of the files. -/
  files : SortedMap FilePath String
  /-- The folders; the directory itself is always one. -/
  folders : SortedSet FilePath
  /-- The number of bytes that the file system takes for one name, if there
      is a limit. -/
  nameLimit : Option Nat

namespace FileTree

/-- The directory with nothing in it, on a file system with this limit on
    names. -/
def bare (nameLimit : Option Nat) : FileTree := ⟨.empty, .empty, nameLimit⟩

/-- The number of bytes that common file systems take for one name. -/
def maxNameBytes : Nat := 255

/-- The directory with nothing in it, on a common file system. -/
def empty : FileTree := bare (some maxNameBytes)

instance : EmptyCollection FileTree := ⟨empty⟩
instance : Inhabited FileTree := ⟨empty⟩

/-- Whether the file system takes a name. -/
def takes (t : FileTree) (name : String) : Bool := t.nameLimit.all (name.utf8ByteSize ≤ ·)

/-- Whether a place is a folder. -/
def isFolder (t : FileTree) (p : FilePath) : Bool := p.isEmpty || t.folders.contains p

/-! ## Looking up a place -/

/-- What is found at a place. -/
inductive Finding where
  /-- A file with this text. -/
  | file (text : String)
  /-- A folder. -/
  | folder
  /-- Nothing, or no folder on the way. -/
  | missing
  /-- The place cannot be reached. -/
  | blocked (cause : IoCause)
  deriving DecidableEq

/-- Walks from the folder `at` along the names `rest`. -/
def walk (t : FileTree) (here : FilePath) : List String → Finding
  | [] => .folder
  | name :: rest =>
    let place := here ++ [name]
    if t.takes name then
      match t.files.get? place with
      | some text => if rest.isEmpty then .file text else .blocked .notADirectory
      | none => if t.isFolder place then t.walk place rest else .missing
    else .blocked .nameTooLong

/-- What is found at a place below the directory. -/
def find (t : FileTree) (p : FilePath) : Finding := t.walk [] p

/-! ## Creating folders and files -/

/-- The folders from the top down to a place, the place included. -/
def ancestors (p : FilePath) : List FilePath :=
  (List.range p.length).map fun n => p.take (n + 1)

/-- Creates a folder and those above it, unless a file is in the way. -/
def makeFolders (t : FileTree) (p : FilePath) : Except IoCause FileTree :=
  match t.find p with
  | .folder => .ok t
  | .file _ => .error .notADirectory
  | .blocked cause => .error cause
  | .missing => .ok { t with folders := (ancestors p).foldl SortedSet.insert t.folders }

/-- Appends a text to a file, which is created if it is missing, together
    with the folders above it.  The folders stay even if the file cannot be
    opened. -/
def appendFile (t : FileTree) (p : FilePath) (text : String) : Except IoCause Unit × FileTree :=
  match t.makeFolders p.dropLast with
  | .error cause => (.error cause, t)
  | .ok t =>
    -- the folders are there now, so only the last name can be in the way
    match t.find p with
    | .file old => (.ok (), { t with files := t.files.insert p (old ++ text) })
    | .missing => (.ok (), { t with files := t.files.insert p text })
    | .folder => (.error .isADirectory, t)
    | .blocked cause => (.error cause, t)

/-! ## Logs -/

/-- Why a log could not be read. -/
inductive ReadFailure where
  /-- The name is unsafe; the text says so. -/
  | unsafeName (message : String)
  /-- The file cannot be reached or read. -/
  | io (cause : IoCause)
  deriving DecidableEq

/-- The text of a log, or none if it was never written. -/
def readLog (t : FileTree) (name : LogName) : Except ReadFailure (Option String) :=
  if LogName.isSafeId name.id then
    match t.find name.components with
    | .file text => .ok (some text)
    | .missing => .ok none
    | .folder => .error (.io .isADirectory)
    | .blocked cause => .error (.io cause)
  else .error (.unsafeName name.refusal)

/-- Appends a text to a log.  An unsafe name is refused and changes nothing. -/
def appendLog (root : String) (t : FileTree) (name : LogName) (text : String) :
    Except Failure Unit × FileTree :=
  if LogName.isSafeId name.id then
    match t.appendFile name.components text with
    | (.ok (), t) => (.ok (), t)
    | (.error cause, t) => (.error (.auditIo (name.path root) cause), t)
  else (.error (.invalidArgument name.refusal), t)

/-- The directory at `root` as a sink. -/
def sink (root : String) : Sink FileTree where
  append name text t := t.appendLog root name text

end FileTree

end ChangeLedger
