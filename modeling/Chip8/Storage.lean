import Chip8.Text.Quoted

/-! # Storage

Files and directories as seen from the current directory. A path is looked up name by name, so the first name that
fails decides the error. A place has a list of names from the current directory, in which `..` stands only in front;
the directories above the current one exist, and of what they hold only the entries that were put there are known. -/

namespace Chip8

/-- A path without empty and `.` names. `root` is empty for a relative path. -/
structure Path where
  root : String
  names : List String
deriving DecidableEq

namespace Path

/-- Two leading slashes are a root of their own; any other number of them is one. -/
def rootOf : List Char → String
  | '/' :: '/' :: '/' :: _ => "/"
  | '/' :: '/' :: _ => "//"
  | '/' :: _ => "/"
  | _ => ""

def ofString (s : String) : Path :=
  ⟨rootOf s.toList, (s.splitOn "/").filter fun n => n != "" && n != "."⟩

def text (p : Path) : String :=
  let s := p.root ++ "/".intercalate p.names
  if s = "" then "." else s

/-- The last name; empty if there is none. -/
def name (p : Path) : String := p.names.getLastD ""

end Path

inductive FileError
  | noEntry
  | notDirectory
  | isDirectory
  | nameTooLong
  | denied
deriving DecidableEq

def FileError.text : FileError → String
  | noEntry => "[Errno 2] No such file or directory"
  | notDirectory => "[Errno 20] Not a directory"
  | isDirectory => "[Errno 21] Is a directory"
  | nameTooLong => "[Errno 36] File name too long"
  | denied => "[Errno 13] Permission denied"

inductive Entry
  | file (content : List UInt8)
  | directory

/-- The entries by the names that lead to them, newest first; the directories on the way to an entry exist without
being listed. -/
structure Storage where
  entries : List (List String × Entry)

/-- Where a look-up stands: in a directory or at a file. -/
inductive Place
  | directory (names : List String)
  | file (content : List UInt8)

namespace Storage

def maxName : Nat := 255

def maxPath : Nat := 4095

/-- The name of the topmost directory, which no entry has. -/
def top : String := "/"

/-- The names of the directory where a path begins. -/
def start (path : Path) : List String := if path.root = "" then [] else [top]

/-- The names of the directory above; the topmost one is above itself. -/
def above (names : List String) : List String :=
  match names.getLast? with
  | none | some ".." => names ++ [".."]
  | some name => if name = top then names else names.dropLast

/-- An entry at the end of a path, with the directories on the way. -/
def put (st : Storage) (path : Path) (entry : Entry) : Storage :=
  let (names, left) := path.names.foldl
    (fun (names, left) name => if name = ".." then (above names, names :: left) else (names ++ [name], left))
    (start path, [])
  ⟨(names, entry) :: left.map (·, .directory) ++ st.entries⟩

/-- What the names lead to. -/
def find? (st : Storage) (names : List String) : Option Place :=
  match st.entries.lookup names with
  | some (.file content) => some (.file content)
  | some .directory => some (.directory names)
  | none => if st.entries.any fun e => names.isPrefixOf e.1 then some (.directory names) else none

/-- One name further. -/
def enter (st : Storage) (place : Place) (name : String) : Except FileError Place :=
  match place with
  | .file _ => .error .notDirectory
  | .directory names =>
    if maxName < name.utf8ByteSize then .error .nameTooLong
    else if name = ".." then .ok (.directory (above names))
    else
      match st.find? (names ++ [name]) with
      | some p => .ok p
      | none => .error .noEntry

def read (st : Storage) (path : Path) : Except FileError (List UInt8) := do
  if maxPath < path.text.utf8ByteSize then throw .nameTooLong
  match ← path.names.foldlM st.enter (.directory (start path)) with
  | .file content => return content
  | .directory _ => throw .isDirectory

end Storage
end Chip8
