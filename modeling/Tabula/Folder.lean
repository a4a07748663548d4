/-!
# Files in a folder

A folder holds files by name, and a path leads from the folder to one of them.  `Folder.read` walks
along the path, part by part, and says what is there or why nothing can be read.  Outside the folder
there are only folders without files.
-/

namespace Tabula

/-- Why no text is read at a path. -/
inductive FileFault where
  | missing
  | denied
  | notFolder
  /-- A path to a folder can be opened, but there is no text to read. -/
  | isFolder
  | nameTooLong
deriving DecidableEq, Repr

namespace FileFault

/-- The wording of a fault, with its number. -/
def message : FileFault → String
  | .missing => "No such file or directory (os error 2)"
  | .denied => "Permission denied (os error 13)"
  | .notFolder => "Not a directory (os error 20)"
  | .isFolder => "Is a directory (os error 21)"
  | .nameTooLong => "File name too long (os error 36)"

/-- Whether the file could be opened, so that the fault came with reading. -/
def isLate : FileFault → Bool
  | .isFolder => true
  | _ => false

end FileFault

/-- Texts by name. -/
structure Folder where
  files : List (String × String) := []
deriving DecidableEq, Repr

/-- What a path has led to so far. -/
inductive Place where
  | inside
  | outside
  | file (text : String)
deriving DecidableEq, Repr

namespace Folder

/-- The parts of a path between slashes, empty ones included. -/
def parts : List Char → List (List Char)
  | [] => [[]]
  | c :: rest =>
    if c = '/' then [] :: parts rest
    else
      match parts rest with
      | [] => [[c]]
      | part :: others => (c :: part) :: others

/-- The most bytes in the name of a file. -/
def longestName : Nat := 255

/-- The most bytes in a path. -/
def longestPath : Nat := 4095

/-- Where one part of a path leads. -/
def step (f : Folder) (place : Place) (part : String) : Except FileFault Place :=
  match place with
  | .file _ => .error .notFolder
  | place =>
    if part = "" || part = "." then .ok place
    else if part = ".." then .ok .outside
    else if longestName < part.utf8ByteSize then .error .nameTooLong
    else
      match place, f.files.lookup part with
      | .inside, some text => .ok (.file text)
      | _, _ => .error .missing

/-- Where the parts of a path lead. -/
def walk (f : Folder) : Place → List String → Except FileFault Place
  | place, [] => .ok place
  | place, part :: rest => do
    let next ← f.step place part
    f.walk next rest

/-- Where a path begins. -/
def start (path : List Char) : Place :=
  if path.head? = some '/' then .outside else .inside

/-- The text at a path. -/
def read (f : Folder) (path : String) : Except FileFault String :=
  if path = "" then .error .missing
  else if longestPath < path.utf8ByteSize then .error .nameTooLong
  else do
    match ← f.walk (start path.toList) ((parts path.toList).map String.ofList) with
    | .file text => return text
    | _ => throw .isFolder

end Folder

end Tabula
