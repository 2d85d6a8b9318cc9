import UsbDfu.Bytes

/-!
# A folder of files

The files of one directory that has no directories in it, and what becomes of a path there.
`Folder.locate` follows a path from the directory. Nothing is known of what lies outside: every
name there is free, and what is written under it is not kept.
-/

namespace UsbDfu.Tool

/-- Why a file cannot be read or written. -/
inductive FileError where
  | notFound
  | permissionDenied
  | isDirectory
  | notDirectory
  | nameTooLong
  deriving DecidableEq, Repr

/-- The error in words, with the number that the operating system gives it. -/
def FileError.message : FileError → String
  | .notFound => "No such file or directory (os error 2)"
  | .permissionDenied => "Permission denied (os error 13)"
  | .isDirectory => "Is a directory (os error 21)"
  | .notDirectory => "Not a directory (os error 20)"
  | .nameTooLong => "File name too long (os error 36)"

/-- The files with their names; a name is listed once. -/
structure Folder where
  files : List (String × Bytes)
  deriving DecidableEq, Repr

/-- What a path leads to. -/
inductive Place where
  /-- A name, of a file or of none, in the folder or outside; `slashed` if the path ends with a
  slash. -/
  | name (inside : Bool) (name : String) (slashed : Bool)
  | directory
  deriving DecidableEq, Repr

namespace Folder

/-- The content of a file. -/
def get? (f : Folder) (name : String) : Option Bytes :=
  f.files.lookup name

/-- Writes a file, in place of one that was there. -/
def put (f : Folder) (name : String) (data : Bytes) : Folder :=
  ⟨f.files.filter (·.1 ≠ name) ++ [(name, data)]⟩

/-! ## Paths -/

/-- The parts between the slashes. -/
def parts (path : String) : List String :=
  path.splitOn "/"

/-- The part leads nowhere else. -/
def stays (part : String) : Bool :=
  part = "" || part = "."

/-- The most bytes that a name has. -/
def longestName : Nat := 255

/-- The most bytes that a path has. -/
def longestPath : Nat := 4095

/-- The name has more bytes than a file may have in its name. -/
def isTooLong (name : String) : Bool :=
  longestName < name.utf8ByteSize

/-- What is in the file of a name, if there is one. -/
def lookup (f : Folder) (inside : Bool) (name : String) : Except FileError Bytes :=
  if isTooLong name then .error .nameTooLong
  else
    match if inside then f.get? name else none with
    | some data => .ok data
    | none => .error .notFound

/-- Follows parts from a directory, the folder itself if `inside`. A name that more parts come
after would have to be a directory, and there is none. -/
def locateFrom (f : Folder) : Bool → List String → Except FileError Place
  | _, [] => .ok .directory
  | inside, part :: rest =>
    if stays part then locateFrom f inside rest
    else if part = ".." then locateFrom f false rest
    else if rest.all (·.isEmpty) then .ok (.name inside part !rest.isEmpty)
    else (f.lookup inside part).bind fun _ => .error .notDirectory

/-- Follows a path; how long it is matters before anything else. -/
def locate (f : Folder) (path : String) : Except FileError Place :=
  if longestPath < path.utf8ByteSize then .error .nameTooLong
  else if path.isEmpty then .error .notFound
  else f.locateFrom (!path.startsWith "/") (parts path)

/-! ## Files -/

/-- What is in the file that the path leads to. -/
def read (f : Folder) (path : String) : Except FileError Bytes := do
  match ← f.locate path with
  | .directory => throw .isDirectory
  | .name inside name slashed =>
    let data ← f.lookup inside name
    if slashed then throw .notDirectory else pure data

/-- Writes the file that the path leads to. A slash after its name makes it a directory, whatever
the name is. -/
def write (f : Folder) (path : String) (data : Bytes) : Except FileError Folder := do
  match ← f.locate path with
  | .directory => throw .isDirectory
  | .name inside name slashed =>
    if slashed then throw .isDirectory
    else if isTooLong name then throw .nameTooLong
    else pure (if inside then f.put name data else f)

end Folder
end UsbDfu.Tool
