import SignedFirmware.Bytes

namespace SignedFirmware

/-- This says why a file could not be used. -/
inductive FileError where
  | notFound
  | other
  deriving DecidableEq, Repr

/-- To open a file changes nothing; to create one leaves it empty. -/
structure FileSystem (m : Type → Type) where
  openFile : String → m (Except FileError Unit)
  create : String → m (Except FileError Unit)
  read : String → m (Except FileError Bytes)
  write : String → Bytes → m (Except FileError Unit)

/-- A directory without directories in it. -/
structure Directory where
  files : List (String × Bytes)
  deriving DecidableEq, Repr

namespace Directory

def find? (directory : Directory) (name : String) : Option Bytes := directory.files.lookup name

/-- This replaces the contents of a file. -/
def insert (directory : Directory) (name : String) (contents : Bytes) : Directory :=
  ⟨(name, contents) :: directory.files.filter fun (found, _) => found != name⟩

/-- A path leads to the directory, to a file that may be missing, or nowhere. -/
inductive Place where
  | itself
  | file (name : String)
  | unreachable (error : FileError)
  deriving DecidableEq, Repr

/-- Nothing lies behind a file, and nothing in a missing directory. -/
def resolve (directory : Directory) (path : String) : Place :=
  let parts := path.splitOn "/"
  match parts.filter fun part => part != "" && part != "." with
  | [] => if path.isEmpty then .unreachable .notFound else .itself
  | name :: rest =>
      if name = ".." then
        if rest.isEmpty then .itself else .unreachable .notFound
      else if path.startsWith "/" then
        .unreachable .notFound
      else if rest.isEmpty && parts.getLast? == some name then
        .file name
      else if (directory.find? name).isSome then
        .unreachable .other
      else
        .unreachable .notFound

def read (path : String) : StateM Directory (Except FileError Bytes) := fun directory =>
  match directory.resolve path with
  | .itself => (.error .other, directory)
  | .unreachable error => (.error error, directory)
  | .file name =>
      match directory.find? name with
      | some contents => (.ok contents, directory)
      | none => (.error .notFound, directory)

/-- The directory can be opened too, but not read. -/
def openFile (path : String) : StateM Directory (Except FileError Unit) := fun directory =>
  match directory.resolve path with
  | .itself => (.ok (), directory)
  | .unreachable error => (.error error, directory)
  | .file name =>
      if (directory.find? name).isSome then (.ok (), directory) else (.error .notFound, directory)

/-- This replaces the contents of a file. -/
def write (path : String) (contents : Bytes) : StateM Directory (Except FileError Unit) :=
  fun directory =>
    match directory.resolve path with
    | .itself => (.error .other, directory)
    | .unreachable error => (.error error, directory)
    | .file name => (.ok (), directory.insert name contents)

/-- The operations on the files of a directory. -/
def fileSystem : FileSystem (StateM Directory) where
  openFile := openFile
  create path := write path []
  read := read
  write := write

end Directory

end SignedFirmware
