import Fabric.Name.Path
import Fabric.Table

/-!
# Files by their paths

A program that reads a file by its path gets the text or learns why there is none. Here the
files are those of a working directory, held as a `FileTree`, and a path is followed step by
step from there, or from the root if it starts with a slash.

## Following a path

* Every step is taken from a directory. A file can only be the end of a path, so a slash or a
  step behind it is an error, even if that step would stay where it is.
* `..` leads to the directory above; above the root there is the root again.
* The length of a step and that of the whole path are limited, in bytes.
* The working directory is one of those that are made for a single use, so it is below the
  directory of temporary files. It has no name that could be known beforehand, but a process
  has a link to it.
* What else lies outside it is known only as far as every system has it: the common directories
  below the root, a few files in them, and the devices that read as empty text.
-/

namespace Fabric.CommandLine

/-! ### Errors -/

/-- Why a file could not be read: what the system says, and its number for it. -/
structure FileError where
  description : String
  code : Nat
  deriving DecidableEq, Repr

namespace FileError

/-- There is nothing at the path. -/
def notFound : FileError := ⟨"No such file or directory", 2⟩

/-- A file stands where the path needs a directory. -/
def notDirectory : FileError := ⟨"Not a directory", 20⟩

/-- The path leads to a directory. -/
def isDirectory : FileError := ⟨"Is a directory", 21⟩

/-- The path or one of its steps is too long. -/
def nameTooLong : FileError := ⟨"File name too long", 36⟩

/-- The error with a given number. -/
def ofCode? (code : Nat) : Option FileError :=
  [notFound, notDirectory, isDirectory, nameTooLong].find? (·.code == code)

/-- What an error says. -/
def message (e : FileError) : String := s!"{e.description} (os error {e.code})"

end FileError

/-! ### Trees of files -/

/-- A tree of files, each under the names that lead to it from the top. -/
structure FileTree where
  files : Table (List String) String
  /-- Directories that are there even if no file is below them. -/
  directories : List (List String) := []
  deriving Inhabited, Repr

namespace FileTree

/-- The steps of a path. An empty one stands before the first slash, between two slashes that
follow each other and behind the last slash. -/
def stepsOf (path : String) : List String := (Path.split '/' path.toList).map String.ofList

/-- The tree of some files, by their paths from the top. -/
def ofFiles (files : Table String String) : FileTree where
  files := files.map fun (path, text) => (stepsOf path, text)

/-- Whether names lead to a directory, provided that they lead to no file. -/
def hasDirectory (t : FileTree) (names : List String) : Bool :=
  names.isEmpty || (t.files.keys ++ t.directories).any names.isPrefixOf

/-- What every system has below its root. The null device is empty, and so is the standard input
of a process that is given none. -/
def system : FileTree where
  files :=
    [(["dev", "null"], ""), (["dev", "stdin"], ""),
      (["etc", "hosts"], "127.0.0.1\tlocalhost\n"),
      (["etc", "passwd"], "root:x:0:0:root:/root:/bin/sh\n")]
  directories :=
    [["bin"], ["boot"], ["dev"], ["etc"], ["home"], ["lib"], ["media"], ["mnt"], ["opt"],
      ["proc", "self"], ["root"], ["run"], ["sbin"], ["srv"], ["sys"], ["tmp"],
      ["usr", "bin"], ["usr", "lib"], ["usr", "local"], ["usr", "sbin"], ["usr", "share"],
      ["var", "cache"], ["var", "lib"], ["var", "log"], ["var", "tmp"]]

/-- The directory of temporary files, by the names from the root. -/
def temporary : List String := ["tmp"]

/-- The link to the working directory of a process, by the names from the root. -/
def workingLink : List String := ["proc", "self", "cwd"]

end FileTree

/-! ### Following a path -/

/-- A directory that a path can lead to. -/
inductive Place where
  /-- The working directory or one below it, by the names from there. -/
  | working (names : List String)
  /-- The root or a directory below it, by the names from there. -/
  | root (names : List String)
  deriving DecidableEq, Inhabited, Repr

/-- The directory above. -/
def Place.parent : Place → Place
  | .working [] => .root FileTree.temporary
  | .working names => .working names.dropLast
  | .root names => .root names.dropLast

/-- What a path leads to. -/
inductive Entry where
  | file (text : String)
  | directory (place : Place)
  deriving DecidableEq, Inhabited, Repr

namespace FileTree

/-- The greatest number of bytes in a step. -/
def stepLimit : Nat := 255

/-- The greatest number of bytes in a path. -/
def pathLimit : Nat := 4095

/-- What is under some names in a tree, whose directories are places of a given kind. -/
def entry (t : FileTree) (place : List String → Place) (names : List String) :
    Except FileError Entry :=
  match t.files.get? names with
  | some text => .ok (.file text)
  | none => if t.hasDirectory names then .ok (.directory (place names)) else .error .notFound

/-- What has a given name in a directory. -/
def child (t : FileTree) (name : String) : Place → Except FileError Entry
  | .working names => t.entry .working (names ++ [name])
  | .root names =>
    if names ++ [name] = workingLink then .ok (.directory (.working []))
    else system.entry .root (names ++ [name])

/-- Takes one step of a path. -/
def enter (t : FileTree) (entry : Entry) (step : String) : Except FileError Entry :=
  match entry with
  | .file _ => .error .notDirectory
  | .directory place =>
    if step = "" ∨ step = "." then .ok (.directory place)
    else if step = ".." then .ok (.directory place.parent)
    else if stepLimit < step.utf8ByteSize then .error .nameTooLong
    else t.child step place

/-- What a path leads to. -/
def follow (t : FileTree) (path : String) : Except FileError Entry :=
  if path = "" then .error .notFound
  else if pathLimit < path.utf8ByteSize then .error .nameTooLong
  else
    let start : Place := if path.toList.head? = some '/' then .root [] else .working []
    (stepsOf path).foldlM t.enter (.directory start)

/-- The text of the file that a path leads to. -/
def read (t : FileTree) (path : String) : Except FileError String := do
  match ← t.follow path with
  | .file text => return text
  | .directory _ => throw .isDirectory

/-- Whether a path leads to a file. -/
def hasFile (t : FileTree) (path : String) : Bool := (t.read path).isOk

end FileTree

end Fabric.CommandLine
