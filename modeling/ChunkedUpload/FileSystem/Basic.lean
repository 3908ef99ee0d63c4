import ChunkedUpload.Error
import ChunkedUpload.FileSystem.Path

/-! A file system as a value: what stands at each place and what each file holds. Contents are kept
apart from places, so that an open file stays the same file when its name moves or is taken over. -/
namespace ChunkedUpload

/-- A place in the tree: the names on the way to it, the innermost first. The root is the empty
list. -/
abbrev Location := List FileName

inductive Node
  | directory
  /-- A file, by the number under which its content is kept. -/
  | file (number : Nat)
  /-- Takes every byte and gives none. -/
  | sink
deriving DecidableEq, Repr

structure FileSystem where
  /-- What stands at each place, the root apart. -/
  entries : List (Location × Node)
  contents : List (Nat × ByteArray)
  /-- No file has this number yet, nor any above it. -/
  nextNumber : Nat
  workingDirectory : Location

namespace FileSystem

def empty : FileSystem := ⟨[], [], 0, []⟩

def node? (files : FileSystem) (place : Location) : Option Node :=
  if place = [] then some .directory else files.entries.lookup place

def isDirectoryAt (files : FileSystem) (place : Location) : Bool :=
  files.node? place == some .directory

/-- Puts something at a place, in place of what stood there. -/
def setNode (files : FileSystem) (place : Location) (node : Node) : FileSystem :=
  { files with entries := (place, node) :: files.entries.filter fun entry => entry.1 ≠ place }

def clear (files : FileSystem) (place : Location) : FileSystem :=
  { files with entries := files.entries.filter fun entry => entry.1 ≠ place }

def content (files : FileSystem) (number : Nat) : ByteArray :=
  (files.contents.lookup number).getD ByteArray.empty

def setContent (files : FileSystem) (number : Nat) (bytes : ByteArray) : FileSystem :=
  { files with
    contents := (number, bytes) :: files.contents.filter fun entry => entry.1 ≠ number }

/-- The names in a directory, in no particular order. -/
def namesAt (files : FileSystem) (place : Location) : List FileName :=
  files.entries.filterMap fun entry =>
    match entry.1 with
    | name :: parent => if parent = place then some name else none
    | [] => none

/-- No name may be longer than this, and no path as long as `maxPathBytes`. -/
def maxNameBytes : Nat := 255

def maxPathBytes : Nat := 4096

/-- Refuses paths that no look-up takes. -/
def checkPath (path : Path) : Except IoError Unit :=
  if path.bytes.contains 0 then .error .nulInPath
  else if path.bytes.isEmpty then .error (.system SystemError.noSuchFile)
  else if maxPathBytes ≤ path.bytes.length then .error (.system SystemError.nameTooLong)
  else .ok ()

/-- Follows names down from a place. -/
def walk (files : FileSystem) : Location → List FileName → Except IoError Location
  | place, [] => .ok place
  | place, name :: rest =>
    if !files.isDirectoryAt place then .error (.system SystemError.notDirectory)
    else if name = [Path.dot] then files.walk place rest
    else if name = [Path.dot, Path.dot] then files.walk place.tail rest
    else if maxNameBytes < name.length then .error (.system SystemError.nameTooLong)
    else if (files.node? (name :: place)).isNone then .error (.system SystemError.noSuchFile)
    else files.walk (name :: place) rest

def start (files : FileSystem) (path : Path) : Location :=
  if path.isAbsolute then [] else files.workingDirectory

/-- The place of something that exists. -/
def resolve (files : FileSystem) (path : Path) : Except IoError Location := do
  checkPath path
  let place ← files.walk (files.start path) path.names
  if path.endsInSlash && !files.isDirectoryAt place then
    .error (.system SystemError.notDirectory)
  else .ok place

/-- The place that a path names for something to be made or taken away there: its directory exists,
and its last name need not. A path that ends in a dot has no such place. -/
inductive Seat
  | at (directory : Location) (name : FileName)
  | dots (directory : Location)

def seat (files : FileSystem) (path : Path) : Except IoError Seat := do
  checkPath path
  match path.names.getLast? with
  | none => .ok (.dots [])
  | some name =>
    let directory ← files.walk (files.start path) path.names.dropLast
    if !files.isDirectoryAt directory then .error (.system SystemError.notDirectory)
    else if name = [Path.dot] ∨ name = [Path.dot, Path.dot] then .ok (.dots directory)
    else if maxNameBytes < name.length then .error (.system SystemError.nameTooLong)
    else .ok (.at directory name)

def contains (files : FileSystem) (path : Path) : Bool := (files.resolve path).isOk

def isDirectory (files : FileSystem) (path : Path) : Bool :=
  match files.resolve path with
  | .ok place => files.isDirectoryAt place
  | .error _ => false

/-- The names in the directory that a path leads to. -/
def list (files : FileSystem) (path : Path) : Except IoError (List FileName) := do
  let place ← files.resolve path
  if files.isDirectoryAt place then .ok (files.namesAt place)
  else .error (.system SystemError.notDirectory)

end FileSystem

end ChunkedUpload
