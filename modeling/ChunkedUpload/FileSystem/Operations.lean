import ChunkedUpload.FileSystem.Basic

/-! What a program does to a file system: opening, reading, writing, renaming and removing files,
and making directories. An operation that fails half-way keeps what it has done so far. -/
namespace ChunkedUpload

/-- An open file. It stays the same file whatever happens to its name. -/
inductive Handle
  | file (number : Nat)
  | sink
  | directory
deriving DecidableEq, Repr

namespace FileSystem

/-- A step that may fail, and that leaves a file system behind in either case. -/
abbrev Action (α : Type) := ExceptT IoError (StateM FileSystem) α

/-- Asks without changing anything. -/
def ask {α : Type} (question : FileSystem → Except IoError α) : Action α :=
  fun files => (question files, files)

def fail {α : Type} (error : IoError) : Action α := fun files => (.error error, files)

def change (f : FileSystem → FileSystem) : Action Unit := fun files => (.ok (), f files)

def handleOf : Node → Handle
  | .directory => .directory
  | .file number => .file number
  | .sink => .sink

/-- Opens what a path leads to for reading. A directory can be opened, but not read. -/
def openFile (files : FileSystem) (path : Path) : Except IoError Handle := do
  let place ← files.resolve path
  match files.node? place with
  | some node => .ok (handleOf node)
  | none => .error (.system SystemError.noSuchFile)

def readHandle (files : FileSystem) : Handle → Except IoError ByteArray
  | .file number => .ok (files.content number)
  | .sink => .ok ByteArray.empty
  | .directory => .error (.system SystemError.isDirectory)

def read (files : FileSystem) (path : Path) : Except IoError ByteArray := do
  files.readHandle (← files.openFile path)

/-- Makes an empty file, or empties the one that is there, and opens it for writing. -/
def create (path : Path) : Action Handle := fun files =>
  match files.seat path with
  | .error error => (.error error, files)
  | .ok (.dots _) => (.error (.system SystemError.isDirectory), files)
  | .ok (.at directory name) =>
    if path.endsInSlash then (.error (.system SystemError.isDirectory), files)
    else
      match files.node? (name :: directory) with
      | some .directory => (.error (.system SystemError.isDirectory), files)
      | some .sink => (.ok .sink, files)
      | some (.file number) => (.ok (.file number), files.setContent number ByteArray.empty)
      | none =>
        let number := files.nextNumber
        let made := (files.setNode (name :: directory) (.file number)).setContent number
          ByteArray.empty
        (.ok (.file number), { made with nextNumber := number + 1 })

/-- The bytes of a file after `bytes` were written at `offset`; a gap is filled with zeros. -/
def overwrite (old : ByteArray) (offset : Nat) (bytes : ByteArray) : ByteArray :=
  let before := old.extract 0 offset
  let gap : ByteArray := ⟨Array.replicate (offset - old.size) 0⟩
  before ++ gap ++ bytes ++ old.extract (offset + bytes.size) old.size

/-- Bytes are in the file once they were written: none are kept back for later, when that might
fail. -/
def writeAt (handle : Handle) (offset : Nat) (bytes : ByteArray) : Action Unit := fun files =>
  match handle with
  | .file number =>
    (.ok (), files.setContent number (overwrite (files.content number) offset bytes))
  | .sink => (.ok (), files)
  | .directory => (.error (.system SystemError.isDirectory), files)

/-- Makes sure that what was written stays. Only files can do that. -/
def flush (handle : Handle) : Action Unit := fun files =>
  match handle with
  | .file _ => (.ok (), files)
  | .sink | .directory => (.error (.system SystemError.invalidArgument), files)

def write (path : Path) (bytes : ByteArray) : Action Unit := do
  let handle ← create path
  writeAt handle 0 bytes

/-- Gives a file a new name, under which nothing but a directory is spared. Directories are not
renamed. -/
def rename (source target : Path) : Action Unit := fun files =>
  match files.seat source, files.seat target with
  | .error error, _ => (.error error, files)
  | .ok _, .error error => (.error error, files)
  | .ok (.at fromDirectory fromName), .ok (.at toDirectory toName) =>
    match files.node? (fromName :: fromDirectory) with
    | none => (.error (.system SystemError.noSuchFile), files)
    | some .directory => (.error (.system SystemError.isDirectory), files)
    | some node =>
      if source.endsInSlash || target.endsInSlash then
        (.error (.system SystemError.notDirectory), files)
      else if files.isDirectoryAt (toName :: toDirectory) then
        (.error (.system SystemError.isDirectory), files)
      else (.ok (), (files.clear (fromName :: fromDirectory)).setNode (toName :: toDirectory) node)
  | .ok _, .ok _ => (.error (.system SystemError.busy), files)

def remove (path : Path) : Action Unit := fun files =>
  match files.seat path with
  | .error error => (.error error, files)
  | .ok (.dots _) => (.error (.system SystemError.isDirectory), files)
  | .ok (.at directory name) =>
    match files.node? (name :: directory) with
    | none => (.error (.system SystemError.noSuchFile), files)
    | some .directory => (.error (.system SystemError.isDirectory), files)
    | some _ =>
      if path.endsInSlash then (.error (.system SystemError.notDirectory), files)
      else (.ok (), files.clear (name :: directory))

def createDirectory (path : Path) : Action Unit := fun files =>
  match files.seat path with
  | .error error => (.error error, files)
  | .ok (.dots _) => (.error (.system SystemError.fileExists), files)
  | .ok (.at directory name) =>
    match files.node? (name :: directory) with
    | some _ => (.error (.system SystemError.fileExists), files)
    | none => (.ok (), files.setNode (name :: directory) .directory)

/-- Makes a directory and is content with one that is there already. -/
def settleDirectory (path : Path) : Action Unit := fun files =>
  match createDirectory path files with
  | (.ok (), made) => (.ok (), made)
  | (.error error, same) => if files.isDirectory path then (.ok (), same) else (.error error, same)

/-- Makes a directory together with those above it, of which at most `depth` are missing. -/
def createDirectoriesWithin : Nat → Path → Action Unit
  | depth, path => fun files =>
    if path.bytes.isEmpty then (.ok (), files)
    else
      match createDirectory path files with
      | (.ok (), made) => (.ok (), made)
      | (.error error, _) =>
        if error = .system SystemError.noSuchFile then
          match depth, path.parent? with
          | depth + 1, some parent =>
            match createDirectoriesWithin depth parent files with
            | (.error error, made) => (.error error, made)
            | (.ok (), made) => settleDirectory path made
          | _, _ => (.error (.described "failed to create whole tree"), files)
        else if files.isDirectory path then (.ok (), files)
        else (.error error, files)

/-- Makes a directory together with all those above it that are missing. -/
def createDirectories (path : Path) : Action Unit :=
  createDirectoriesWithin (path.steps.length + 1) path

end FileSystem

end ChunkedUpload
