import ChunkedUpload.CommandLine.Run
import ChunkedUpload.FileSystem.Changes
import ChunkedUpload.Identifier

/-! The program. It takes up what the command can see of the disk, lets the command run on that, and
puts down what has changed. -/
namespace ChunkedUpload.Program

def readEnvironment : IO (List (String × String)) :=
  ["HOME", "XDG_CONFIG_HOME", "XDG_DATA_HOME", "XDG_STATE_HOME"].filterMapM fun name => do
    return (← IO.getEnv name).map fun value => (name, value)

/-- A path and all directories on the way to it, the outermost first. -/
def upTo (path : Path) : List Path :=
  (List.range path.names.length).map fun count =>
    Path.ofSteps path.isAbsolute (path.names.take (count + 1))

def takePlace (files : FileSystem) (path : Path) : IO FileSystem := do
  let place := (← IO.currentDir) / path.display
  if ← place.isDir then return (FileSystem.createDirectory path files).2
  else if ← place.pathExists then
    return (FileSystem.write path (← IO.FS.readBinFile place) files).2
  else return files

/-- Takes up paths together with the directories on the way to them. -/
def takePaths (files : FileSystem) (paths : List Path) : IO FileSystem :=
  (paths.flatMap upTo).foldlM takePlace files

def listPaths (directory : Path) : IO (List Path) := do
  let place := (← IO.currentDir) / directory.display
  if ← place.isDir then
    return (← place.readDir).toList.map fun entry => directory.child entry.fileName
  else return []

/-- The paths that a command looks at. -/
def pathsOf (store : Option Path → Store) : CommandLine.Command → IO (List Path)
  | .upload path asked _ => return [path, (store asked).root]
  | .resume path fileId part asked =>
    return [path, (store asked).directory fileId, (store asked).partPath fileId part,
      (store asked).temporaryPath fileId part]
  | .checksum path => return [path]
  | .assemble fileId _ out asked => do
    let directory := (store asked).directory fileId
    return out :: directory :: (← listPaths directory)

/-- The paths that a run looks at besides those of the configuration and the log. -/
def pathsOfWords (directories : UserDirectories) (words : List String) (files : FileSystem) :
    IO (List Path) :=
  match CommandLine.Command.ofWords? words, (CommandLine.loadConfig directories files).1 with
  | some (.run command), .ok config =>
    pathsOf (CommandLine.Setting.store ⟨config, directories, files, 0⟩) command
  | _, _ => return []

def showPlace (place : Location) : String := (Path.ofSteps true place.reverse).display

def apply : FileSystem.Change → IO Unit
  | .remove place => IO.FS.removeFile (showPlace place)
  | .makeDirectory place => IO.FS.createDirAll (showPlace place)
  | .write place bytes => IO.FS.writeBinFile (showPlace place) bytes

/-- A source of identifiers that begins anywhere. -/
def randomSource : IO IdSource := do
  let bytes ← IO.getRandomBytes 8
  return ⟨bytes.foldl (fun word byte => word <<< 8 ||| byte.toUInt64) 0⟩

def run (words : List String) : IO UInt32 := do
  let known ← readEnvironment
  let environment (name : String) := known.lookup name
  let directories := UserDirectories.ofEnvironment environment
  let here := Path.ofString (← IO.currentDir).toString
  let start ← takePaths FileSystem.empty [here]
  let start := { start with workingDirectory := here.names.reverse }
  let files ← takePaths start [directories.logFile, directories.configFile]
  let files ← takePaths files (← pathsOfWords directories words files)
  let (freshId, _) := (← randomSource).next
  let exit := CommandLine.run environment words freshId files
  (files.changes exit.files).forM apply
  IO.print exit.output
  IO.eprint exit.errors
  return exit.code.toUInt32

end ChunkedUpload.Program

def main (words : List String) : IO UInt32 := ChunkedUpload.Program.run words
