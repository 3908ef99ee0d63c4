import ChunkedUpload.FileSystem.Operations

/-! The directories in which a user keeps the files of programs, and what this program keeps in
them. Each of them is told by a variable of the environment, which counts only if it holds an
absolute path, and stands below the home directory otherwise. -/
namespace ChunkedUpload

structure UserDirectories where
  config : Path
  data : Path
  state : Path
deriving DecidableEq, Repr

namespace UserDirectories

/-- What the directories of this program are called. -/
def program : String := "partup"

/-- The home of a user who has not told another one. -/
def defaultHome : String := "/root"

def home (environment : String → Option String) : Path :=
  match environment "HOME" with
  | none | some "" => Path.ofString defaultHome
  | some text => Path.ofString text

/-- The directory that a variable tells, or one below the home directory. -/
def directory (environment : String → Option String) (name below : String) : Path :=
  match (environment name).map Path.ofString with
  | some path => if path.isAbsolute then path else (home environment).child below
  | none => (home environment).child below

def ofEnvironment (environment : String → Option String) : UserDirectories where
  config := (directory environment "XDG_CONFIG_HOME" ".config").child program
  data := (directory environment "XDG_DATA_HOME" ".local/share").child program
  state := (directory environment "XDG_STATE_HOME" ".local/state").child program

def configFile (directories : UserDirectories) : Path := directories.config.child "config.toml"

def defaultStore (directories : UserDirectories) : Path := directories.data.child "store"

def logFile (directories : UserDirectories) : Path := directories.state.child "partup.log"

/-- Makes the directory of the configuration and tells where its file stands. -/
def placeConfig (directories : UserDirectories) : FileSystem.Action Path := do
  FileSystem.createDirectories directories.config
  return directories.configFile

def openLog (directories : UserDirectories) : FileSystem.Action Unit := do
  FileSystem.createDirectories directories.state
  if ← FileSystem.ask fun files => .ok (files.contains directories.logFile) then return
  else
    let _ ← FileSystem.create directories.logFile
    return

end UserDirectories

end ChunkedUpload
