import ChunkedUpload.FileSystem.Operations
import ChunkedUpload.Limits
import ChunkedUpload.Toml.Document

/-! The configuration and its file. A file that is missing is written with the initial settings, so
that there is one to edit. -/
namespace ChunkedUpload

structure Config where
  maxConcurrentUploads : Nat
  /-- Whether lost parts and broken reads are an error, rather than no result. -/
  failOnPartError : Bool
  privilegedAccount : Bool
  /-- Where parts are stored, if the user wants them elsewhere than by default. -/
  storeDirectory : Option Path
deriving DecidableEq, Repr

inductive ConfigError
  | io (error : IoError)
  /-- The file is no TOML document, or its settings are of the wrong types. -/
  | malformed
deriving DecidableEq, Repr

def ConfigError.message : ConfigError → String
  | io error => error.message
  | malformed => "TOML parse error"

namespace Config

/-- The settings of whoever has chosen none. -/
def initial : Config := ⟨1, false, false, none⟩

instance : Inhabited Config := ⟨initial⟩

def initialText : String :=
  "max_concurrent_uploads = 1\nfail_on_part_error = false\nprivileged_account = false\n"

def count? (entries : Toml.Entries) (key : String) : Option Nat :=
  match entries.lookup key with
  | some (.integer value) => value.toInt.toNat?
  | _ => none

/-- A setting that is false if it is left out. -/
def flag? (entries : Toml.Entries) (key : String) : Option Bool :=
  match entries.lookup key with
  | none => some false
  | some (.boolean value) => some value
  | some _ => none

def path? (entries : Toml.Entries) (key : String) : Option (Option Path) :=
  match entries.lookup key with
  | none => some none
  | some (.text value) => some (some (Path.ofString value))
  | some _ => none

/-- Other settings than these are passed over. -/
def ofEntries? (entries : Toml.Entries) : Option Config := do
  return {
    maxConcurrentUploads := ← count? entries "max_concurrent_uploads"
    failOnPartError := ← flag? entries "fail_on_part_error"
    privilegedAccount := ← flag? entries "privileged_account"
    storeDirectory := ← path? entries "store_dir" }

def ofText? (text : String) : Option Config := (Toml.parse? text).bind ofEntries?

/-- The configuration that some bytes spell. -/
def ofBytes (bytes : ByteArray) : Except ConfigError Config :=
  match String.fromUTF8? bytes with
  | none => .error (.io .notUtf8)
  | some text =>
    match ofText? text with
    | none => .error .malformed
    | some config => .ok config

/-- Writes the initial settings to a file, in a directory that is made if it is missing. -/
def writeInitial (path : Path) : FileSystem.Action Unit := do
  match path.parent? with
  | some parent => FileSystem.createDirectories parent
  | none => pure ()
  FileSystem.write path initialText.toUTF8

/-- Reads the configuration from a file, which is written first if nothing is there. -/
def load (path : Path) (files : FileSystem) : Except ConfigError Config × FileSystem :=
  if files.contains path then
    match files.read path with
    | .error error => (.error (.io error), files)
    | .ok bytes => (ofBytes bytes, files)
  else
    match writeInitial path files with
    | (.ok (), after) => (.ok initial, after)
    | (.error error, after) => (.error (.io error), after)

def limit (config : Config) : SizeLimit :=
  .tier (AccountTier.ofFlag (some config.privilegedAccount))

end Config

end ChunkedUpload
