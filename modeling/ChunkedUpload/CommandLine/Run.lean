import ChunkedUpload.Checksum.File
import ChunkedUpload.CommandLine.Command
import ChunkedUpload.Config
import ChunkedUpload.Host.Local
import ChunkedUpload.Reference.Json
import ChunkedUpload.Text.Fixed
import ChunkedUpload.UserDirectories

/-! What a run of the program does. -/
namespace ChunkedUpload.CommandLine

inductive CommandError
  | config (error : ConfigError)
  | uploading (path : Path) (error : UploadError)
  /-- Parts are missing, and the log tells which. -/
  | incomplete (path : Path)
  | resending (part : UInt32) (path : Path) (error : UploadError)
  | notStored (part : UInt32) (fileId : Int64) (root : Path)
  | checksum (error : ChecksumError)
  | assembling (error : Store.AssembleError)
  /-- More uploads are allowed at the same time than a limiter can count. -/
  | tooManySlots

namespace CommandError

def chain : CommandError → List String
  | config error => [error.message]
  | uploading path error => s!"upload {path.display}" :: error.chain
  | incomplete path => [s!"upload of {path.display} did not complete; see log for failed parts"]
  | resending part path error => s!"resend part {part.toNat} of {path.display}" :: error.chain
  | notStored part fileId root =>
    [s!"part {part.toNat} of file {fileId.toInt} was not stored in {root.display} " ++
      "(see log for details)"]
  | checksum error => error.chain
  | assembling error => [error.message]
  | tooManySlots => [s!"more than {Admission.maxSlots} uploads at the same time"]

def message (error : CommandError) : String := ": ".intercalate error.chain

def code : CommandError → UInt8
  | tooManySlots => 101
  | _ => 1

end CommandError

structure Outcome where
  /-- What is printed at the end, if all went well. -/
  result : Except CommandError String
  /-- What was reported on the way. -/
  reports : String
  files : FileSystem

structure Setting where
  config : Config
  directories : UserDirectories
  files : FileSystem
  /-- The identifier that a new file gets. -/
  freshId : Int64

namespace Setting

/-- The part store: the one asked for, or the configured one, or the default. -/
def store (setting : Setting) (asked : Option Path) : Store :=
  ⟨(asked.orElse fun _ => setting.config.storeDirectory).getD setting.directories.defaultStore⟩

def job (setting : Setting) (path : Path) (resume : Option ResumePart)
    (callback : Option Callback) : UploadJob where
  input := .path path
  limit := setting.config.limit
  resume := resume
  callback := callback
  freshId := setting.freshId
  failOnPartError := setting.config.failOnPartError

/-- Ends without having done anything. -/
def stop (setting : Setting) (error : CommandError) : Outcome :=
  ⟨.error error, "", setting.files⟩

/-- One report of progress, which overwrites the one before it. -/
def reportLine (current total : UInt64) : String :=
  let percent := Text.oneDecimal ((Progress.mk current total).fraction * 100.0)
  s!"\r{Text.padLeft 6 percent}%  {current.toNat}/{total.toNat} bytes"

def upload (setting : Setting) (path : Path) (asked : Option Path) (quiet : Bool) : Outcome :=
  match Admission.make? setting.config.maxConcurrentUploads with
  | none => setting.stop .tooManySlots
  | some limiter =>
    let callback := if quiet then none else some ⟨.blocking, fun _ => .returns⟩
    let run := (setting.store asked).run setting.files limiter (setting.job path none callback)
    let reports := String.join (run.reports.map fun report => reportLine report.1 report.2)
    match run.result with
    | some (.returned (.error error)) => ⟨.error (.uploading path error), reports, run.files⟩
    | some (.returned (.ok (some reference))) =>
      ⟨.ok (reference.toPrettyJson ++ "\n"), endLine quiet reports, run.files⟩
    | _ => ⟨.error (.incomplete path), endLine quiet reports, run.files⟩
where
  endLine (quiet : Bool) (reports : String) : String := if quiet then reports else reports ++ "\n"

/-- Sends a part again and reports success only if it was delivered. -/
def resume (setting : Setting) (path : Path) (fileId : Int64) (part : UInt32)
    (asked : Option Path) : Outcome :=
  match Admission.make? setting.config.maxConcurrentUploads with
  | none => setting.stop .tooManySlots
  | some limiter =>
    let store := setting.store asked
    let run := store.run setting.files limiter (setting.job path (some ⟨fileId, part⟩) none)
    match run.result with
    | some (.returned (.error error)) => ⟨.error (.resending part path error), "", run.files⟩
    | _ =>
      if 0 < run.resends.failed ∨ run.resends.delivered = 0 then
        ⟨.error (.notStored part fileId store.root), "", run.files⟩
      else ⟨.ok s!"part {part.toNat} of file {fileId.toInt} stored\n", "", run.files⟩

def checksum (setting : Setting) (path : Path) : Outcome :=
  match Checksum.ofFile setting.files path with
  | .error error => setting.stop (.checksum error)
  | .ok sum => ⟨.ok s!"{sum}  {path.display}\n", "", setting.files⟩

def assemble (setting : Setting) (fileId : Int64) (parts : UInt32) (out : Path)
    (asked : Option Path) : Outcome :=
  match (setting.store asked).assemble fileId parts out setting.files with
  | (.error error, files) => ⟨.error (.assembling error), "", files⟩
  | (.ok written, files) => ⟨.ok s!"wrote {written} bytes to {out.display}\n", "", files⟩

def run (setting : Setting) : Command → Outcome
  | .upload path asked quiet => setting.upload path asked quiet
  | .resume path fileId part asked => setting.resume path fileId part asked
  | .checksum path => setting.checksum path
  | .assemble fileId parts out asked => setting.assemble fileId parts out asked

end Setting

structure Exit where
  code : UInt8
  output : String
  errors : String
  files : FileSystem

/-- The exit code for words that ask for nothing that there is. -/
def usageCode : UInt8 := 2

def usage : String :=
  "Usage: partup upload <PATH> [--store <DIR>] [--quiet]\n" ++
  "       partup resume <PATH> --file-id <FILE_ID> --part <PART> [--store <DIR>]\n" ++
  "       partup checksum <PATH>\n" ++
  "       partup assemble --file-id <FILE_ID> --parts <PARTS> --out <PATH> [--store <DIR>]\n"

def Outcome.exit (outcome : Outcome) : Exit :=
  match outcome.result with
  | .ok text => ⟨0, text, outcome.reports, outcome.files⟩
  | .error error =>
    ⟨error.code, "", outcome.reports ++ s!"partup error: {error.message}\n", outcome.files⟩

def loadConfig (directories : UserDirectories) (files : FileSystem) :
    Except ConfigError Config × FileSystem :=
  match directories.placeConfig files with
  | (.error error, files) => (.error (.io error), files)
  | (.ok path, files) => Config.load path files

def carryOut (directories : UserDirectories) (command : Command) (freshId : Int64)
    (files : FileSystem) : Outcome :=
  match loadConfig directories files with
  | (.error error, files) => ⟨.error (.config error), "", files⟩
  | (.ok config, files) => Setting.run ⟨config, directories, files, freshId⟩ command

/-- A run of the program. The log is opened before the words are looked at; without it the program
goes on all the same. -/
def run (environment : String → Option String) (words : List String) (freshId : Int64)
    (files : FileSystem) : Exit :=
  let directories := UserDirectories.ofEnvironment environment
  let files := (directories.openLog files).2
  match Command.ofWords? words with
  | none => ⟨usageCode, "", usage, files⟩
  | some .help => ⟨0, usage, "", files⟩
  | some (.run command) => (carryOut directories command freshId files).exit

end ChunkedUpload.CommandLine
