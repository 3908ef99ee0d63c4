import ChunkedUpload.CommandLine.Words
import ChunkedUpload.FileSystem.Path

/-! The commands of the program. -/
namespace ChunkedUpload.CommandLine

inductive Command
  /-- Uploads a file and prints its reference. -/
  | upload (path : Path) (store : Option Path) (quiet : Bool)
  /-- Sends one part of an earlier upload again. -/
  | resume (path : Path) (fileId : Int64) (part : UInt32) (store : Option Path)
  | checksum (path : Path)
  /-- Puts stored parts together. -/
  | assemble (fileId : Int64) (parts : UInt32) (out : Path) (store : Option Path)
deriving DecidableEq, Repr

inductive Verb
  | upload
  | resume
  | checksum
  | assemble
deriving DecidableEq, Repr

namespace Verb

def ofName? : String → Option Verb
  | "upload" => some upload
  | "resume" => some resume
  | "checksum" => some checksum
  | "assemble" => some assemble
  | _ => none

def grammar : Verb → Grammar
  | upload => ⟨1, [("store", .path)], ["quiet"]⟩
  | resume => ⟨1, [("file-id", .identifier), ("part", .count), ("store", .path)], []⟩
  | checksum => ⟨1, [], []⟩
  | assemble =>
    ⟨0, [("file-id", .identifier), ("parts", .count), ("out", .path), ("store", .path)], []⟩

/-- The command, if everything that it needs was given. -/
def command? (verb : Verb) (given : Given) : Option Command := do
  let store := (given.values.lookup "store").map Path.ofString
  match verb with
  | upload =>
    return .upload (Path.ofString (← given.operands.head?)) store (given.flags.contains "quiet")
  | resume =>
    let fileId ← Text.signed64? (← given.values.lookup "file-id").toList
    let part ← count? (← given.values.lookup "part")
    return .resume (Path.ofString (← given.operands.head?)) fileId part store
  | checksum => return .checksum (Path.ofString (← given.operands.head?))
  | assemble =>
    let fileId ← Text.signed64? (← given.values.lookup "file-id").toList
    let parts ← count? (← given.values.lookup "parts")
    return .assemble fileId parts (Path.ofString (← given.values.lookup "out")) store

end Verb

/-- Whether the words behind `help` name at most one thing that there is help on. -/
def isHelpTopic : List String → Bool
  | [] => true
  | [word] => word == "help" || (Verb.ofName? word).isSome
  | _ => false

/-- Reads the words behind the name of the program, or finds that they ask for nothing that there
is. -/
def Command.ofWords? : List String → Option (Reading Command)
  | [] => none
  | word :: rest =>
    if word = "help" then if isHelpTopic rest then some .help else none
    else if Word.of word = .help then some .help
    else do
      let verb ← Verb.ofName? word
      match ← verb.grammar.read Given.empty rest with
      | .help => return .help
      | .run given => return .run (← verb.command? given)

end ChunkedUpload.CommandLine
