import ChunkedUpload.FileSystem.Operations
import ChunkedUpload.Request
import ChunkedUpload.Text.Numeral

/-! A part store in a directory. Part `i` of a file stands as `i.part` in a directory named after
the identifier of the file. It is written under a temporary name and then renamed, so that a part is
complete or absent. -/
namespace ChunkedUpload

structure Store where
  root : Path
deriving DecidableEq, Repr

namespace Store

/-- What the name of a stored part ends in. -/
def suffix : String := ".part"

/-- The endpoint that a local store reports. -/
def endpoint : Int32 := 1

def directory (store : Store) (fileId : Int64) : Path := store.root.child (toString fileId.toInt)

def partName (part : UInt32) : String := toString part.toNat ++ suffix

def partPath (store : Store) (fileId : Int64) (part : UInt32) : Path :=
  (store.directory fileId).child (partName part)

/-- Where a part is written before it gets its name. -/
def temporaryPath (store : Store) (fileId : Int64) (part : UInt32) : Path :=
  (store.directory fileId).child (partName part ++ ".tmp")

/-- Writes one part, in place of an earlier copy. -/
def putPart (store : Store) (fileId : Int64) (part : UInt32) (payload : ByteArray) :
    FileSystem.Action Unit := do
  FileSystem.createDirectories (store.directory fileId)
  let handle ← FileSystem.create (store.temporaryPath fileId part)
  FileSystem.writeAt handle 0 payload
  FileSystem.flush handle
  FileSystem.rename (store.temporaryPath fileId part) (store.partPath fileId part)

def deliver (store : Store) (request : PartRequest) : FileSystem.Action Unit :=
  store.putPart request.fileId request.part request.payload

/-- A text without this ending. -/
def withoutSuffix? (ending text : List Char) : Option (List Char) :=
  if ending.isSuffixOf text then some (text.take (text.length - ending.length)) else none

/-- The number that the name of an entry stands for: a numeral of 32 bits in front of the suffix. -/
def partOfName? (name : FileName) : Option UInt32 :=
  (withoutSuffix? suffix.toList (Text.decodeLossy name)).bind Text.word32?

/-- The numbers of the stored parts of a file, in order. A file that has no directory has no
parts. -/
def storedParts (store : Store) (fileId : Int64) (files : FileSystem) :
    Except IoError (List UInt32) :=
  match files.list (store.directory fileId) with
  | .ok names => .ok ((names.filterMap partOfName?).mergeSort fun a b => decide (a ≤ b))
  | .error error => if error = .system SystemError.noSuchFile then .ok [] else .error error

/-- All numbers below `total`, in order. -/
def partNumbers (total : UInt32) : List UInt32 := (List.range total.toNat).map UInt32.ofNat

/-- The numbers below `total` that are not stored, in order. -/
def missingParts (store : Store) (fileId : Int64) (total : UInt32) (files : FileSystem) :
    Except IoError (List UInt32) := do
  let stored ← store.storedParts fileId files
  return (partNumbers total).filter fun part => !stored.contains part

inductive AssembleError
  | missing (fileId : Int64) (parts : List UInt32)
  | io (error : IoError)
deriving DecidableEq, Repr

def AssembleError.message : AssembleError → String
  | missing fileId parts =>
    let shown := ", ".intercalate (parts.map fun part => toString part.toNat)
    s!"file {fileId.toInt} is missing parts [{shown}]"
  | io error => error.message

/-- Copies stored parts, in the order given, to an open file of which `written` bytes are
written. -/
def copyParts (store : Store) (fileId : Int64) (handle : Handle) (written : Nat) :
    List UInt32 → FileSystem.Action Nat
  | [] => pure written
  | part :: rest => do
    let bytes ← FileSystem.ask fun files => files.read (store.partPath fileId part)
    FileSystem.writeAt handle written bytes
    copyParts store fileId handle (written + bytes.size) rest

/-- Makes a file and copies the parts below `total` to it. -/
def copyAll (store : Store) (fileId : Int64) (total : UInt32) (out : Path) :
    FileSystem.Action Nat := do
  let handle ← FileSystem.create out
  let written ← store.copyParts fileId handle 0 (partNumbers total)
  FileSystem.flush handle
  return written

/-- Puts the parts below `total` together and tells how many bytes they are. Nothing is written as
long as one of them is missing. -/
def assemble (store : Store) (fileId : Int64) (total : UInt32) (out : Path) (files : FileSystem) :
    Except AssembleError Nat × FileSystem :=
  match store.missingParts fileId total files with
  | .error error => (.error (.io error), files)
  | .ok [] =>
    match store.copyAll fileId total out files with
    | (.ok written, after) => (.ok written, after)
    | (.error error, after) => (.error (.io error), after)
  | .ok missing => (.error (.missing fileId missing), files)

end Store

end ChunkedUpload
