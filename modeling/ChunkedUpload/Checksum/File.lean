import ChunkedUpload.Checksum
import ChunkedUpload.FileSystem.Operations

/-! The checksum of a file on disk. -/
namespace ChunkedUpload

inductive ChecksumError
  | opening (path : Path) (error : IoError)
  | reading (path : Path) (error : IoError)
deriving DecidableEq, Repr

namespace ChecksumError

def message : ChecksumError → String
  | opening path _ => s!"open {path.display}"
  | reading path _ => s!"read {path.display}"

def cause : ChecksumError → IoError
  | opening _ error | reading _ error => error

def chain (error : ChecksumError) : List String := [error.message, error.cause.message]

end ChecksumError

namespace Checksum

/-- A file is read in pieces of this many bytes. -/
def pieceSize : Nat := 64 * 1024

/-- Feeds the bytes from a position on, read by read, until a read gives none. A read asks for a
piece; `reads` tells how many bytes at most it gives, by its number and its position. -/
def feedReads (bytes : ByteArray) (reads : Nat → Nat → Nat) (number position : Nat)
    (sum : Checksum) : Checksum :=
  let stop := min bytes.size (position + min (reads number position) pieceSize)
  if stop ≤ position then sum
  else feedReads bytes reads (number + 1) stop (sum.update (bytes.extract position stop))
termination_by bytes.size - position

/-- The checksum of a file whose reads may give less than they are asked for. -/
def ofFileIn (reads : Nat → Nat → Nat) (files : FileSystem) (path : Path) :
    Except ChecksumError String :=
  match files.openFile path with
  | .error error => .error (.opening path error)
  | .ok handle =>
    match files.readHandle handle with
    | .error error => .error (.reading path error)
    | .ok bytes => .ok (feedReads bytes reads 0 0 Checksum.empty).hex

/-- The checksum of a file whose reads give what they are asked for, if there is as much. -/
def ofFile (files : FileSystem) (path : Path) : Except ChecksumError String :=
  ofFileIn (fun _ _ => pieceSize) files path

end Checksum

end ChunkedUpload
