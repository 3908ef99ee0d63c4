import ChunkedUpload.Error.System

/-! What can go wrong. Every error is a cause; the wording of each stands in one function of its
type. -/
namespace ChunkedUpload

inductive IoError
  /-- The operating system reported this number. -/
  | system (number : Int32)
  /-- A file that was read as text is not UTF-8. -/
  | notUtf8
  /-- A path contains a NUL byte. -/
  | nulInPath
  /-- A stream failed for a reason of its own. -/
  | described (text : String)
deriving DecidableEq, Repr

namespace IoError

def message : IoError → String
  | system number => s!"{SystemError.text number} (os error {number.toInt})"
  | notUtf8 => "stream did not contain valid UTF-8"
  | nulInPath => "file name contained an unexpected NUL byte"
  | described text => text

end IoError

/-- Failure of a single remote call. It concerns that call alone: sibling workers and the producer
go on. -/
inductive TransportError
  /-- The other side answered with an error. -/
  | rpc (code : Int32) (text : String)
  /-- The connection failed or ended before an answer came. -/
  | connection (text : String)
  /-- Local input or output failed while the call was carried out. -/
  | io (error : IoError)
deriving DecidableEq, Repr

namespace TransportError

def message : TransportError → String
  | rpc code text => s!"rpc error {code.toInt}: {text}"
  | connection text => s!"connection: {text}"
  | io error => s!"io: {error.message}"

end TransportError

/-- Why the arguments of an upload cannot be used. -/
inductive InputFault
  | emptyPath
  | directory (path : String)
  | partOutOfRange (part total : UInt32)
  | nothingAtPart (part : UInt32)
  | described (text : String)
deriving DecidableEq, Repr

namespace InputFault

def message : InputFault → String
  | emptyPath => "expected a file path or a binary stream, got an empty path"
  | directory path => s!"{path} is a directory, not a file"
  | partOutOfRange part total =>
    s!"part {part.toNat} is out of range for a file of {total.toNat} parts"
  | nothingAtPart part => s!"no data at part {part.toNat} to resend"
  | described text => text

end InputFault

/-- Why a part could not be handed to the workers. -/
inductive DispatchFault
  | queueClosed
  | described (text : String)
deriving DecidableEq, Repr

namespace DispatchFault

def message : DispatchFault → String
  | queueClosed => "part queue closed"
  | described text => text

end DispatchFault

inductive UploadError
  | invalidInput (fault : InputFault)
  | emptyFile
  | sizeLimitExceeded (size limit : UInt64)
  | transport (error : TransportError)
  /-- The caller cancelled; the workers were drained first. -/
  | cancelled
  | partsFailed (count : Nat)
  | dispatch (fault : DispatchFault)
  | io (error : IoError)
deriving DecidableEq, Repr

namespace UploadError

/-- A limit is told in whole MiB, rounded down. -/
def message : UploadError → String
  | invalidInput fault => s!"invalid input: {fault.message}"
  | emptyFile => "file size equals to 0 B"
  | sizeLimitExceeded size limit =>
    let most := limit.toNat / (1024 * 1024)
    s!"can't upload files bigger than {most} MiB (file is {size.toNat} bytes)"
  | transport error => s!"transport: {error.message}"
  | cancelled => "upload cancelled"
  | partsFailed count => s!"{count} part(s) failed to upload"
  | dispatch fault => s!"dispatch: {fault.message}"
  | io error => s!"io: {error.message}"

/-- The error that lies directly under another one, as a text: the input or output failure that
ended an upload, or the call that failed. -/
def causes : UploadError → List String
  | transport (.io error) => [TransportError.message (.io error), error.message]
  | transport error => [error.message]
  | io error => [error.message]
  | _ => []

def chain (error : UploadError) : List String :=
  error.message :: error.causes

end UploadError

end ChunkedUpload
