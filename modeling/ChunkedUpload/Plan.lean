import ChunkedUpload.Error
import ChunkedUpload.Request

/-! The plan of one upload: which parts there are, in which form they travel, how many workers
carry them and what the caller gets in the end. -/
namespace ChunkedUpload

/-- Names one part of an earlier upload that is to be sent again. -/
structure ResumePart where
  fileId : Int64
  part : UInt32
deriving DecidableEq, Repr

inductive UploadMode
  /-- The whole file, by one worker, with a checksum. -/
  | small
  /-- The whole file, by several workers, without a checksum. -/
  | big
  /-- One part once more, in the form it had in the first upload. -/
  | resend (asBig : Bool)
deriving DecidableEq, Repr

namespace UploadMode

def select (fileSize : UInt64) (resume : Option ResumePart) : UploadMode :=
  match resume with
  | some _ => resend (isBigFile fileSize)
  | none => if isBigFile fileSize then big else small

def workerCount : UploadMode → Nat
  | big => bigFileWorkers
  | small | resend _ => smallFileWorkers

def computesChecksum : UploadMode → Bool
  | small => true
  | big | resend _ => false

def sendsBigParts : UploadMode → Bool
  | big => true
  | resend asBig => asBig
  | small => false

def isResend : UploadMode → Bool
  | resend _ => true
  | small | big => false

def name : UploadMode → String
  | small => "small"
  | big => "big"
  | resend _ => "resume"

end UploadMode

structure UploadPlan where
  fileId : Int64
  fileSize : UInt64
  totalParts : UInt32
  mode : UploadMode
  /-- The first part to send, and for a resend the only one. -/
  startPart : UInt32
deriving DecidableEq, Repr

namespace UploadPlan

/-- Plans an upload of `fileSize` bytes. The file keeps its identifier when one of its parts is sent
again, and that part has to exist; a new upload takes the fresh identifier. -/
def make (fileSize : UInt64) (resume : Option ResumePart) (freshId : Int64) :
    Except UploadError UploadPlan :=
  let total := ChunkedUpload.totalParts fileSize
  let mode := UploadMode.select fileSize resume
  match resume with
  | some r =>
    if total ≤ r.part then .error (.invalidInput (.partOutOfRange r.part total))
    else .ok ⟨r.fileId, fileSize, total, mode, r.part⟩
  | none => .ok ⟨freshId, fileSize, total, mode, 0⟩

def workerCount (plan : UploadPlan) : Nat := plan.mode.workerCount

def request (plan : UploadPlan) (part : UInt32) (payload : ByteArray) : PartRequest where
  fileId := plan.fileId
  part := part
  total := if plan.mode.sendsBigParts then some plan.totalParts else none
  payload := payload

/-- What a finished upload gives back. A resend gives nothing back. -/
def reference (plan : UploadPlan) (name : String) (checksum : Option String) :
    Option FileReference :=
  match plan.mode with
  | .big => some ⟨plan.fileId, plan.totalParts, name, none⟩
  | .small => some ⟨plan.fileId, plan.totalParts, name, some (checksum.getD "")⟩
  | .resend _ => none

end UploadPlan

end ChunkedUpload
