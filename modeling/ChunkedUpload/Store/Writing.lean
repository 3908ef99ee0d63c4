import ChunkedUpload.Store

/-! The single steps in which a part is written. Several parts may be written at the same time, step
by step in any order, and a step may fail. Whoever writes hears of a failure at the step that fails,
and goes no further. For a write this is an assumption: a handle that took bytes at once and wrote
them later would have to tell of it before the part gets its name. -/
namespace ChunkedUpload

/-- How far the writing of a part has come. -/
inductive WriteStage
  | begun
  | placed
  /-- The temporary file is open, and so many bytes are written. -/
  | writing (handle : Handle) (written : Nat)
  | flushed
  | done
  | failed (error : IoError)
deriving DecidableEq, Repr

structure PartWriting where
  fileId : Int64
  part : UInt32
  payload : ByteArray
  stage : WriteStage

inductive WriteMove
  /-- The next step, as far as the file system lets it. -/
  | proceed
  /-- Writes so many bytes more. -/
  | write (count : Nat)
  /-- The next step fails for a reason from outside, and is said to have failed. -/
  | fail (error : IoError)

namespace PartWriting

/-- The next stage after an action, and the file system that it leaves. -/
def after {α : Type} (writing : PartWriting) (files : FileSystem) (action : FileSystem.Action α)
    (next : α → WriteStage) : PartWriting × FileSystem :=
  match action files with
  | (.ok value, changed) => ({ writing with stage := next value }, changed)
  | (.error error, changed) => ({ writing with stage := .failed error }, changed)

def isOver (writing : PartWriting) : Bool :=
  match writing.stage with
  | .done | .failed _ => true
  | _ => false

def step? (store : Store) (files : FileSystem) (writing : PartWriting) (move : WriteMove) :
    Option (PartWriting × FileSystem) :=
  match move, writing.stage with
  | .fail error, _ =>
    if writing.isOver then none else some ({ writing with stage := .failed error }, files)
  | .proceed, .begun =>
    some (writing.after files (FileSystem.createDirectories (store.directory writing.fileId))
      fun _ => .placed)
  | .proceed, .placed =>
    some (writing.after files
      (FileSystem.create (store.temporaryPath writing.fileId writing.part))
      fun handle => .writing handle 0)
  | .write count, .writing handle written =>
    let piece := writing.payload.extract written (written + count)
    if piece.size = 0 then none
    else
      some (writing.after files (FileSystem.writeAt handle written piece)
        fun _ => .writing handle (written + piece.size))
  | .proceed, .writing handle written =>
    if written = writing.payload.size then
      some (writing.after files (FileSystem.flush handle) fun _ => .flushed)
    else none
  | .proceed, .flushed =>
    some (writing.after files
      (FileSystem.rename (store.temporaryPath writing.fileId writing.part)
        (store.partPath writing.fileId writing.part)) fun _ => .done)
  | _, _ => none

end PartWriting

end ChunkedUpload
