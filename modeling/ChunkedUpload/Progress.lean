/-! Progress reports. Progress counts the parts that were handed to workers, not the parts that the
other side has confirmed. -/
namespace ChunkedUpload

structure Progress where
  bytes : UInt64
  total : UInt64
deriving DecidableEq, Repr

namespace Progress

/-- After so many parts of `partSize` bytes, and never more than the total. -/
def afterParts (parts : UInt32) (partSize total : UInt64) : Progress :=
  ⟨min (parts.toUInt64 * partSize) total, total⟩

/-- The finished fraction, between zero and one. Nothing to do counts as finished. -/
def fraction (progress : Progress) : Float :=
  if progress.total = 0 then 1.0
  else
    let ratio := progress.bytes.toFloat / progress.total.toFloat
    if ratio < 1.0 then ratio else 1.0

end Progress

inductive CallbackStyle
  /-- On the task of the upload: a crash of the callback ends the upload. -/
  | async
  /-- On a thread of its own: a crash of the callback is contained. -/
  | blocking
deriving DecidableEq, Repr

def CallbackStyle.name : CallbackStyle → String
  | async => "ProgressCallback::Async"
  | blocking => "ProgressCallback::Blocking"

/-- What one invocation of a callback does besides taking note of its arguments. -/
inductive CallbackEffect
  | returns
  | crashes
  | cancels
deriving DecidableEq, Repr

/-- A progress callback: `effect k` is what its invocation number `k` does, counted from zero. The
threads on which a blocking callback may run make no difference to it. That they run it at all is
taken for granted: they are those of a runtime that has not been shut down. -/
structure Callback where
  style : CallbackStyle
  effect : Nat → CallbackEffect

/-- The optional callback of one upload together with the total it reports. -/
structure Notifier where
  callback : Option Callback
  total : UInt64

namespace Notifier

def isNoop (notifier : Notifier) : Bool := notifier.callback.isNone

/-- What a report comes to: the arguments the callback saw, if there is one, and its effect on
the upload. -/
structure Report where
  seen : Option (UInt64 × UInt64)
  effect : CallbackEffect
deriving DecidableEq

/-- Report number `k`. A callback that runs on its own thread cannot crash the upload. -/
def notify (notifier : Notifier) (k : Nat) (current : UInt64) : Report :=
  match notifier.callback with
  | none => ⟨none, .returns⟩
  | some callback =>
    let seen := some (current, notifier.total)
    match callback.style, callback.effect k with
    | .blocking, .crashes => ⟨seen, .returns⟩
    | _, effect => ⟨seen, effect⟩

end Notifier

end ChunkedUpload
