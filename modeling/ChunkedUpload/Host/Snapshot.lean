import ChunkedUpload.Host
import ChunkedUpload.Host.Pool

/-! What can be seen of the things that happened at a host. -/
namespace ChunkedUpload

/-- The requests that were begun, refused and delivered, and how many are under way. -/
structure Snapshot where
  started : List UInt32
  failed : List UInt32
  delivered : List PartRequest
  inFlight : Nat

namespace Snapshot

def sortParts (parts : List UInt32) : List UInt32 := parts.mergeSort fun a b => decide (a ≤ b)

/-- A refused call counts as failed; a crashed one leaves no trace. -/
def ofReplies (started : List PartRequest) (ended : List (PartRequest × Reply)) (inFlight : Nat) :
    Snapshot where
  started := sortParts (started.map fun request => request.part)
  failed := sortParts (ended.filterMap fun entry =>
    match entry.2 with
    | .refused _ => some entry.1.part
    | _ => none)
  delivered := ended.filterMap fun entry =>
    match entry.2 with
    | .delivered => some entry.1
    | _ => none
  inFlight := inFlight

end Snapshot

namespace PoolHost

def snapshot (host : PoolHost) : Snapshot :=
  Snapshot.ofReplies
    (host.events.filterMap fun event => match event with
      | .started request => some request
      | _ => none)
    (host.events.filterMap fun event => match event with
      | .ended request reply => some (request, reply)
      | _ => none)
    host.inFlight.length

/-- The calls that ended, in the order of their numbers. -/
def replies (host : PoolHost) : List (Nat × PoolReply) :=
  (host.events.filterMap fun event => match event with
    | .replied id reply => some (id, reply)
    | _ => none).mergeSort fun a b => decide (a.1 ≤ b.1)

def waiting (host : PoolHost) : List Nat := host.calls.waiting.map Prod.fst

def clearEvents (host : PoolHost) : PoolHost := { host with events := [] }

end PoolHost

namespace Host

def snapshot (host : Host) : Snapshot :=
  Snapshot.ofReplies
    (host.events.filterMap fun event => match event.2 with
      | .started request => some request
      | _ => none)
    (host.events.filterMap fun event => match event.2 with
      | .ended request reply => some (request, reply)
      | _ => none)
    host.inFlight.length

/-- The reports that were made, grouped by call. -/
def reports (host : Host) : List (Nat × UInt64 × UInt64) :=
  (host.events.filterMap fun event => match event.2 with
    | .reported current total => some (event.1, current, total)
    | _ => none).mergeSort fun a b => decide (a.1 ≤ b.1)

inductive Outcome
  | saved (upload : Upload) (result : Result)
  | waited (summary : PoolSummary)

/-- The calls that have ended and those that have not. -/
def outcome? (host : Host) (id : Nat) : Option Outcome :=
  match host.all.call? id with
  | some call => call.upload.result.map (.saved call.upload)
  | none => ((host.all.wait? id).bind ResendWait.result).map .waited

/-- How many parts were delivered under an identifier. -/
def deliveredUnder (host : Host) (fileId : Int64) : Nat := host.delivered.count fileId

end Host

end ChunkedUpload
