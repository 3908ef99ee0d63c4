import ChunkedUpload.Pool

/-! Partners that follow a script, for rehearsals: a session that delivers, refuses or crashes by
the number of the part, and a provider that hands out sessions. Either may hold its answers back
until they are released. -/
namespace ChunkedUpload

/-- A scripted session. A gated call waits for a release of its part; releases that nobody waits
for are kept. -/
structure SessionScript where
  gated : Bool
  failing : List UInt32
  crashing : List UInt32
  releases : List UInt32
deriving DecidableEq, Repr

namespace SessionScript

def refusal : TransportError := .rpc 400 "FILE_PART_INVALID"

def reply (script : SessionScript) (part : UInt32) : Reply :=
  if script.crashing.contains part then .crashed
  else if script.failing.contains part then .refused refusal
  else .delivered

/-- The answer to a call, unless it is held back. A release is used up by the call it lets pass. -/
def answer? (script : SessionScript) (part : UInt32) : Option (Reply × SessionScript) :=
  if !script.gated then some (script.reply part, script)
  else if script.releases.contains part then
    some (script.reply part, { script with releases := script.releases.erase part })
  else none

end SessionScript

/-- The creation of a session that has begun. -/
structure SessionCreation where
  caller : Nat
  endpoint : Int32
  failure : Option TransportError
deriving DecidableEq, Repr

/-- A scripted provider. Every creation takes the next outcome when it begins, and succeeds when
there is none left; a gated one waits for a release of its endpoint. -/
structure ProviderScript where
  home : Except TransportError Int32
  outcomes : List (Option TransportError)
  gated : Bool
  releases : List Int32
  /-- In the order in which they began. -/
  begun : List SessionCreation
  created : Nat

namespace ProviderScript

def begin (script : ProviderScript) (caller : Nat) (endpoint : Int32) : ProviderScript :=
  { script with
    begun := script.begun ++ [⟨caller, endpoint, script.outcomes.head?.join⟩]
    outcomes := script.outcomes.tail }

/-- Whether a creation may end now. -/
def mayEnd (script : ProviderScript) (creation : SessionCreation) : Bool :=
  !script.gated || script.releases.contains creation.endpoint

/-- Ends the first creation that may end. A new session gets the next number, from one on. -/
def finish? (script : ProviderScript) :
    Option (SessionCreation × Except TransportError Nat × ProviderScript) :=
  (script.begun.find? script.mayEnd).map fun creation =>
    let rest := { script with
      begun := script.begun.erase creation
      releases := if script.gated then script.releases.erase creation.endpoint
        else script.releases }
    match creation.failure with
    | some error => (creation, .error error, rest)
    | none => (creation, .ok (script.created + 1), { rest with created := script.created + 1 })

/-- A creation is given up with its caller. -/
def abort (script : ProviderScript) (caller : Nat) : ProviderScript :=
  { script with begun := script.begun.filter fun creation => creation.caller ≠ caller }

end ProviderScript

end ChunkedUpload
