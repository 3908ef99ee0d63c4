/-! One session for each endpoint. Whoever asks for an endpoint that has a session gets it; whoever
asks while it is being created waits; a creation that fails or is given up is taken over by the call
that has waited longest. -/
namespace ChunkedUpload

/-- Callers and sessions are known by numbers. -/
structure SessionCache where
  sessions : List (Int32 × Nat)
  /-- The endpoints with a creation under way, and the caller that carries it out. -/
  creating : List (Int32 × Nat)
  /-- In the order of arrival. -/
  waiting : List (Int32 × Nat)
deriving DecidableEq, Repr

namespace SessionCache

def empty : SessionCache := ⟨[], [], []⟩

inductive Notice (ε : Type)
  /-- The caller begins to create a session. -/
  | begun (caller : Nat) (endpoint : Int32)
  | answered (caller : Nat) (answer : Except ε Nat)

variable {ε : Type}

def size (cache : SessionCache) : Nat := cache.sessions.length

def session? (cache : SessionCache) (endpoint : Int32) : Option Nat :=
  cache.sessions.lookup endpoint

def creator? (cache : SessionCache) (endpoint : Int32) : Option Nat :=
  cache.creating.lookup endpoint

def request (cache : SessionCache) (caller : Nat) (endpoint : Int32) :
    SessionCache × List (Notice ε) :=
  match cache.session? endpoint with
  | some session => (cache, [.answered caller (.ok session)])
  | none =>
    match cache.creator? endpoint with
    | some _ => ({ cache with waiting := cache.waiting ++ [(endpoint, caller)] }, [])
    | none =>
      ({ cache with creating := cache.creating ++ [(endpoint, caller)] }, [.begun caller endpoint])

/-- The creation for an endpoint has ended without a session: the next caller takes over. -/
def passOn (cache : SessionCache) (endpoint : Int32) : SessionCache × List (Notice ε) :=
  let freed := { cache with creating := cache.creating.filter fun entry => entry.1 ≠ endpoint }
  match freed.waiting.find? fun entry => entry.1 == endpoint with
  | none => (freed, [])
  | some (_, next) =>
    ({ freed with
      creating := freed.creating ++ [(endpoint, next)]
      waiting := freed.waiting.erase (endpoint, next) }, [.begun next endpoint])

/-- The creation for an endpoint has an outcome. A failure reaches its own caller alone. -/
def complete (cache : SessionCache) (endpoint : Int32) (outcome : Except ε Nat) :
    SessionCache × List (Notice ε) :=
  match cache.creator? endpoint with
  | none => (cache, [])
  | some creator =>
    match outcome with
    | .error error =>
      let (passed, notices) := cache.passOn endpoint
      (passed, .answered creator (.error error) :: notices)
    | .ok session =>
      let served := cache.waiting.filter fun entry => entry.1 = endpoint
      ({ sessions := cache.sessions ++ [(endpoint, session)]
         creating := cache.creating.filter fun entry => entry.1 ≠ endpoint
         waiting := cache.waiting.filter fun entry => entry.1 ≠ endpoint },
        .answered creator (.ok session) :: served.map fun entry => .answered entry.2 (.ok session))

def abort (cache : SessionCache) (caller : Nat) : SessionCache × List (Notice ε) :=
  match cache.creating.find? fun entry => entry.2 == caller with
  | some (endpoint, _) => cache.passOn endpoint
  | none => ({ cache with waiting := cache.waiting.filter fun entry => entry.2 ≠ caller }, [])

end SessionCache

end ChunkedUpload
