import ChunkedUpload.Session.Cache
import ChunkedUpload.Session.Script

/-! A provider of sessions, with or without a cache in front of it. Callers are known by numbers;
their answers are kept until they fetch them. -/
namespace ChunkedUpload

structure Provider where
  script : ProviderScript
  cache : Option SessionCache
  answers : List (Nat × Except TransportError Nat)
  /-- The endpoints for which a creation was begun, since this was last looked at. -/
  asked : List Int32
  /-- How often the home endpoint was asked for, since this was last looked at. -/
  homeCalls : Nat

namespace Provider

def make (script : ProviderScript) (cached : Bool) : Provider :=
  ⟨script, if cached then some SessionCache.empty else none, [], [], 0⟩

/-- Notes an answer, or begins a creation. -/
def heed (provider : Provider) : SessionCache.Notice TransportError → Provider
  | .answered caller answer => { provider with answers := provider.answers ++ [(caller, answer)] }
  | .begun caller endpoint =>
    { provider with
      script := provider.script.begin caller endpoint
      asked := provider.asked ++ [endpoint] }

def follow (provider : Provider)
    (step : SessionCache × List (SessionCache.Notice TransportError)) : Provider :=
  step.2.foldl heed { provider with cache := some step.1 }

def askHome (provider : Provider) : Except TransportError Int32 × Provider :=
  (provider.script.home, { provider with homeCalls := provider.homeCalls + 1 })

def request (provider : Provider) (caller : Nat) (endpoint : Int32) : Provider :=
  match provider.cache with
  | some cache => provider.follow (cache.request caller endpoint)
  | none => provider.heed (.begun caller endpoint)

/-- Ends one creation, if one may end. -/
def advance? (provider : Provider) : Option Provider :=
  provider.script.finish?.map fun (creation, outcome, script) =>
    let ended := { provider with script := script }
    match provider.cache with
    | some cache => ended.follow (cache.complete creation.endpoint outcome)
    | none => ended.heed (.answered creation.caller outcome)

/-- Ends creations until none may end, or so many. -/
def settleWithin : Nat → Provider → Provider
  | 0, provider => provider
  | fuel + 1, provider =>
    match provider.advance? with
    | none => provider
    | some next => settleWithin fuel next

/-- Every creation that ends lets at most one waiting caller begin another. -/
def settle (provider : Provider) : Provider :=
  let waiting := (provider.cache.map fun cache => cache.waiting.length).getD 0
  provider.settleWithin (provider.script.begun.length + waiting)

def abort (provider : Provider) (caller : Nat) : Provider :=
  let left := { provider with script := provider.script.abort caller }
  match provider.cache with
  | some cache => left.follow (cache.abort caller)
  | none => left

def answer? (provider : Provider) (caller : Nat) : Option (Except TransportError Nat) :=
  provider.answers.lookup caller

end Provider

end ChunkedUpload
