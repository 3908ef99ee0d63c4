import ChunkedUpload.Session.Cache

/-! The calls for shared sessions, one move at a time and in any order. The cells of the endpoints
are in a map behind a lock. A call waits for the lock first, looks up its cell, and gives the lock
back before it does anything else. Only then does it come to its cell, where it finds a session or
gets into line for the permit to create one. -/
namespace ChunkedUpload

structure SessionCell where
  session : Option Nat
  /-- The call that has the permit, as long as its creation has no outcome. -/
  creator : Option Nat
  /-- In the order of arrival. -/
  line : List Nat
deriving DecidableEq, Repr

namespace SessionCell

def fresh : SessionCell := ⟨none, none, []⟩

/-- The cell without a call, which gives back the permit if it has it. -/
def without (cell : SessionCell) (caller : Nat) : SessionCell where
  session := cell.session
  creator := cell.creator.filter (· ≠ caller)
  line := cell.line.filter (· ≠ caller)

end SessionCell

/-- Calls are known by numbers, and come with the endpoint they are for. -/
structure SessionCalls where
  cells : List (Int32 × SessionCell)
  /-- The call that has the lock of the map. -/
  holder : Option (Int32 × Nat)
  /-- Those that wait for the lock, in the order of arrival. -/
  entering : List (Int32 × Nat)
  /-- Those that have given the lock back and are on the way to their cells. -/
  leaving : List (Int32 × Nat)
  /-- All that have ever come. -/
  arrived : List Nat

inductive SessionMove (ε : Type)
  | come (caller : Nat) (endpoint : Int32)
  /-- The first of those that wait for the lock gets it. -/
  | lock
  /-- The call with the lock looks up its cell, which is made if there is none. -/
  | lookUp
  | reach (endpoint : Int32) (caller : Nat)
  /-- The first in line at a cell gets the permit. -/
  | create (endpoint : Int32)
  /-- A call in line finds that there is a session now. -/
  | serve (endpoint : Int32) (caller : Nat)
  | complete (endpoint : Int32) (outcome : Except ε Nat)
  | abort (caller : Nat)

namespace SessionCalls

variable {ε : Type}

def fresh : SessionCalls := ⟨[], none, [], [], []⟩

def cell (calls : SessionCalls) (endpoint : Int32) : SessionCell :=
  (calls.cells.lookup endpoint).getD SessionCell.fresh

def setCell (calls : SessionCalls) (endpoint : Int32) (cell : SessionCell) : SessionCalls where
  cells := (endpoint, cell) :: calls.cells.filter fun entry => entry.1 ≠ endpoint
  holder := calls.holder
  entering := calls.entering
  leaving := calls.leaving
  arrived := calls.arrived

/-- The endpoints that have a session. -/
def size (calls : SessionCalls) : Nat := calls.cells.countP fun entry => entry.2.session.isSome

def without (calls : SessionCalls) (caller : Nat) : SessionCalls where
  cells := calls.cells.map fun entry => (entry.1, entry.2.without caller)
  holder := calls.holder.filter fun entry => entry.2 ≠ caller
  entering := calls.entering.filter fun entry => entry.2 ≠ caller
  leaving := calls.leaving.filter fun entry => entry.2 ≠ caller
  arrived := calls.arrived

def step? (calls : SessionCalls) :
    SessionMove ε → Option (SessionCalls × List (SessionCache.Notice ε))
  | .come caller endpoint =>
    if caller ∈ calls.arrived then none
    else
      some ({ calls with
        entering := calls.entering ++ [(endpoint, caller)]
        arrived := calls.arrived ++ [caller] }, [])
  | .lock =>
    match calls.holder, calls.entering with
    | none, first :: others => some ({ calls with holder := some first, entering := others }, [])
    | _, _ => none
  | .lookUp =>
    calls.holder.map fun (endpoint, caller) =>
      ({ calls.setCell endpoint (calls.cell endpoint) with
        holder := none
        leaving := calls.leaving ++ [(endpoint, caller)] }, [])
  | .reach endpoint caller =>
    if (endpoint, caller) ∈ calls.leaving then
      let gone := { calls with leaving := calls.leaving.erase (endpoint, caller) }
      let cell := calls.cell endpoint
      match cell.session with
      | some session => some (gone, [.answered caller (.ok session)])
      | none => some (gone.setCell endpoint { cell with line := cell.line ++ [caller] }, [])
    else none
  | .create endpoint =>
    match calls.cell endpoint with
    | ⟨none, none, caller :: others⟩ =>
      some (calls.setCell endpoint ⟨none, some caller, others⟩, [.begun caller endpoint])
    | _ => none
  | .serve endpoint caller =>
    let cell := calls.cell endpoint
    if caller ∈ cell.line then
      cell.session.map fun session =>
        (calls.setCell endpoint { cell with line := cell.line.erase caller },
          [.answered caller (.ok session)])
    else none
  | .complete endpoint outcome =>
    let cell := calls.cell endpoint
    cell.creator.map fun creator =>
      (calls.setCell endpoint { cell with
        session := outcome.toOption.or cell.session
        creator := none }, [.answered creator outcome])
  | .abort caller =>
    if caller ∈ calls.arrived then some (calls.without caller, []) else none

end SessionCalls

end ChunkedUpload
