import ChunkedUpload.Proofs.Session.Desk

/-! The runs of a session cache: calls, the outcomes of creations and aborts in any order, each with
what follows from it at once. Each of these is one step, since the map of the endpoints is held for
a look-up only, never while a session is created: that calls with a map and cells of their own come
to the same is shown in `SessionCalls.cache_of_calls` and `SessionCalls.calls_of_cache`. -/
namespace ChunkedUpload

namespace CacheAct

variable {ε : Type}

/-- The caller that asks for this endpoint. -/
def asks? (endpoint : Int32) : CacheAct ε → Option Nat
  | .request caller other => if other = endpoint then some caller else none
  | _ => none

def aborts (caller : Nat) : CacheAct ε → Bool
  | .abort other => caller = other
  | _ => false

/-- The session that has been created, with its endpoint. -/
def success? : CacheAct ε → Option (Int32 × Nat)
  | .complete endpoint (.ok session) => some (endpoint, session)
  | _ => none

end CacheAct

namespace SessionCache

variable {ε : Type}

def Notice.answers (caller : Nat) : Notice ε → Bool
  | .answered other _ => caller = other
  | .begun _ _ => false

/-- The caller that begins to create a session for this endpoint. -/
def Notice.begins? (endpoint : Int32) : Notice ε → Option Nat
  | .begun caller other => if other = endpoint then some caller else none
  | .answered _ _ => none

section Notices

variable (caller other : Nat) (endpoint place : Int32) (answer : Except ε Nat)

@[simp] theorem answers_answered :
    (.answered other answer : Notice ε).answers caller = decide (caller = other) := rfl

@[simp] theorem answers_begun : (.begun other place : Notice ε).answers caller = false := rfl

@[simp] theorem begins?_answered :
    (.answered other answer : Notice ε).begins? endpoint = none := rfl

@[simp] theorem begins?_begun : (.begun other place : Notice ε).begins? endpoint =
    if place = endpoint then some other else none := rfl

end Notices

/-- The acts of a run, each with what followed from it at once. -/
abbrev Log (ε : Type) := List (CacheAct ε × List (Notice ε))

section Log

/-- Who has asked for an endpoint, in the order of arrival. -/
def askers (endpoint : Int32) (log : Log ε) : List Nat :=
  log.filterMap fun entry => entry.1.asks? endpoint

def finishes (entry : CacheAct ε × List (Notice ε)) (caller : Nat) : Bool :=
  entry.1.aborts caller || entry.2.any fun notice => notice.answers caller

/-- Whether a caller has an answer or was aborted. -/
def isDone (log : Log ε) (caller : Nat) : Bool := log.any fun entry => finishes entry caller

/-- The calls for an endpoint that remain, in the order of arrival. -/
def remaining (endpoint : Int32) (log : Log ε) : List Nat :=
  (askers endpoint log).filter fun caller => !isDone log caller

/-- The calls of the inner provider for an endpoint, by the callers that made them. -/
def reached (endpoint : Int32) (log : Log ε) : List Nat :=
  log.flatMap fun entry => entry.2.filterMap fun notice => notice.begins? endpoint

/-- The creations for an endpoint that have begun and not ended. -/
def inFlight (endpoint : Int32) (log : Log ε) : List Nat :=
  (reached endpoint log).filter fun caller => !isDone log caller

/-- The creations that have succeeded. -/
def successes (log : Log ε) : List (Int32 × Nat) := log.filterMap fun entry => entry.1.success?

end Log

end SessionCache

namespace CacheAct

open SessionCache

variable {ε : Type}

/-- Whether an act can come next: calls are known by new numbers, only what is in flight has an
outcome, and only a call can be aborted. -/
def Fits (log : Log ε) : CacheAct ε → Prop
  | .request caller _ => ∀ endpoint, caller ∉ askers endpoint log
  | .complete endpoint _ => inFlight endpoint log ≠ []
  | .abort caller => ∃ endpoint, caller ∈ askers endpoint log

def Concerns (endpoint : Int32) (log : Log ε) : CacheAct ε → Prop
  | .request _ other => other = endpoint
  | .complete other _ => other = endpoint
  | .abort caller => caller ∈ askers endpoint log

instance (endpoint : Int32) (log : Log ε) (act : CacheAct ε) :
    Decidable (act.Concerns endpoint log) :=
  match act with
  | .request _ other => inferInstanceAs (Decidable (other = endpoint))
  | .complete other _ => inferInstanceAs (Decidable (other = endpoint))
  | .abort caller => inferInstanceAs (Decidable (caller ∈ askers endpoint log))

end CacheAct

namespace SessionCache

variable {ε : Type}

/-- What concerns an endpoint, without all that happened at others. -/
def logAt (endpoint : Int32) (log : Log ε) : Log ε :=
  log.filter fun entry => entry.1.Concerns endpoint log

inductive Run : Log ε → SessionCache → Prop
  | start : Run [] empty
  | step {log : Log ε} {cache : SessionCache} {act : CacheAct ε} (ran : Run log cache)
      (fits : act.Fits log) : Run (log ++ [(act, (cache.act act).2)]) (cache.act act).1

end SessionCache

namespace Desk

open SessionCache

variable {ε : Type} {desk : Desk} {endpoint : Int32} {act : CacheAct ε}

/-- A desk in order, at which this can happen next. -/
structure Awaits (desk : Desk) (endpoint : Int32) (act : CacheAct ε) : Prop where
  once : desk.line.Nodup
  served : desk.session.isSome = true → desk.line = []
  new : ∀ caller, act.asks? endpoint = some caller → caller ∉ desk.line
  flying : ∀ other outcome, act = .complete other outcome → desk.line ≠ []
  here : ∀ caller other, act = .request caller other → other = endpoint

@[simp] theorem begins_begin (endpoint other : Int32) (line : List Nat) :
    (begin endpoint line : List (Notice ε)).filterMap (fun notice => notice.begins? other) =
      if endpoint = other then line.take 1 else [] := by
  cases line <;> by_cases same : endpoint = other <;> simp [begin, Notice.begins?, same]

@[simp] theorem not_answers_begin (endpoint : Int32) (line : List Nat) (caller : Nat) :
    ((begin endpoint line : List (Notice ε)).any fun notice => notice.answers caller) = false := by
  cases line <;> simp [begin, Notice.answers]

@[simp] theorem answered_notMem_begin (endpoint : Int32) (line : List Nat) (caller : Nat)
    (answer : Except ε Nat) : .answered caller answer ∉ begin endpoint line := by
  cases line <;> simp [begin]

theorem filter_ne_of_notMem {line : List Nat} {caller : Nat} (away : caller ∉ line) :
    line.filter (fun other => !decide (other = caller)) = line := by
  refine List.filter_eq_self.mpr fun other there => ?_
  simpa using ne_of_mem_of_not_mem there away

/-- Whoever is not done stays in line, and only the first begins. -/
theorem Awaits.line (awaits : desk.Awaits endpoint act) :
    let due := desk.act endpoint act
    due.1.line = (desk.line ++ (act.asks? endpoint).toList).filter
      (fun caller => !finishes (act, due.2) caller) ∧
    due.1.line.take 1 = (desk.line.take 1 ++
      due.2.filterMap fun notice => notice.begins? endpoint).filter
        (fun caller => !finishes (act, due.2) caller) := by
  obtain ⟨session, line⟩ := desk
  intro due
  cases act with
  | request caller other =>
    obtain rfl := awaits.here caller other rfl
    have new : caller ∉ line := awaits.new caller (by simp [CacheAct.asks?])
    cases session with
    | some session =>
      obtain rfl : line = [] := awaits.served rfl
      simp [due, Desk.act, finishes, CacheAct.aborts, CacheAct.asks?]
    | none =>
      cases line with
      | nil => simp [due, Desk.act, finishes, CacheAct.aborts, CacheAct.asks?]
      | cons creator rest => simp [due, Desk.act, finishes, CacheAct.aborts, CacheAct.asks?]
  | complete other outcome =>
    cases outcome with
    | ok session =>
      have first : ∀ caller ∈ line.take 1, caller ∈ line := fun _ => List.mem_of_mem_take
      simpa [due, Desk.act, finishes, CacheAct.aborts, CacheAct.asks?] using first
    | error error =>
      cases line with
      | nil => exact absurd rfl (awaits.flying other _ rfl)
      | cons creator rest =>
        have away := (List.nodup_cons.mp awaits.once).1
        have first : creator ∉ rest.take 1 := fun member => away (List.mem_of_mem_take member)
        simp [due, Desk.act, finishes, CacheAct.aborts, CacheAct.asks?, List.filterMap_cons,
          filter_ne_of_notMem away, filter_ne_of_notMem first]
  | abort caller =>
    cases line with
    | nil => simp [due, Desk.act, finishes, CacheAct.aborts, CacheAct.asks?]
    | cons creator rest =>
      by_cases same : creator = caller
      · subst same
        have away := (List.nodup_cons.mp awaits.once).1
        have first : creator ∉ rest.take 1 := fun member => away (List.mem_of_mem_take member)
        simp [due, Desk.act, finishes, CacheAct.aborts, CacheAct.asks?,
          filter_ne_of_notMem away, filter_ne_of_notMem first]
      · simp [due, Desk.act, finishes, CacheAct.aborts, CacheAct.asks?, same]

theorem Awaits.served_act (awaits : desk.Awaits endpoint act) :
    (desk.act endpoint act).1.session.isSome = true → (desk.act endpoint act).1.line = [] := by
  obtain ⟨session, line⟩ := desk
  cases act with
  | request caller other =>
    cases session with
    | some session => exact awaits.served
    | none => simp [Desk.act]
  | complete other outcome =>
    cases outcome with
    | ok session => simp [Desk.act]
    | error error =>
      intro there
      obtain rfl : line = [] := awaits.served there
      rfl
  | abort caller =>
    intro there
    obtain rfl : line = [] := awaits.served there
    rfl

theorem finishes_act {caller : Nat}
    (finished : finishes (act, (desk.act endpoint act).2) caller = true) :
    caller ∈ desk.line ∨ (∃ other, act = .request caller other) ∨ act = .abort caller := by
  obtain ⟨session, line⟩ := desk
  cases act with
  | request other place =>
    cases session <;> cases line <;>
      simp_all [Desk.act, finishes, CacheAct.aborts]
  | complete place outcome =>
    cases outcome with
    | ok session => simpa [Desk.act, finishes, CacheAct.aborts] using finished
    | error error =>
      cases line <;> simp_all [Desk.act, finishes, CacheAct.aborts]
  | abort other =>
    right; right
    by_cases first : line.head? = some other <;>
      simp_all [Desk.act, finishes, CacheAct.aborts]

theorem begins_act {other : Int32} {caller : Nat} (here : ∀ caller place,
    act = .request caller place → place = endpoint)
    (begun : caller ∈ (desk.act endpoint act).2.filterMap fun notice => notice.begins? other) :
    other = endpoint ∧ (caller ∈ desk.line ∨ act.asks? endpoint = some caller) := by
  obtain ⟨session, line⟩ := desk
  have of_begin : ∀ waiting : List Nat,
      caller ∈ (begin endpoint waiting : List (Notice ε)).filterMap
        (fun notice => notice.begins? other) → other = endpoint ∧ caller ∈ waiting := by
    intro waiting member
    rw [begins_begin] at member
    split at member
    · rename_i same
      exact ⟨same.symm, List.mem_of_mem_take member⟩
    · contradiction
  cases act with
  | request new place =>
    obtain rfl := here new place rfl
    cases session with
    | some session => simp [Desk.act, List.filterMap_cons] at begun
    | none =>
      cases line with
      | nil =>
        obtain ⟨same, member⟩ := of_begin [new] begun
        exact ⟨same, .inr (by simp_all [CacheAct.asks?])⟩
      | cons => simp [Desk.act] at begun
  | complete place outcome =>
    cases outcome with
    | ok session => simp [Desk.act] at begun
    | error error =>
      cases line with
      | nil => simp [Desk.act, begin] at begun
      | cons creator rest =>
        obtain ⟨same, member⟩ := of_begin rest
          (by simpa [Desk.act, List.filterMap_cons] using begun)
        exact ⟨same, .inl (List.mem_cons_of_mem _ member)⟩
  | abort leaving =>
    by_cases first : line.head? = some leaving
    · obtain ⟨same, member⟩ := of_begin line.tail (by simpa [Desk.act, first] using begun)
      exact ⟨same, .inl (List.mem_of_mem_tail member)⟩
    · simp [Desk.act, first] at begun

theorem session_of_answer {caller session : Nat}
    (answered : .answered caller (.ok session) ∈ (desk.act endpoint act).2) :
    (desk.act endpoint act).1.session = some session ∧
      (caller ∈ desk.line ∨ ∃ place, act = .request caller place) := by
  obtain ⟨known, line⟩ := desk
  cases act with
  | request other place =>
    cases known with
    | some known =>
      obtain ⟨rfl, rfl⟩ : caller = other ∧ session = known := by simpa [Desk.act] using answered
      exact ⟨rfl, .inr ⟨place, rfl⟩⟩
    | none => cases line <;> simp [Desk.act] at answered
  | complete place outcome =>
    cases outcome with
    | ok made =>
      obtain ⟨member, rfl⟩ : caller ∈ line ∧ made = session := by
        simpa [Desk.act] using answered
      exact ⟨rfl, .inl member⟩
    | error error => cases line <;> simp [Desk.act] at answered
  | abort leaving =>
    by_cases first : line.head? = some leaving <;> simp [Desk.act, first] at answered

theorem failure_of_answer {caller : Nat} {error : ε}
    (answered : .answered caller (.error error) ∈ (desk.act endpoint act).2) :
    (∃ place, act = .complete place (.error error)) ∧ desk.line.take 1 = [caller] := by
  obtain ⟨known, line⟩ := desk
  cases act with
  | request other place =>
    cases known <;> cases line <;> simp [Desk.act] at answered
  | complete place outcome =>
    cases outcome with
    | ok made => simp [Desk.act] at answered
    | error failure =>
      cases line with
      | nil => simp [Desk.act] at answered
      | cons creator rest =>
        obtain ⟨rfl, rfl⟩ : caller = creator ∧ error = failure := by
          simpa [Desk.act] using answered
        exact ⟨⟨place, rfl⟩, rfl⟩
  | abort leaving =>
    by_cases first : line.head? = some leaving <;> simp [Desk.act, first] at answered

theorem Awaits.begins_served (awaits : desk.Awaits endpoint act)
    (there : desk.session.isSome = true) (other : Int32) :
    (desk.act endpoint act).2.filterMap (fun notice => notice.begins? other) = [] := by
  obtain ⟨known, line⟩ := desk
  obtain rfl : line = [] := awaits.served there
  obtain ⟨session, rfl⟩ := Option.isSome_iff_exists.mp there
  cases act with
  | request caller place => simp [Desk.act, List.filterMap_cons]
  | complete place outcome => exact absurd rfl (awaits.flying place outcome rfl)
  | abort caller => simp [Desk.act]

/-- Whoever creates a session and fails or is aborted is followed by the next in line. -/
theorem Awaits.taken_over (awaits : desk.Awaits endpoint act) {creator : Nat}
    (first : desk.line.take 1 = [creator])
    (ended : (∃ place error, act = .complete place (.error error)) ∨ act = .abort creator) :
    (desk.act endpoint act).1.line = desk.line.drop 1 ∧
    (desk.act endpoint act).2.filterMap (fun notice => notice.begins? endpoint) =
      (desk.line.drop 1).take 1 := by
  obtain ⟨known, line⟩ := desk
  cases line with
  | nil => contradiction
  | cons head rest =>
    obtain rfl : head = creator := by simpa using first
    rcases ended with ⟨place, error, rfl⟩ | rfl
    · simp [Desk.act, List.filterMap_cons]
    · have away := (List.nodup_cons.mp awaits.once).1
      simp [Desk.act, filter_ne_of_notMem away]

end Desk

end ChunkedUpload
