import ChunkedUpload.Session.Cache
import Mathlib.Data.List.Nodup

/-! What the session cache has for one endpoint: a session, or the line of those who wait for one,
the first of whom is creating it. Whatever is done for an endpoint changes its own desk only, and
what is answered there depends on nothing else. -/
namespace ChunkedUpload

/-- What can happen to a cache of sessions. -/
inductive CacheAct (ε : Type)
  | request (caller : Nat) (endpoint : Int32)
  /-- The creation for an endpoint has an outcome. -/
  | complete (endpoint : Int32) (outcome : Except ε Nat)
  | abort (caller : Nat)

structure Desk where
  session : Option Nat
  /-- In the order of arrival. -/
  line : List Nat

namespace Desk

variable {ε : Type}

/-- The first in line begins to create a session. -/
def begin (endpoint : Int32) (line : List Nat) : List (SessionCache.Notice ε) :=
  (line.take 1).map fun caller => .begun caller endpoint

def act (desk : Desk) (endpoint : Int32) : CacheAct ε → Desk × List (SessionCache.Notice ε)
  | .request caller _ =>
    match desk.session with
    | some session => (desk, [.answered caller (.ok session)])
    | none =>
      ({ desk with line := desk.line ++ [caller] },
        if desk.line = [] then begin endpoint [caller] else [])
  | .complete _ (.ok session) =>
    (⟨some session, []⟩, desk.line.map fun caller => .answered caller (.ok session))
  | .complete _ (.error error) =>
    ({ desk with line := desk.line.tail },
      (desk.line.take 1).map (fun caller => .answered caller (.error error)) ++
        begin endpoint desk.line.tail)
  | .abort caller =>
    ({ desk with line := desk.line.filter fun other => other ≠ caller },
      if desk.line.head? = some caller then begin endpoint desk.line.tail else [])

end Desk

namespace SessionCache

def act {ε : Type} (cache : SessionCache) : CacheAct ε → SessionCache × List (Notice ε)
  | .request caller endpoint => cache.request caller endpoint
  | .complete endpoint outcome => cache.complete endpoint outcome
  | .abort caller => cache.abort caller

variable {ε : Type} {cache : SessionCache} {endpoint other : Int32} {caller creator session : Nat}
  {entries : List (Int32 × Nat)} {line rest : List Nat}

section Callers

/-- The callers among these who ask for this endpoint. -/
def callersAt (endpoint : Int32) (entries : List (Int32 × Nat)) : List Nat :=
  entries.filterMap fun entry => if entry.1 = endpoint then some entry.2 else none

theorem callersAt_append (endpoint : Int32) (first second : List (Int32 × Nat)) :
    callersAt endpoint (first ++ second) = callersAt endpoint first ++ callersAt endpoint second :=
  List.filterMap_append

theorem callersAt_single (endpoint other : Int32) (caller : Nat) :
    callersAt endpoint [(other, caller)] = if other = endpoint then [caller] else [] := by
  by_cases here : other = endpoint <;> simp [callersAt, here]

theorem callersAt_cons (endpoint : Int32) (entry : Int32 × Nat) (entries : List (Int32 × Nat)) :
    callersAt endpoint (entry :: entries) =
      if entry.1 = endpoint then entry.2 :: callersAt endpoint entries
      else callersAt endpoint entries := by
  by_cases here : entry.1 = endpoint <;> simp [callersAt, here]

theorem mem_callersAt : caller ∈ callersAt endpoint entries ↔ (endpoint, caller) ∈ entries := by
  constructor
  · intro member
    obtain ⟨entry, there, found⟩ := List.mem_filterMap.mp member
    split at found
    · rename_i here
      cases found
      exact here ▸ there
    · contradiction
  · intro member
    exact List.mem_filterMap.mpr ⟨_, member, if_pos rfl⟩

theorem callersAt_without (endpoint other : Int32) (entries : List (Int32 × Nat)) :
    callersAt other (entries.filter fun entry => entry.1 ≠ endpoint) =
      if other = endpoint then [] else callersAt other entries := by
  induction entries with
  | nil => simp [callersAt]
  | cons entry rest ih =>
    by_cases away : entry.1 = endpoint
    · rw [List.filter_cons_of_neg (by simpa using away), ih, callersAt_cons]
      by_cases same : other = endpoint
      · simp [same]
      · have apart : entry.1 ≠ other := fun eq => same (eq.symm.trans away)
        simp [same, apart]
    · rw [List.filter_cons_of_pos (by simpa using away), callersAt_cons, callersAt_cons, ih]
      by_cases same : other = endpoint
      · subst same
        simp [away]
      · simp [same]

theorem callersAt_leave (endpoint : Int32) (caller : Nat) (entries : List (Int32 × Nat)) :
    callersAt endpoint (entries.filter fun entry => entry.2 ≠ caller) =
      (callersAt endpoint entries).filter fun other => other ≠ caller := by
  induction entries with
  | nil => simp [callersAt]
  | cons entry rest ih =>
    by_cases here : entry.1 = endpoint <;> by_cases gone : entry.2 = caller <;>
      simp_all [callersAt_cons]

theorem lookup_eq_head? (endpoint : Int32) (entries : List (Int32 × Nat)) :
    entries.lookup endpoint = (callersAt endpoint entries).head? := by
  induction entries with
  | nil => rfl
  | cons entry rest ih =>
    rw [callersAt_cons, List.lookup_cons, ih]
    by_cases here : entry.1 = endpoint
    · simp [here]
    · simp [here, beq_false_of_ne (Ne.symm here)]

theorem find_eq_head? (endpoint : Int32) (entries : List (Int32 × Nat)) :
    (entries.find? fun entry => entry.1 == endpoint) =
      (callersAt endpoint entries).head?.map fun caller => (endpoint, caller) := by
  induction entries with
  | nil => rfl
  | cons entry rest ih =>
    rw [callersAt_cons, List.find?_cons, ih]
    by_cases here : entry.1 = endpoint
    · simp [← here]
    · simp [here, beq_false_of_ne here]

theorem callersAt_erase (first : (callersAt endpoint entries).head? = some caller)
    (other : Int32) : callersAt other (entries.erase (endpoint, caller)) =
      if other = endpoint then (callersAt endpoint entries).tail else callersAt other entries := by
  induction entries with
  | nil => cases first
  | cons entry rest ih =>
    rw [callersAt_cons] at first
    by_cases here : entry.1 = endpoint
    · rw [if_pos here] at first
      obtain rfl : entry = (endpoint, caller) := Prod.ext here (Option.some.inj first)
      rw [List.erase_cons_head, callersAt_cons, callersAt_cons]
      by_cases same : other = endpoint
      · simp [same]
      · simp [same, Ne.symm same]
    · rw [if_neg here] at first
      have apart : entry ≠ (endpoint, caller) := fun eq => here (by rw [eq])
      rw [List.erase_cons_tail (by simpa using apart), callersAt_cons, callersAt_cons, ih first]
      by_cases same : other = endpoint
      · subst same
        simp [here]
      · simp [same, callersAt_cons]

end Callers

section Desks

/-- What the cache has for this endpoint. -/
def desk (cache : SessionCache) (endpoint : Int32) : Desk where
  session := cache.session? endpoint
  line := callersAt endpoint cache.creating ++ callersAt endpoint cache.waiting

/-- The first in every line, and nobody else, is creating a session. -/
def Led (cache : SessionCache) : Prop :=
  ∀ endpoint, callersAt endpoint cache.creating = ((cache.desk endpoint).line).take 1

theorem Led.creator? (led : cache.Led) (endpoint : Int32) :
    cache.creator? endpoint = ((cache.desk endpoint).line).head? := by
  rw [SessionCache.creator?, lookup_eq_head?, led endpoint]
  cases (cache.desk endpoint).line <;> rfl

theorem Led.cut (led : cache.Led) (first : (cache.desk endpoint).line = creator :: rest) :
    callersAt endpoint cache.creating = [creator] ∧ callersAt endpoint cache.waiting = rest := by
  have head : callersAt endpoint cache.creating = [creator] := by
    rw [led endpoint, first]
    rfl
  have whole := first
  rw [desk, head] at whole
  exact ⟨head, (List.cons.inj whole).2⟩

/-- One desk has been changed, and all others are as they were. -/
structure Changed (cache : SessionCache) (endpoint : Int32) (desk : Desk) (next : SessionCache) :
    Prop where
  desks : ∀ other, next.desk other = if other = endpoint then desk else cache.desk other
  led : next.Led

/-- It is enough to look at who is creating and who is waiting. -/
theorem Led.changed (led : cache.Led) {next : SessionCache} {desk : Desk} (front back : List Nat)
    (session : ∀ other, next.session? other =
      if other = endpoint then desk.session else cache.session? other)
    (creating : ∀ other, callersAt other next.creating =
      if other = endpoint then front else callersAt other cache.creating)
    (waiting : ∀ other, callersAt other next.waiting =
      if other = endpoint then back else callersAt other cache.waiting)
    (line : desk.line = front ++ back) (first : front = desk.line.take 1) :
    cache.Changed endpoint desk next := by
  have desks : ∀ other, next.desk other = if other = endpoint then desk else cache.desk other := by
    intro other
    rw [SessionCache.desk, session, creating, waiting]
    by_cases here : other = endpoint
    · simp [here, ← line]
    · simp [here, SessionCache.desk]
  refine ⟨desks, fun other => ?_⟩
  rw [desks, creating]
  by_cases here : other = endpoint
  · simpa [here] using first
  · simpa [here] using led other

theorem Led.request (led : cache.Led) (caller : Nat) (endpoint : Int32) :
    let done : SessionCache × List (Notice ε) := cache.request caller endpoint
    let due := (cache.desk endpoint).act endpoint (.request caller endpoint)
    done.2 = due.2 ∧ cache.Changed endpoint due.1 done.1 := by
  have unchanged : ∀ other, cache.desk other =
      if other = endpoint then cache.desk endpoint else cache.desk other := by
    intro other
    by_cases here : other = endpoint <;> simp [here]
  intro done due
  cases there : cache.session? endpoint with
  | some session =>
    have same : (cache.desk endpoint).session = some session := there
    simp only [done, due, SessionCache.request, Desk.act, there, same]
    exact ⟨trivial, unchanged, led⟩
  | none =>
    have same : (cache.desk endpoint).session = none := there
    have head := led.creator? endpoint
    cases standing : (cache.desk endpoint).line with
    | nil =>
      have nobody : callersAt endpoint cache.creating = [] ∧
          callersAt endpoint cache.waiting = [] := List.append_eq_nil_iff.mp standing
      simp only [standing, List.head?_nil] at head
      simp only [done, due, SessionCache.request, Desk.act, there, same, head, standing]
      refine ⟨rfl, led.changed [caller] [] ?_ ?_ ?_ rfl rfl⟩
      · intro other
        by_cases here : other = endpoint <;>
          simp [SessionCache.session?, here, ← same, SessionCache.desk]
      · intro other
        rw [callersAt_append, callersAt_single]
        by_cases here : other = endpoint
        · simp [here, nobody]
        · simp [here, Ne.symm here]
      · intro other
        by_cases here : other = endpoint <;> simp [here, nobody]
    | cons creator rest =>
      obtain ⟨creating, waiting⟩ := led.cut standing
      simp only [standing, List.head?_cons] at head
      simp only [done, due, SessionCache.request, Desk.act, there, same, head, standing]
      refine ⟨rfl, led.changed [creator] (rest ++ [caller]) ?_ ?_ ?_ rfl rfl⟩
      · intro other
        by_cases here : other = endpoint <;>
          simp [SessionCache.session?, here, ← same, SessionCache.desk]
      · intro other
        by_cases here : other = endpoint <;> simp [here, creating]
      · intro other
        rw [callersAt_append, callersAt_single]
        by_cases here : other = endpoint
        · simp [here, waiting]
        · simp [here, Ne.symm here]

theorem Led.passOn (led : cache.Led) (first : (cache.desk endpoint).line = creator :: rest) :
    let done : SessionCache × List (Notice ε) := cache.passOn endpoint
    done.2 = Desk.begin endpoint rest ∧
      cache.Changed endpoint { cache.desk endpoint with line := rest } done.1 := by
  obtain ⟨creating, waiting⟩ := led.cut first
  have find := find_eq_head? endpoint cache.waiting
  intro done
  have session : ∀ other, cache.session? other = if other = endpoint
      then cache.session? endpoint else cache.session? other := by
    intro other
    by_cases here : other = endpoint <;> simp [here]
  cases rest with
  | nil =>
    rw [waiting] at find
    simp only [done, SessionCache.passOn, find, List.head?_nil, Option.map_none]
    refine ⟨rfl, led.changed [] [] session ?_ ?_ rfl rfl⟩
    · exact fun other => callersAt_without endpoint other cache.creating
    · intro other
      by_cases here : other = endpoint <;> simp [here, waiting]
  | cons next others =>
    rw [waiting] at find
    simp only [done, SessionCache.passOn, find, List.head?_cons, Option.map_some]
    refine ⟨rfl, led.changed [next] others session ?_ ?_ rfl rfl⟩
    · intro other
      rw [callersAt_append, callersAt_without, callersAt_single]
      by_cases here : other = endpoint
      · simp [here]
      · simp [here, Ne.symm here]
    · intro other
      rw [callersAt_erase (by rw [waiting]; rfl), waiting]
      rfl

theorem Led.complete (led : cache.Led) (first : (cache.desk endpoint).line = creator :: rest)
    (unserved : cache.session? endpoint = none) (outcome : Except ε Nat) :
    let done : SessionCache × List (Notice ε) := cache.complete endpoint outcome
    let due := (cache.desk endpoint).act endpoint (.complete endpoint outcome)
    done.2 = due.2 ∧ cache.Changed endpoint due.1 done.1 := by
  obtain ⟨creating, waiting⟩ := led.cut first
  have head := led.creator? endpoint
  rw [first, List.head?_cons] at head
  intro done due
  cases outcome with
  | error error =>
    obtain ⟨begun, changed⟩ : (cache.passOn endpoint : SessionCache × List (Notice ε)).2 = _ ∧ _ :=
      led.passOn first
    simp only [done, due, SessionCache.complete, Desk.act, head, first]
    exact ⟨by rw [begun]; rfl, changed⟩
  | ok session =>
    have others : (cache.waiting.filter fun entry => entry.1 = endpoint).map
        (fun entry => (.answered entry.2 (.ok session) : Notice ε)) =
          rest.map fun caller => .answered caller (.ok session) := by
      rw [← waiting]
      induction cache.waiting with
      | nil => rfl
      | cons entry _ ih => by_cases here : entry.1 = endpoint <;> simp [callersAt_cons, here, ih]
    simp only [done, due, SessionCache.complete, Desk.act, head, first]
    refine ⟨by rw [others]; rfl, led.changed [] [] ?_ ?_ ?_ rfl rfl⟩
    · intro other
      rw [SessionCache.session?, List.lookup_append]
      by_cases here : other = endpoint
      · simp [here, show cache.sessions.lookup endpoint = none from unserved]
      · simp [here, SessionCache.session?, List.lookup_cons, beq_false_of_ne here]
    · exact fun other => callersAt_without endpoint other cache.creating
    · exact fun other => callersAt_without endpoint other cache.waiting

theorem Led.abort (led : cache.Led) (once : (cache.desk endpoint).line.Nodup)
    (only : ∀ other, caller ∈ (cache.desk other).line → other = endpoint) :
    let done : SessionCache × List (Notice ε) := cache.abort caller
    let due := (cache.desk endpoint).act endpoint (.abort caller)
    done.2 = due.2 ∧ cache.Changed endpoint due.1 done.1 := by
  intro done due
  cases found : cache.creating.find? fun entry => entry.2 == caller with
  | some entry =>
    obtain ⟨place, creator⟩ := entry
    have member := List.mem_of_find?_eq_some found
    obtain rfl : creator = caller := by simpa using List.find?_some found
    have creates : creator ∈ callersAt place cache.creating := mem_callersAt.mpr member
    obtain rfl := only place (List.mem_append_left _ creates)
    -- whoever creates a session is the first in line
    obtain ⟨rest, first⟩ : ∃ rest, (cache.desk place).line = creator :: rest := by
      rw [led place] at creates
      cases line : (cache.desk place).line with
      | nil => simp [line] at creates
      | cons head rest =>
        obtain rfl : creator = head := by simpa [line] using creates
        exact ⟨rest, rfl⟩
    obtain ⟨begun, changed⟩ : (cache.passOn place : SessionCache × List (Notice ε)).2 = _ ∧ _ :=
      led.passOn first
    have left : (creator :: rest).filter (fun other => other ≠ creator) = rest := by
      rw [first] at once
      rw [List.filter_cons_of_neg (by simp)]
      refine List.filter_eq_self.mpr fun other there => ?_
      simpa using ne_of_mem_of_not_mem there (List.nodup_cons.mp once).1
    simp only [done, due, SessionCache.abort, Desk.act, found, first]
    rw [left]
    exact ⟨by simpa using begun, changed⟩
  | none =>
    have idle : ∀ place, caller ∉ callersAt place cache.creating := by
      intro place member
      have apart := List.find?_eq_none.mp found _ (mem_callersAt.mp member)
      simp at apart
    have absent : ∀ place, place ≠ endpoint → caller ∉ callersAt place cache.waiting :=
      fun place away member => away (only place (List.mem_append_right _ member))
    have stays : ∀ {line : List Nat}, caller ∉ line →
        line.filter (fun other => other ≠ caller) = line := by
      intro line away
      refine List.filter_eq_self.mpr fun other there => ?_
      simpa using ne_of_mem_of_not_mem there away
    simp only [done, due, SessionCache.abort, Desk.act, found]
    constructor
    · have other : (cache.desk endpoint).line.head? ≠ some caller := by
        intro head
        rw [← led.creator?, SessionCache.creator?, lookup_eq_head?] at head
        exact idle endpoint (List.mem_of_head? head)
      rw [if_neg other]
    · refine led.changed (callersAt endpoint cache.creating)
        ((callersAt endpoint cache.waiting).filter fun other => other ≠ caller) ?_ ?_ ?_ ?_ ?_
      · intro other
        by_cases here : other = endpoint <;>
          simp [here, SessionCache.session?, SessionCache.desk]
      · intro other
        by_cases here : other = endpoint <;> simp [here]
      · intro other
        rw [callersAt_leave]
        by_cases here : other = endpoint
        · simp [here]
        · rw [if_neg here, stays (absent other here)]
      · simp only [SessionCache.desk, List.filter_append, stays (idle endpoint)]
      · cases line : (cache.desk endpoint).line with
        | nil =>
          obtain ⟨nobody, _⟩ := List.append_eq_nil_iff.mp line
          simpa using nobody
        | cons creator rest =>
          obtain ⟨creating, _⟩ := led.cut line
          have away : creator ≠ caller := by
            rintro rfl
            exact idle endpoint (by simp [creating])
          simp [creating, away]

end Desks

end SessionCache

end ChunkedUpload
