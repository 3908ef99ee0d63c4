import ChunkedUpload.Proofs.Session.Mirrors

/-! The two layers of the shared sessions, the map behind its lock and the cells with their permits,
do what one cache does that takes each call, outcome and abort at once. What the calls come to, that
cache comes to as well; and whatever it comes to, calls that are let go on until they stand still
come to, with the same notices in the same order. -/
namespace ChunkedUpload

open SessionCache (Notice Log Run)

variable {ε : Type}

namespace SessionCalls

variable {calls next : SessionCalls} {sights : List (Notice ε)} {log : Log ε}
  {cache : SessionCache} {act : CacheAct ε} {endpoint : Int32} {caller : Nat}

/-- Only at this endpoint has something been done, and by calls that were in line. -/
structure Serves (calls : SessionCalls) (endpoint : Int32) (next : SessionCalls) : Prop where
  outside : next.outside = calls.outside
  arrived : next.arrived = calls.arrived
  elsewhere : ∀ other, other ≠ endpoint → next.cell other = calls.cell other
  desk : (next.cell endpoint).desk = (calls.cell endpoint).desk

theorem Serves.trans {mid : SessionCalls} (first : calls.Serves endpoint mid)
    (second : mid.Serves endpoint next) : calls.Serves endpoint next where
  outside := second.outside.trans first.outside
  arrived := second.arrived.trans first.arrived
  elsewhere := fun other apart => (second.elsewhere other apart).trans (first.elsewhere other apart)
  desk := second.desk.trans first.desk

theorem serves_setCell {cell : SessionCell} (desk : cell.desk = (calls.cell endpoint).desk) :
    calls.Serves endpoint (calls.setCell endpoint cell) where
  outside := rfl
  arrived := rfl
  elsewhere := fun other apart => by rw [cell_setCell, if_neg apart]
  desk := by rw [cell_setCell, if_pos rfl, desk]

/-- Those who wait at a cell with a session are served one after the other. -/
theorem exists_served (session : Nat) (creator : Option Nat) (line : List Nat)
    (calls : SessionCalls) (there : calls.cell endpoint = ⟨some session, creator, line⟩) :
    ∃ (moves : List (SessionMove ε)) (next : SessionCalls),
      runSteps? step? calls moves =
        some (next, line.map fun caller => .answered caller (.ok session)) ∧
      calls.Serves endpoint next ∧ next.cell endpoint = ⟨some session, creator, []⟩ := by
  induction line generalizing calls with
  | nil => exact ⟨[], calls, rfl, ⟨rfl, rfl, fun _ _ => rfl, rfl⟩, there⟩
  | cons caller others ih =>
    have here : (calls.setCell endpoint ⟨some session, creator, others⟩).cell endpoint =
        ⟨some session, creator, others⟩ := by rw [cell_setCell, if_pos rfl]
    obtain ⟨moves, next, run, serves, empty⟩ := ih _ here
    refine ⟨.serve endpoint caller :: moves, next, ?_, ?_, empty⟩
    · simp [runSteps?, step?, there, run]
    · exact (serves_setCell (by rw [there]; rfl)).trans serves

/-- The calls at a cell go on until they can do nothing more, and see what they were owed. -/
theorem exists_settled (calls : SessionCalls) (endpoint : Int32) :
    ∃ (moves : List (SessionMove ε)) (next : SessionCalls),
      runSteps? step? calls moves = some (next, (calls.cell endpoint).owed endpoint) ∧
      calls.Serves endpoint next ∧ (next.cell endpoint).Settled := by
  by_cases settled : (calls.cell endpoint).Settled
  · exact ⟨[], calls, by rw [settled.owed_eq_nil]; rfl, ⟨rfl, rfl, fun _ _ => rfl, rfl⟩, settled⟩
  · cases there : calls.cell endpoint with
    | mk session creator line =>
      cases session with
      | some session =>
        obtain ⟨moves, next, run, serves, empty⟩ := exists_served session creator line calls there
        refine ⟨moves, next, run, serves, ?_⟩
        rw [empty]
        exact fun waits => absurd rfl waits
      | none =>
        obtain ⟨waits, rfl⟩ : line ≠ [] ∧ creator = none := by
          simpa [SessionCell.Settled, there] using settled
        obtain ⟨caller, others, rfl⟩ := List.exists_cons_of_ne_nil waits
        refine ⟨[.create endpoint], calls.setCell endpoint ⟨none, some caller, others⟩, ?_, ?_, ?_⟩
        · simp [runSteps?, step?, there, SessionCell.owed, Desk.begin]
        · exact serves_setCell (by rw [there]; rfl)
        · rw [cell_setCell, if_pos rfl]
          exact fun _ => ⟨rfl, Option.some_ne_none caller⟩

/-- The calls stand still where the cache is. -/
structure Rests (log : Log ε) (cache : SessionCache) (calls : SessionCalls) : Prop where
  run : Run log cache
  still : calls.Standstill
  desks : ∀ endpoint, cache.desk endpoint = (calls.cell endpoint).desk
  arrived : ∀ caller, caller ∈ calls.arrived ↔
    ∃ endpoint, caller ∈ SessionCache.askers endpoint log

theorem rests_fresh : Rests ([] : Log ε) SessionCache.empty fresh where
  run := .start
  still := ⟨rfl, fun _ waits => absurd rfl waits⟩
  desks := fun _ => rfl
  arrived := fun _ => ⟨nofun, nofun⟩

/-- It is enough that the calls do what the act asks for and owe each other the rest. -/
theorem Rests.finish (rests : Rests log cache calls) {mid : SessionCalls} (fits : act.Fits log)
    (concerns : act.Concerns endpoint log) {moves : List (SessionMove ε)}
    (run : runSteps? step? calls moves = some (mid, sights)) (inside : mid.outside = [])
    (arrived : ∀ caller, caller ∈ mid.arrived ↔
      caller ∈ calls.arrived ∨ act = .request caller endpoint)
    (desks : ∀ other, (mid.cell other).desk =
      if other = endpoint then ((calls.cell endpoint).desk.act endpoint act).1
      else (calls.cell other).desk)
    (settled : ∀ other, other ≠ endpoint → (mid.cell other).Settled)
    (notices : ((calls.cell endpoint).desk.act endpoint act).2 =
      sights ++ (mid.cell endpoint).owed endpoint) :
    ∃ moves next, runSteps? step? calls moves = some (next, (cache.act act).2) ∧
      Rests (log ++ [(act, (cache.act act).2)]) (cache.act act).1 next := by
  have follows := rests.run.follows
  obtain ⟨place, there, awaits, told, changed⟩ := follows.desk fits
  obtain rfl := follows.concerns_unique there concerns
  obtain ⟨rest, next, ran, serves, done⟩ := exists_settled (ε := ε) mid place
  refine ⟨moves ++ rest, next, ?_, rests.run.step fits, ⟨?_, fun other => ?_⟩, fun other => ?_,
    fun caller => ?_⟩
  · rw [told, rests.desks, notices]
    exact runSteps_append run ran
  · rw [serves.outside, inside]
  · by_cases here : other = place
    · rw [here]
      exact done
    · rw [serves.elsewhere other here]
      exact settled other here
  · rw [changed.desks, rests.desks, rests.desks, ← desks]
    by_cases here : other = place
    · rw [here, serves.desk]
    · rw [serves.elsewhere other here]
  · have here : act = .request caller place ↔ ∃ other, act = .request caller other :=
      ⟨fun asks => ⟨place, asks⟩, fun ⟨other, asks⟩ => awaits.here caller other asks ▸ asks⟩
    simp only [serves.arrived, arrived, rests.arrived, here, SessionCache.mem_askers_snoc,
      exists_or]

/-- A call has come through the map and is on the way to its cell, with nobody else. -/
def arriving (calls : SessionCalls) (endpoint : Int32) (caller : Nat) : SessionCalls where
  cells := (calls.setCell endpoint (calls.cell endpoint)).cells
  holder := none
  entering := []
  leaving := [(endpoint, caller)]
  arrived := calls.arrived ++ [caller]

theorem cell_arriving (other : Int32) :
    (calls.arriving endpoint caller).cell other = calls.cell other :=
  calls.cell_setCell_self endpoint other

theorem run_arriving (inside : calls.outside = []) (new : caller ∉ calls.arrived) :
    runSteps? step? calls [.come caller endpoint, .lock, .lookUp] =
      some (calls.arriving endpoint caller, ([] : List (Notice ε))) := by
  obtain ⟨cells, holder, entering, leaving, arrived⟩ := calls
  obtain ⟨rfl, rfl, rfl⟩ : leaving = [] ∧ holder = none ∧ entering = [] := by
    simpa [SessionCalls.outside] using inside
  change caller ∉ arrived at new
  simp [runSteps?, step?, new, arriving, setCell, SessionCalls.cell]

theorem Rests.found (rests : Rests log cache calls) {session : Nat}
    (fits : CacheAct.Fits log (.request caller endpoint : CacheAct ε))
    (new : caller ∉ calls.arrived) (there : (calls.cell endpoint).session = some session) :
    let act : CacheAct ε := .request caller endpoint
    ∃ moves next, runSteps? step? calls moves = some (next, (cache.act act).2) ∧
      Rests (log ++ [(act, (cache.act act).2)]) (cache.act act).1 next := by
  have same := @cell_arriving calls endpoint caller
  have leaves : (endpoint, caller) ∈ (calls.arriving endpoint caller).leaving :=
    List.mem_singleton_self _
  have stepped : Stepped _ (.reach endpoint caller : SessionMove ε) _ _ :=
    .found leaves ((congrArg SessionCell.session (same endpoint)).trans there)
  have run := runSteps_snoc (run_arriving rests.still.inside new) (step?_eq_some_iff.mpr stepped)
  have act := SessionCell.found_notice (ε := ε) there endpoint caller
  apply rests.finish fits rfl run
  · simp [outside, arriving]
  · simp [arriving, eq_comm]
  · intro other
    rw [act]
    by_cases here : other = endpoint
    · rw [if_pos here, here]
      exact congrArg SessionCell.desk (same endpoint)
    · rw [if_neg here]
      exact congrArg SessionCell.desk (same other)
  · exact fun other _ => (same other).symm ▸ rests.still.unserved other
  · change _ = _ ++ ((calls.arriving endpoint caller).cell endpoint).owed endpoint
    have settled : (calls.cell endpoint).Settled := rests.still.unserved endpoint
    rw [act, same, settled.owed_eq_nil]
    rfl

theorem Rests.joined (rests : Rests log cache calls)
    (fits : CacheAct.Fits log (.request caller endpoint : CacheAct ε))
    (new : caller ∉ calls.arrived) (missing : (calls.cell endpoint).session = none) :
    let act : CacheAct ε := .request caller endpoint
    ∃ moves next, runSteps? step? calls moves = some (next, (cache.act act).2) ∧
      Rests (log ++ [(act, (cache.act act).2)]) (cache.act act).1 next := by
  have same := @cell_arriving calls endpoint caller
  have leaves : (endpoint, caller) ∈ (calls.arriving endpoint caller).leaving :=
    List.mem_singleton_self _
  have stepped : Stepped _ (.reach endpoint caller : SessionMove ε) _ _ :=
    .joined leaves ((congrArg SessionCell.session (same endpoint)).trans missing)
  have run := runSteps_snoc (run_arriving rests.still.inside new) (step?_eq_some_iff.mpr stepped)
  rw [same] at run
  apply rests.finish fits rfl run
  · simp [outside, arriving, setCell]
  · simp [arriving, setCell, eq_comm]
  · intro other
    rw [← SessionCell.desk_joined missing, desk_setCell]
    exact if_congr Iff.rfl rfl (congrArg SessionCell.desk (same other))
  · intro other apart
    rw [cell_setCell, if_neg apart]
    exact (same other).symm ▸ rests.still.unserved other
  · rw [cell_setCell, if_pos rfl, SessionCell.owed_joined missing]
    have settled : (calls.cell endpoint).Settled := rests.still.unserved endpoint
    rw [settled.owed_eq_nil]
    rfl

theorem Rests.request (rests : Rests log cache calls)
    (fits : CacheAct.Fits log (.request caller endpoint : CacheAct ε)) :
    let act : CacheAct ε := .request caller endpoint
    ∃ moves next, runSteps? step? calls moves = some (next, (cache.act act).2) ∧
      Rests (log ++ [(act, (cache.act act).2)]) (cache.act act).1 next := by
  have new : caller ∉ calls.arrived := fun came =>
    let ⟨other, asked⟩ := (rests.arrived caller).mp came
    fits other asked
  cases there : (calls.cell endpoint).session with
  | some session => exact rests.found fits new there
  | none => exact rests.joined fits new there

theorem Rests.complete (rests : Rests log cache calls) {outcome : Except ε Nat}
    (fits : CacheAct.Fits log (.complete endpoint outcome)) :
    let act : CacheAct ε := .complete endpoint outcome
    ∃ moves next, runSteps? step? calls moves = some (next, (cache.act act).2) ∧
      Rests (log ++ [(act, (cache.act act).2)]) (cache.act act).1 next := by
  have waits : (calls.cell endpoint).desk.line ≠ [] := by
    intro nobody
    apply fits
    rw [rests.run.follows.flying, ← rests.run.follows.line, rests.desks, nobody]
    rfl
  have missing : (calls.cell endpoint).session = none := by
    by_contra there
    obtain ⟨session, there⟩ := Option.ne_none_iff_exists'.mp there
    exact waits (by rw [SessionCell.desk_of_some there])
  obtain ⟨creator, creates⟩ : ∃ creator, (calls.cell endpoint).creator = some creator := by
    apply Option.ne_none_iff_exists'.mp
    intro free
    rw [SessionCell.desk_of_none missing, free] at waits
    exact (rests.still.unserved endpoint waits).2 free
  let cell : SessionCell := { calls.cell endpoint with
    session := outcome.toOption.or (calls.cell endpoint).session
    creator := none }
  have run : runSteps? step? calls [.complete endpoint outcome] =
      some (calls.setCell endpoint cell, [.answered creator outcome]) := by
    simp [runSteps?, step?, creates, cell]
  apply rests.finish fits rfl run
  · exact rests.still.inside
  · simp [setCell]
  · intro other
    rw [← SessionCell.desk_completed creates missing]
    exact desk_setCell _ _ _ other
  · intro other apart
    rw [cell_setCell, if_neg apart]
    exact rests.still.unserved other
  · rw [SessionCell.owed_completed creates missing, cell_setCell, if_pos rfl]
    rfl

theorem Rests.abort (rests : Rests log cache calls)
    (fits : CacheAct.Fits log (.abort caller : CacheAct ε)) :
    let act : CacheAct ε := .abort caller
    ∃ moves next, runSteps? step? calls moves = some (next, (cache.act act).2) ∧
      Rests (log ++ [(act, (cache.act act).2)]) (cache.act act).1 next := by
  have follows := rests.run.follows
  have came := (rests.arrived caller).mpr fits
  obtain ⟨endpoint, asked⟩ := id fits
  have elsewhere : ∀ other, other ≠ endpoint → caller ∉ (calls.cell other).desk.line := by
    intro other away waits
    rw [← rests.desks, follows.line] at waits
    exact away (follows.only _ _ _ (SessionCache.mem_askers_of_mem_remaining waits).1 asked)
  have once : (calls.cell endpoint).desk.line.Nodup := by
    rw [← rests.desks, follows.line]
    exact (follows.once endpoint).filter _
  have run : runSteps? step? calls [.abort caller] =
      some (calls.without caller, ([] : List (Notice ε))) := by simp [runSteps?, step?, came]
  apply rests.finish fits asked run
  · rw [outside_without, rests.still.inside]
    rfl
  · simp [without]
  · intro other
    rw [cell_without, SessionCell.desk_without]
    split
    · subst other
      rfl
    · rw [SessionCell.abort_away (elsewhere other ‹_›)]
  · intro other apart
    have settled : (calls.cell other).Settled := rests.still.unserved other
    rw [cell_without]
    exact settled.without (elsewhere other apart)
  · have settled : (calls.cell endpoint).Settled := rests.still.unserved endpoint
    rw [cell_without, SessionCell.owed_without once, settled.owed_eq_nil]
    rfl

theorem Rests.step (rests : Rests log cache calls) (fits : act.Fits log) :
    ∃ moves next, runSteps? step? calls moves = some (next, (cache.act act).2) ∧
      Rests (log ++ [(act, (cache.act act).2)]) (cache.act act).1 next := by
  cases act with
  | request => exact rests.request fits
  | complete => exact rests.complete fits
  | abort => exact rests.abort fits

theorem exists_rests (run : Run log cache) : ∃ moves calls,
    runSteps? step? fresh moves = some (calls, told log) ∧ Rests log cache calls := by
  induction run with
  | start => exact ⟨[], fresh, rfl, rests_fresh⟩
  | step _ fits ih =>
    obtain ⟨moves, calls, run, rests⟩ := ih
    obtain ⟨more, next, ran, now⟩ := rests.step fits
    refine ⟨moves ++ more, next, ?_, now⟩
    rw [told, List.flatMap_append, List.flatMap_singleton]
    exact runSteps_append run ran

/-- The calls and the cache have come to the same: at every endpoint there is the same session and
the same line, and what the cache has told beyond what was seen is still owed or was to calls that
have given up. -/
structure Agree (log : Log ε) (cache : SessionCache) (sights : List (Notice ε))
    (calls : SessionCalls) : Prop where
  desks : ∀ endpoint, cache.desk endpoint = (calls.cell endpoint).desk
  size : cache.size = calls.size
  books : ∃ lost : Multiset (Notice ε),
    (told log : Multiset (Notice ε)) = (sights : Multiset (Notice ε)) + calls.owed + lost ∧
    ∀ notice ∈ lost, ∃ entry ∈ log, entry.1.aborts notice.caller = true
  settled : calls.Standstill → (calls.owed : Multiset (Notice ε)) = 0

/-- In whatever order the calls move, the cache takes the same acts one at a time. -/
theorem cache_of_calls {moves : List (SessionMove ε)}
    (run : runSteps? step? fresh moves = some (calls, sights)) :
    ∃ log cache, Run log cache ∧ Agree log cache sights calls := by
  obtain ⟨log, cache, mirrors⟩ := exists_mirrors run
  have settled : calls.Standstill → (calls.owed : Multiset (Notice ε)) = 0 :=
    fun still => still.owed_eq_zero mirrors.sound.keys
  exact ⟨log, cache, mirrors.run, mirrors.desks, mirrors.size, mirrors.books, settled⟩

/-- Whatever acts the cache takes, there are moves of the calls that come to the same, and are told
the same. -/
theorem calls_of_cache (run : Run log cache) : ∃ moves calls,
    runSteps? step? fresh moves = some (calls, told log) ∧ calls.Standstill ∧
      ∀ endpoint, cache.desk endpoint = (calls.cell endpoint).desk := by
  obtain ⟨moves, calls, ran, rests⟩ := exists_rests run
  exact ⟨moves, calls, ran, rests.still, rests.desks⟩

end SessionCalls

end ChunkedUpload
