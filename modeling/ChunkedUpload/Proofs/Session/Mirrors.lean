import ChunkedUpload.Proofs.Session.Owed
import ChunkedUpload.Proofs.Session.Sharing
import Mathlib.Tactic.Abel

/-! In whatever order the calls for sessions move, the cache that does at once what is due can keep
up with them. A call comes to the cache when it comes to its cell, a permit that was given back is
with the next in line already, and what the cache has told, the calls have seen or are owed. -/
namespace ChunkedUpload

open SessionCache (Notice Log Run)

variable {ε : Type}

namespace SessionCalls

variable {calls next : SessionCalls} {move : SessionMove ε} {sights seen : List (Notice ε)}
  {log : Log ε} {cache : SessionCache} {act : CacheAct ε} {endpoint : Int32} {caller : Nat}

/-- Where the calls are that have asked the cache, and where those are that have not. -/
structure Placed (log : Log ε) (calls : SessionCalls) : Prop where
  ahead : ∀ entry ∈ calls.outside, ∀ endpoint, entry.2 ∉ SessionCache.askers endpoint log
  asked : ∀ endpoint, ∀ caller ∈ (calls.cell endpoint).line,
    caller ∈ SessionCache.askers endpoint log
  arrived : ∀ endpoint, ∀ caller ∈ SessionCache.askers endpoint log, caller ∈ calls.arrived

theorem Stepped.line (stepped : Stepped calls move next sights)
    (waits : caller ∈ (next.cell endpoint).line) :
    caller ∈ (calls.cell endpoint).line ∨ move = .reach endpoint caller := by
  cases stepped with
  | come | lock | found => exact .inl waits
  | @lookUp place =>
    have same := calls.cell_setCell_self place endpoint
    exact .inl (congrArg SessionCell.line same ▸ waits)
  | @joined place other =>
    rw [cell_setCell] at waits
    split at waits
    · subst endpoint
      rcases List.mem_append.mp waits with earlier | now
      · exact .inl earlier
      · exact .inr (by rw [List.mem_singleton.mp now])
    · exact .inl waits
  | create free =>
    rw [cell_setCell] at waits
    split at waits
    · subst endpoint
      exact .inl (by rw [free]; exact List.mem_cons_of_mem _ waits)
    · exact .inl waits
  | serve =>
    rw [cell_setCell] at waits
    split at waits
    · subst endpoint
      exact .inl (List.mem_of_mem_erase waits)
    · exact .inl waits
  | complete =>
    rw [cell_setCell] at waits
    split at waits
    · subst endpoint
      exact .inl waits
    · exact .inl waits
  | abort =>
    rw [cell_without] at waits
    exact .inl (List.mem_filter.mp waits).1

theorem mem_outside_of_leaving {entry : Int32 × Nat} (leaves : entry ∈ calls.leaving) :
    entry ∈ calls.outside :=
  List.mem_append_left _ (List.mem_append_left _ leaves)

theorem Sound.ne_of_mem_erase (sound : calls.Sound) {entry gone : Int32 × Nat}
    (there : gone ∈ calls.outside) (left : entry ∈ calls.outside.erase gone) :
    entry.2 ≠ gone.2 := by
  intro same
  obtain ⟨apart, member⟩ := sound.once.of_map.mem_erase_iff.mp left
  exact apart (List.inj_on_of_nodup_map sound.once member there same)

/-- A call comes to the cache when it comes to its cell. -/
theorem Placed.step (placed : Placed log calls) (sound : calls.Sound)
    (stepped : Stepped calls move next sights) {more : Log ε}
    (asks : ∀ endpoint caller, caller ∈ SessionCache.askers endpoint (log ++ more) ↔
      caller ∈ SessionCache.askers endpoint log ∨ move = .reach endpoint caller) :
    Placed (log ++ more) next := by
  have places := stepped.outside
  have arrived := stepped.arrived
  refine ⟨fun entry there endpoint asked => ?_, fun endpoint caller waits => ?_,
    fun endpoint caller asked => ?_⟩
  · rw [places] at there
    rcases (asks _ _).mp asked with before | rfl
    · cases stepped with
      | come new =>
        rcases List.mem_append.mp there with earlier | now
        · exact placed.ahead entry earlier endpoint before
        · rw [List.mem_singleton.mp now] at before
          exact new (placed.arrived endpoint _ before)
      | found | joined => exact placed.ahead entry (List.mem_of_mem_erase there) endpoint before
      | abort => exact placed.ahead entry (List.mem_filter.mp there).1 endpoint before
      | lock | lookUp | create | serve | complete =>
        exact placed.ahead entry there endpoint before
    · cases stepped with
      | found leaves | joined leaves =>
        exact sound.ne_of_mem_erase (mem_outside_of_leaving leaves) there rfl
  · rcases stepped.line waits with before | rfl
    · exact (asks _ _).mpr (.inl (placed.asked endpoint caller before))
    · exact (asks _ _).mpr (.inr rfl)
  · rcases (asks _ _).mp asked with before | rfl
    · have came := placed.arrived endpoint caller before
      rw [arrived]
      cases stepped with
      | come => exact List.mem_append_left _ came
      | lock | lookUp | found | joined | create | serve | complete | abort => exact came
    · cases stepped with
      | found leaves | joined leaves => exact sound.came _ (mem_outside_of_leaving leaves)

/-- All that a cache has told. -/
def told (log : Log ε) : List (Notice ε) := log.flatMap Prod.snd

/-- The calls have come to what the cache has come to. What it has told, they have seen or are owed,
unless they have given up. -/
structure Mirrors (log : Log ε) (cache : SessionCache) (sights : List (Notice ε))
    (calls : SessionCalls) : Prop where
  run : Run log cache
  sound : calls.Sound
  placed : Placed log calls
  desks : ∀ endpoint, cache.desk endpoint = (calls.cell endpoint).desk
  books : ∃ lost : Multiset (Notice ε),
    (told log : Multiset (Notice ε)) = (sights : Multiset (Notice ε)) + calls.owed + lost ∧
    ∀ notice ∈ lost, ∃ entry ∈ log, entry.1.aborts notice.caller = true

theorem mirrors_fresh : Mirrors ([] : Log ε) SessionCache.empty [] fresh where
  run := .start
  sound := sound_fresh
  placed := ⟨nofun, fun _ => nofun, fun _ => nofun⟩
  desks := fun _ => rfl
  books := ⟨0, rfl, nofun⟩

/-- A move that is nothing to the cache. -/
theorem Mirrors.keep (mirrors : Mirrors log cache sights calls)
    (stepped : Stepped calls move next seen)
    (silent : ∀ endpoint caller, move ≠ .reach endpoint caller)
    (desks : ∀ endpoint, (next.cell endpoint).desk = (calls.cell endpoint).desk)
    (books : calls.owed = (seen : Multiset (Notice ε)) + next.owed) :
    ∃ log cache, Mirrors log cache (sights ++ seen) next := by
  refine ⟨log, cache, mirrors.run, mirrors.sound.step stepped, ?_, fun endpoint => ?_, ?_⟩
  · have placed : Placed (log ++ []) next := by
      apply mirrors.placed.step mirrors.sound stepped
      intro endpoint caller
      rw [List.append_nil]
      exact (or_iff_left (silent endpoint caller)).symm
    rwa [List.append_nil] at placed
  · rw [desks, mirrors.desks]
  · obtain ⟨lost, balance, given⟩ := mirrors.books
    refine ⟨lost, ?_, given⟩
    rw [balance, books, ← Multiset.coe_add]
    abel

/-- A move with which an act of the cache goes along. -/
theorem Mirrors.go (mirrors : Mirrors log cache sights calls)
    (stepped : Stepped calls move next seen) (fits : act.Fits log)
    (concerns : act.Concerns endpoint log)
    (asks : ∀ endpoint caller, act = .request caller endpoint ↔ move = .reach endpoint caller)
    (desks : ∀ other, (next.cell other).desk =
      if other = endpoint then ((calls.cell endpoint).desk.act endpoint act).1
      else (calls.cell other).desk)
    (books : ∃ lost : Multiset (Notice ε),
      calls.owed + (((calls.cell endpoint).desk.act endpoint act).2 : Multiset (Notice ε)) =
        (seen : Multiset (Notice ε)) + next.owed + lost ∧
      ∀ notice ∈ lost, act = .abort notice.caller) :
    ∃ log cache, Mirrors log cache (sights ++ seen) next := by
  have follows := mirrors.run.follows
  obtain ⟨place, there, -, notices, changed⟩ := follows.desk fits
  obtain rfl := follows.concerns_unique there concerns
  refine ⟨_, _, mirrors.run.step fits, mirrors.sound.step stepped, ?_, fun other => ?_, ?_⟩
  · apply mirrors.placed.step mirrors.sound stepped
    intro other caller
    rw [SessionCache.mem_askers_snoc, asks]
  · rw [changed.desks, desks, mirrors.desks, mirrors.desks]
  · obtain ⟨lost, balance, given⟩ := mirrors.books
    obtain ⟨more, added, leaves⟩ := books
    refine ⟨lost + more, ?_, fun notice member => ?_⟩
    · rw [mirrors.desks] at notices
      calc (told (log ++ [(act, (cache.act act).2)]) : Multiset (Notice ε))
          _ = (told log : Multiset (Notice ε)) + (cache.act act).2 := by simp [told]
          _ = (sights : Multiset (Notice ε)) + lost +
              (calls.owed + (((calls.cell place).desk.act place act).2 : Multiset (Notice ε))) := by
            rw [balance, notices]
            abel
          _ = ((sights ++ seen : List (Notice ε)) : Multiset (Notice ε)) + next.owed +
              (lost + more) := by
            rw [added, ← Multiset.coe_add]
            abel
    · rcases Multiset.mem_add.mp member with before | now
      · obtain ⟨entry, old, aborts⟩ := given notice before
        exact ⟨entry, List.mem_append_left _ old, aborts⟩
      · refine ⟨_, List.mem_append_right _ List.mem_cons_self, ?_⟩
        simp [leaves notice now, CacheAct.aborts]

theorem Sound.missing (sound : calls.Sound) {creator : Nat}
    (creates : (calls.cell endpoint).creator = some creator) :
    (calls.cell endpoint).session = none := by
  by_contra there
  cases creates.symm.trans (sound.served endpoint there)

theorem Mirrors.nodup (mirrors : Mirrors log cache sights calls) (endpoint : Int32) :
    (calls.cell endpoint).desk.line.Nodup := by
  have follows := mirrors.run.follows
  rw [← mirrors.desks, follows.line]
  exact (follows.once endpoint).filter _

theorem Mirrors.asked_creator (mirrors : Mirrors log cache sights calls)
    (creates : (calls.cell endpoint).creator = some caller) :
    caller ∈ SessionCache.remaining endpoint log := by
  rw [← mirrors.run.follows.line, mirrors.desks,
    SessionCell.desk_of_none (mirrors.sound.missing creates), creates]
  exact List.mem_cons_self

theorem Mirrors.without_of_unasked (mirrors : Mirrors log cache sights calls)
    (away : ∀ endpoint, caller ∉ SessionCache.askers endpoint log) (endpoint : Int32) :
    (calls.cell endpoint).without caller = calls.cell endpoint := by
  apply SessionCell.without_eq_self
  · exact fun waits => away endpoint (mirrors.placed.asked endpoint caller waits)
  · intro creates
    have remains := mirrors.asked_creator creates
    exact away endpoint (SessionCache.mem_askers_of_mem_remaining remains).1

theorem desk_setCell (calls : SessionCalls) (endpoint : Int32) (cell : SessionCell)
    (other : Int32) : ((calls.setCell endpoint cell).cell other).desk =
      if other = endpoint then cell.desk else (calls.cell other).desk := by
  rw [cell_setCell, apply_ite SessionCell.desk]

theorem Mirrors.found (mirrors : Mirrors log cache sights calls) {session : Nat}
    (leaves : (endpoint, caller) ∈ calls.leaving)
    (there : (calls.cell endpoint).session = some session) :
    ∃ log cache, Mirrors log cache (sights ++ [.answered caller (.ok session)])
      { calls with leaving := calls.leaving.erase (endpoint, caller) } := by
  have fits : CacheAct.Fits log (.request caller endpoint : CacheAct ε) :=
    mirrors.placed.ahead _ (mem_outside_of_leaving leaves)
  have act := SessionCell.found_notice (ε := ε) there endpoint caller
  apply mirrors.go (.found leaves there) fits rfl
  · simp [and_comm]
  · intro other
    rw [act]
    split
    · subst other
      rfl
    · rfl
  · refine ⟨0, ?_, nofun⟩
    rw [act, add_zero, add_comm]
    rfl

theorem Mirrors.joined (mirrors : Mirrors log cache sights calls)
    (leaves : (endpoint, caller) ∈ calls.leaving)
    (missing : (calls.cell endpoint).session = none) :
    ∃ log cache, Mirrors log cache (sights ++ [])
      (SessionCalls.setCell { calls with leaving := calls.leaving.erase (endpoint, caller) }
        endpoint { calls.cell endpoint with line := (calls.cell endpoint).line ++ [caller] }) := by
  have fits : CacheAct.Fits log (.request caller endpoint : CacheAct ε) :=
    mirrors.placed.ahead _ (mem_outside_of_leaving leaves)
  apply mirrors.go (.joined leaves missing) fits rfl
  · simp [and_comm]
  · intro other
    rw [← SessionCell.desk_joined missing]
    exact desk_setCell _ _ _ other
  · refine ⟨0, ?_, nofun⟩
    rw [add_zero]
    exact books_setCell mirrors.sound.keys (.of_eq (SessionCell.owed_joined missing caller).symm)

theorem Mirrors.completed (mirrors : Mirrors log cache sights calls) {creator : Nat}
    (creates : (calls.cell endpoint).creator = some creator) (outcome : Except ε Nat) :
    ∃ log cache, Mirrors log cache (sights ++ [.answered creator outcome])
      (calls.setCell endpoint { calls.cell endpoint with
        session := outcome.toOption.or (calls.cell endpoint).session
        creator := none }) := by
  have missing := mirrors.sound.missing creates
  have fits : CacheAct.Fits log (.complete endpoint outcome) := by
    change SessionCache.inFlight endpoint log ≠ []
    rw [mirrors.run.follows.flying, ← mirrors.run.follows.line, mirrors.desks,
      SessionCell.desk_of_none missing, creates]
    nofun
  apply mirrors.go (.complete creates) fits rfl
  · simp
  · intro other
    rw [← SessionCell.desk_completed creates missing]
    exact desk_setCell _ _ _ other
  · refine ⟨0, ?_, nofun⟩
    rw [add_zero, SessionCell.owed_completed creates missing]
    apply books_setCell mirrors.sound.keys
    rw [SessionCell.owed_creating missing (by rw [creates]; nofun)]
    rfl

theorem Mirrors.aborted (mirrors : Mirrors log cache sights calls)
    (came : caller ∈ calls.arrived) :
    ∃ log cache, Mirrors log cache (sights ++ []) (calls.without caller) := by
  by_cases asked : ∃ endpoint, caller ∈ SessionCache.askers endpoint log
  · obtain ⟨endpoint, asked⟩ := asked
    have follows := mirrors.run.follows
    have elsewhere : ∀ other, other ≠ endpoint → caller ∉ (calls.cell other).desk.line := by
      intro other away waits
      rw [← mirrors.desks, follows.line] at waits
      exact away (follows.only _ _ _ (SessionCache.mem_askers_of_mem_remaining waits).1 asked)
    have fits : CacheAct.Fits log (.abort caller : CacheAct ε) := ⟨endpoint, asked⟩
    apply mirrors.go (.abort came) fits asked
    · simp
    · intro other
      rw [cell_without, SessionCell.desk_without]
      split
      · subst other
        rfl
      · rw [SessionCell.abort_away (elsewhere other ‹_›)]
    · refine ⟨calls.owed.filter fun notice => ¬ notice.caller ≠ caller, ?_, fun notice member => ?_⟩
      · rw [Multiset.coe_nil, zero_add, owed_without mirrors.sound.keys mirrors.nodup,
          gather_abort mirrors.sound.keys elsewhere, add_right_comm, Multiset.filter_add_not]
      · have given := (Multiset.mem_filter.mp member).2
        rw [not_not.mp given]
  · have same : (calls.without caller).cells = calls.cells := by
      refine (List.map_congr_left fun entry there => ?_).trans (List.map_id _)
      have kept := mirrors.without_of_unasked (not_exists.mp asked) entry.1
      rw [cell_of_mem mirrors.sound.keys there] at kept
      rw [kept]
      rfl
    apply mirrors.keep (.abort came) nofun
    · intro endpoint
      rw [SessionCalls.cell, same, SessionCalls.cell]
    · rw [owed, owed, same, Multiset.coe_nil, zero_add]

/-- Whatever the calls do, the cache can keep up with them. -/
theorem Mirrors.step (mirrors : Mirrors log cache sights calls)
    (stepped : Stepped calls move next seen) :
    ∃ log cache, Mirrors log cache (sights ++ seen) next := by
  have keys := mirrors.sound.keys
  cases id stepped with
  | come | lock => exact mirrors.keep stepped nofun (fun _ => rfl) (zero_add _).symm
  | @lookUp endpoint =>
    apply mirrors.keep stepped nofun
    · exact fun other => congrArg SessionCell.desk (calls.cell_setCell_self endpoint other)
    · exact (add_zero _).symm.trans (books_setCell keys (by simp))
  | found leaves there => exact mirrors.found leaves there
  | joined leaves missing => exact mirrors.joined leaves missing
  | @create endpoint caller others free =>
    apply mirrors.keep stepped nofun
    · intro other
      rw [desk_setCell]
      split
      · subst other
        rw [free]
        rfl
      · rfl
    · apply (add_zero _).symm.trans (books_setCell keys ?_)
      rw [free]
      rfl
  | @serve endpoint caller session waits there =>
    apply mirrors.keep stepped nofun
    · intro other
      rw [desk_setCell]
      split
      · subst other
        rw [SessionCell.desk_of_some there]
        exact SessionCell.desk_of_some there
      · rfl
    · apply (add_zero _).symm.trans (books_setCell keys ?_)
      rw [List.append_nil]
      exact SessionCell.owed_served waits there
  | complete creates => exact mirrors.completed creates _
  | abort came => exact mirrors.aborted came

/-- The endpoints that have a session. -/
def served (calls : SessionCalls) : List Int32 :=
  (calls.cells.filter fun entry => entry.2.session.isSome).map Prod.fst

theorem length_served : calls.served.length = calls.size := by
  rw [served, List.length_map, ← List.countP_eq_length_filter, size]

theorem Sound.mem_served (sound : calls.Sound) :
    endpoint ∈ calls.served ↔ (calls.cell endpoint).session ≠ none := by
  constructor
  · intro member
    obtain ⟨entry, there, rfl⟩ := List.mem_map.mp member
    obtain ⟨there, served⟩ := List.mem_filter.mp there
    rw [cell_of_mem sound.keys there]
    exact Option.isSome_iff_ne_none.mp served
  · intro there
    cases found : calls.cells.lookup endpoint with
    | none => simp [SessionCalls.cell, found, SessionCell.fresh] at there
    | some cell =>
      have some_session : cell.session.isSome = true := by
        simpa [SessionCalls.cell, found, Option.isSome_iff_ne_none] using there
      exact List.mem_map_of_mem (List.mem_filter.mpr ⟨mem_of_lookup found, some_session⟩)

theorem Mirrors.size (mirrors : Mirrors log cache sights calls) : cache.size = calls.size := by
  have follows := mirrors.run.follows
  have once : (cache.sessions.map Prod.fst).Nodup := follows.sessions ▸ follows.unique
  have apart : calls.served.Nodup := mirrors.sound.keys.sublist (List.filter_sublist.map _)
  have same : ∀ endpoint, endpoint ∈ cache.sessions.map Prod.fst ↔ endpoint ∈ calls.served := by
    intro endpoint
    have session : cache.session? endpoint = (calls.cell endpoint).session :=
      congrArg Desk.session (mirrors.desks endpoint)
    rw [mirrors.sound.mem_served, ← session]
    constructor
    · intro member
      obtain ⟨entry, there, rfl⟩ := List.mem_map.mp member
      exact Option.isSome_iff_ne_none.mp (SessionCache.session?_isSome there)
    · intro there
      obtain ⟨number, found⟩ := Option.ne_none_iff_exists'.mp there
      exact List.mem_map_of_mem (mem_of_lookup found)
  have equal := ((List.perm_ext_iff_of_nodup once apart).mpr same).length_eq
  rwa [List.length_map, length_served] at equal

theorem exists_mirrors {moves : List (SessionMove ε)}
    (run : runSteps? step? fresh moves = some (calls, sights)) :
    ∃ log cache, Mirrors log cache sights calls := by
  have kept : StepKeeps (step? (ε := ε))
      (fun sights calls => ∃ log cache, Mirrors log cache sights calls) fun _ => True :=
    fun _ _ _ _ _ ⟨_, _, mirrors⟩ _ stepped => mirrors.step (step?_eq_some_iff.mp stepped)
  exact run_holds kept moves fresh calls sights ⟨_, _, mirrors_fresh⟩ (fun _ _ => trivial) run

end SessionCalls

end ChunkedUpload
