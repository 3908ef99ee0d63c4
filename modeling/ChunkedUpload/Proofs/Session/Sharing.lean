import ChunkedUpload.Proofs.Session.Calls

/-! Calls that share sessions. For every order of calls, outcomes and aborts, an endpoint gets one
session at most, which all of its calls share; and what happens at one endpoint is no matter to the
calls for another. -/
namespace ChunkedUpload

namespace SessionCache

variable {ε : Type} {log : Log ε} {cache : SessionCache} {act : CacheAct ε}
  {entry : CacheAct ε × List (Notice ε)} {endpoint other : Int32} {caller : Nat}

section Snoc

variable (endpoint : Int32) (log : Log ε) (entry : CacheAct ε × List (Notice ε))

theorem askers_snoc : askers endpoint (log ++ [entry]) =
    askers endpoint log ++ (entry.1.asks? endpoint).toList := by
  rw [askers, List.filterMap_append, ← askers]
  cases asked : entry.1.asks? endpoint <;> simp [asked]

theorem mem_askers_snoc (caller : Nat) : caller ∈ askers endpoint (log ++ [entry]) ↔
    caller ∈ askers endpoint log ∨ entry.1 = .request caller endpoint := by
  rw [askers_snoc, List.mem_append, Option.mem_toList]
  apply or_congr_right
  cases entry.1 with
  | request other place => by_cases here : place = endpoint <;> simp [CacheAct.asks?, here]
  | complete | abort => simp [CacheAct.asks?]

theorem successes_snoc : successes (log ++ [entry]) =
    successes log ++ entry.1.success?.toList := by
  rw [successes, List.filterMap_append, ← successes]
  cases made : entry.1.success? <;> simp [made]

theorem isDone_snoc (caller : Nat) :
    isDone (log ++ [entry]) caller = (isDone log caller || finishes entry caller) := by
  simp [isDone]

theorem reached_snoc : reached endpoint (log ++ [entry]) =
    reached endpoint log ++ entry.2.filterMap fun notice => notice.begins? endpoint := by
  simp [reached]

theorem filter_snoc {before more : List Nat} (new : ∀ caller ∈ more, isDone log caller = false) :
    (before ++ more).filter (fun caller => !isDone (log ++ [entry]) caller) =
      (before.filter (fun caller => !isDone log caller) ++ more).filter
        fun caller => !finishes entry caller := by
  have still : more.filter (fun caller => !isDone log caller) = more :=
    List.filter_eq_self.mpr fun caller member => by simp [new caller member]
  rw [← still, ← List.filter_append, List.filter_filter, still]
  apply List.filter_congr
  intro caller _
  simp [isDone_snoc, Bool.and_comm]

end Snoc

theorem mem_askers_of_mem_remaining (member : caller ∈ remaining endpoint log) :
    caller ∈ askers endpoint log ∧ isDone log caller = false := by
  simpa [remaining] using member

/-- The cache knows from a log who remains, and which sessions there are. -/
structure Follows (log : Log ε) (cache : SessionCache) : Prop where
  led : cache.Led
  sessions : cache.sessions = successes log
  unique : ((successes log).map Prod.fst).Nodup
  line : ∀ endpoint, (cache.desk endpoint).line = remaining endpoint log
  flying : ∀ endpoint, inFlight endpoint log = (remaining endpoint log).take 1
  served : ∀ endpoint, (cache.session? endpoint).isSome = true → remaining endpoint log = []
  once : ∀ endpoint, (askers endpoint log).Nodup
  only : ∀ endpoint other caller, caller ∈ askers endpoint log → caller ∈ askers other log →
    endpoint = other
  known : ∀ caller, isDone log caller = true → ∃ endpoint, caller ∈ askers endpoint log

theorem Follows.start : Follows ([] : Log ε) empty where
  led := fun _ => rfl
  sessions := rfl
  unique := List.nodup_nil
  line := fun _ => rfl
  flying := fun _ => rfl
  served := fun _ _ => rfl
  once := fun _ => List.nodup_nil
  only := by simp [askers]
  known := by simp [isDone]

/-- An act is one at a single desk, which is in order. -/
theorem Follows.desk (follows : Follows log cache) (fits : act.Fits log) :
    ∃ endpoint, act.Concerns endpoint log ∧ (cache.desk endpoint).Awaits endpoint act ∧
      (cache.act act).2 = ((cache.desk endpoint).act endpoint act).2 ∧
      cache.Changed endpoint ((cache.desk endpoint).act endpoint act).1 (cache.act act).1 := by
  have nodup : ∀ endpoint, (cache.desk endpoint).line.Nodup := fun endpoint =>
    follows.line endpoint ▸ (follows.once endpoint).filter _
  have served : ∀ endpoint, (cache.desk endpoint).session.isSome = true →
      (cache.desk endpoint).line = [] := fun endpoint there =>
    (follows.line endpoint).trans (follows.served endpoint there)
  cases act with
  | request caller endpoint =>
    refine ⟨endpoint, rfl, ⟨nodup _, served _, fun new asked member => ?_, ?_, ?_⟩,
      follows.led.request caller endpoint⟩
    · obtain rfl : caller = new := by simpa [CacheAct.asks?] using asked
      rw [follows.line] at member
      exact fits _ (mem_askers_of_mem_remaining member).1
    · rintro _ _ ⟨⟩
    · rintro _ _ ⟨⟩
      rfl
  | complete endpoint outcome =>
    have standing : (cache.desk endpoint).line ≠ [] := by
      intro nobody
      rw [follows.line] at nobody
      exact fits (by rw [follows.flying, nobody]; rfl)
    obtain ⟨creator, rest, first⟩ := List.exists_cons_of_ne_nil standing
    have unserved : cache.session? endpoint = none := by
      cases there : cache.session? endpoint with
      | none => rfl
      | some session =>
        exact absurd (served endpoint (Option.isSome_of_eq_some there)) standing
    refine ⟨endpoint, rfl, ⟨nodup _, served _, ?_, ?_, ?_⟩,
      follows.led.complete first unserved outcome⟩
    · simp [CacheAct.asks?]
    · exact fun _ _ _ => standing
    · rintro _ _ ⟨⟩
  | abort caller =>
    obtain ⟨endpoint, asked⟩ := fits
    refine ⟨endpoint, asked, ⟨nodup _, served _, ?_, ?_, ?_⟩,
      follows.led.abort (nodup _) fun other member => ?_⟩
    · simp [CacheAct.asks?]
    · rintro _ _ ⟨⟩
    · rintro _ _ ⟨⟩
    · rw [follows.line] at member
      exact follows.only _ _ _ (mem_askers_of_mem_remaining member).1 asked

theorem Follows.elsewhere (follows : Follows log cache) (fits : act.Fits log)
    (concerns : act.Concerns endpoint log) (awaits : (cache.desk endpoint).Awaits endpoint act)
    (notices : (cache.act act).2 = ((cache.desk endpoint).act endpoint act).2)
    (other : Int32) (apart : other ≠ endpoint) :
    remaining other (log ++ [(act, (cache.act act).2)]) = remaining other log ∧
    inFlight other (log ++ [(act, (cache.act act).2)]) = inFlight other log := by
  have unasked : act.asks? other = none := by
    cases act with
    | request caller place =>
      obtain rfl : place = endpoint := concerns
      simp [CacheAct.asks?, Ne.symm apart]
    | complete | abort => rfl
  have unbegun : (cache.act act).2.filterMap (fun notice => notice.begins? other) = [] := by
    refine List.eq_nil_iff_forall_not_mem.mpr fun caller member => apart ?_
    rw [notices] at member
    exact (Desk.begins_act awaits.here member).1
  have stays : ∀ caller ∈ remaining other log,
      finishes (act, (cache.act act).2) caller = false := by
    intro caller member
    have asked := (mem_askers_of_mem_remaining member).1
    rw [← Bool.not_eq_true, notices]
    intro finished
    rcases Desk.finishes_act finished with there | ⟨place, rfl⟩ | rfl
    · rw [follows.line] at there
      exact apart (follows.only _ _ _ asked (mem_askers_of_mem_remaining there).1)
    · exact fits _ asked
    · exact apart (follows.only _ _ _ asked concerns)
  constructor
  · rw [remaining, askers_snoc, unasked, filter_snoc _ _ (by simp)]
    rw [Option.toList_none, List.append_nil]
    exact List.filter_eq_self.mpr fun caller member => by rw [stays caller member]; rfl
  · rw [inFlight, reached_snoc, unbegun, filter_snoc _ _ (by simp), List.append_nil]
    apply List.filter_eq_self.mpr
    intro caller member
    change caller ∈ inFlight other log at member
    rw [follows.flying] at member
    rw [stays caller (List.mem_of_mem_take member)]
    rfl

theorem Follows.here (follows : Follows log cache) (fits : act.Fits log)
    (awaits : (cache.desk endpoint).Awaits endpoint act)
    (notices : (cache.act act).2 = ((cache.desk endpoint).act endpoint act).2) :
    remaining endpoint (log ++ [(act, (cache.act act).2)]) =
      ((cache.desk endpoint).act endpoint act).1.line ∧
    inFlight endpoint (log ++ [(act, (cache.act act).2)]) =
      ((cache.desk endpoint).act endpoint act).1.line.take 1 := by
  obtain ⟨line, first⟩ := awaits.line
  have new : ∀ caller, act.asks? endpoint = some caller → isDone log caller = false := by
    intro caller asked
    rw [← Bool.not_eq_true]
    intro gone
    obtain ⟨place, there⟩ := follows.known caller gone
    cases act with
    | request other at_place =>
      obtain rfl : other = caller := by
        simp only [CacheAct.asks?] at asked
        split at asked <;> simp_all
      exact fits place there
    | complete | abort => cases asked
  constructor
  · rw [remaining, askers_snoc, filter_snoc _ _ (by simpa using new), line, follows.line, notices]
    rfl
  · rw [inFlight, reached_snoc, filter_snoc, first, follows.line, ← follows.flying, notices]
    · rfl
    · intro caller begun
      rw [notices] at begun
      rcases (Desk.begins_act awaits.here begun).2 with there | asked
      · rw [follows.line] at there
        exact (mem_askers_of_mem_remaining there).2
      · exact new caller asked

theorem session?_isSome {session : Nat} (there : (endpoint, session) ∈ cache.sessions) :
    (cache.session? endpoint).isSome = true := by
  rw [session?, lookup_eq_head?, Option.isSome_iff_ne_none, ne_eq, List.head?_eq_none_iff]
  exact List.ne_nil_of_mem (mem_callersAt.mpr there)

theorem sessions_passOn (cache : SessionCache) (endpoint : Int32) :
    (cache.passOn endpoint : SessionCache × List (Notice ε)).1.sessions = cache.sessions := by
  unfold passOn
  dsimp only
  split <;> rfl

theorem sessions_act (due : ∀ endpoint outcome, act = .complete endpoint outcome →
    (cache.creator? endpoint).isSome = true) :
    (cache.act act).1.sessions = cache.sessions ++ act.success?.toList := by
  cases act with
  | request caller endpoint =>
    have same : (cache.request caller endpoint : SessionCache × List (Notice ε)).1.sessions =
        cache.sessions := by
      unfold request
      split
      · rfl
      · split <;> rfl
    simpa [SessionCache.act, CacheAct.success?] using same
  | complete endpoint outcome =>
    obtain ⟨creator, found⟩ := Option.isSome_iff_exists.mp (due endpoint outcome rfl)
    cases outcome with
    | ok session => simp [SessionCache.act, complete, found, CacheAct.success?]
    | error error =>
      simp [SessionCache.act, complete, found, CacheAct.success?, sessions_passOn]
  | abort caller =>
    have same : (cache.abort caller : SessionCache × List (Notice ε)).1.sessions =
        cache.sessions := by
      unfold abort
      split
      · exact sessions_passOn _ _
      · rfl
    simpa [SessionCache.act, CacheAct.success?] using same

theorem Follows.step (follows : Follows log cache) (fits : act.Fits log) :
    Follows (log ++ [(act, (cache.act act).2)]) (cache.act act).1 := by
  obtain ⟨endpoint, concerns, awaits, notices, changed⟩ := follows.desk fits
  obtain ⟨line, flying⟩ := follows.here fits awaits notices
  have elsewhere := follows.elsewhere fits concerns awaits notices
  have sessions : (cache.act act).1.sessions = cache.sessions ++ act.success?.toList := by
    refine sessions_act fun place outcome same => ?_
    subst same
    obtain rfl : place = endpoint := concerns
    obtain ⟨creator, rest, first⟩ := List.exists_cons_of_ne_nil (awaits.flying place outcome rfl)
    rw [follows.led.creator?, first]
    rfl
  refine ⟨changed.led, ?_, ?_, fun other => ?_, fun other => ?_, fun other => ?_, fun other => ?_,
    fun first second caller => ?_, fun caller gone => ?_⟩
  · rw [sessions, follows.sessions, successes_snoc]
  · rw [successes_snoc, List.map_append, List.nodup_append]
    refine ⟨follows.unique, by cases act.success? <;> simp, fun place before _ new same => ?_⟩
    subst same
    cases act with
    | complete finished outcome =>
      have here : finished = endpoint := concerns
      cases outcome with
      | ok session =>
        -- whoever has a session has nobody in line
        obtain rfl : place = endpoint := by simpa [CacheAct.success?, here] using new
        obtain ⟨⟨_, old⟩, member, rfl⟩ := List.mem_map.mp before
        rw [← follows.sessions] at member
        exact awaits.flying _ _ rfl (awaits.served (session?_isSome member))
      | error => simp [CacheAct.success?] at new
    | request | abort => simp [CacheAct.success?] at new
  · rw [changed.desks]
    by_cases here : other = endpoint
    · subst here
      rw [if_pos rfl, line]
    · rw [if_neg here, (elsewhere other here).1, follows.line]
  · by_cases here : other = endpoint
    · subst here
      rw [flying, line]
    · rw [(elsewhere other here).1, (elsewhere other here).2, follows.flying]
  · intro there
    have same : (cache.act act).1.session? other = ((cache.act act).1.desk other).session := rfl
    rw [same, changed.desks] at there
    by_cases here : other = endpoint
    · subst here
      rw [if_pos rfl] at there
      rw [line, awaits.served_act there]
    · rw [if_neg here] at there
      rw [(elsewhere other here).1, follows.served other there]
  · rw [askers_snoc, List.nodup_append]
    refine ⟨follows.once other, by cases act.asks? other <;> simp, fun old there _ new same => ?_⟩
    subst same
    cases act with
    | request caller place =>
      obtain ⟨_, rfl⟩ : place = other ∧ caller = old := by
        simpa [CacheAct.asks?] using new
      exact fits other there
    | complete | abort => simp [CacheAct.asks?] at new
  · rw [mem_askers_snoc, mem_askers_snoc]
    rintro (one | rfl) (two | two)
    · exact follows.only first second caller one two
    · subst two
      exact absurd one (fits first)
    · exact absurd two (fits second)
    · exact (CacheAct.request.inj two).2
  · rw [isDone_snoc, Bool.or_eq_true] at gone
    rcases gone with before | now
    · obtain ⟨place, asked⟩ := follows.known caller before
      exact ⟨place, (mem_askers_snoc _ _ _ _).mpr (.inl asked)⟩
    · rw [notices] at now
      rcases Desk.finishes_act now with there | ⟨place, rfl⟩ | rfl
      · rw [follows.line] at there
        exact ⟨endpoint, (mem_askers_snoc _ _ _ _).mpr
          (.inl (mem_askers_of_mem_remaining there).1)⟩
      · exact ⟨place, (mem_askers_snoc _ _ _ _).mpr (.inr rfl)⟩
      · exact ⟨endpoint, (mem_askers_snoc _ _ _ _).mpr (.inl concerns)⟩

variable {before after : Log ε} {notices : List (Notice ε)}

theorem Run.follows (run : Run log cache) : Follows log cache := by
  induction run with
  | start => exact .start
  | step _ fits follows => exact follows.step fits

theorem Run.split (run : Run (before ++ (act, notices) :: after) cache) :
    ∃ mid, Run before mid ∧ act.Fits before ∧ notices = (mid.act act).2 := by
  generalize whole : before ++ (act, notices) :: after = log at run
  induction run generalizing after with
  | start => simp at whole
  | @step log mid _ ran fits ih =>
    rcases List.eq_nil_or_concat' after with rfl | ⟨others, last, rfl⟩
    · obtain ⟨rfl, same⟩ := List.append_inj' whole rfl
      cases same
      exact ⟨mid, ran, fits, rfl⟩
    · rw [← List.cons_append, ← List.append_assoc] at whole
      exact ih (List.append_inj' whole rfl).1

theorem mem_askers_append (asked : caller ∈ askers endpoint before) (after : Log ε) :
    caller ∈ askers endpoint (before ++ after) := by
  rw [askers, List.filterMap_append]
  exact List.mem_append_left _ asked

theorem mem_successes_append {made : Int32 × Nat} (there : made ∈ successes before)
    (after : Log ε) : made ∈ successes (before ++ after) := by
  rw [successes, List.filterMap_append]
  exact List.mem_append_left _ there

theorem Follows.success {session : Nat} (follows : Follows log cache)
    (there : cache.session? endpoint = some session) : (endpoint, session) ∈ successes log := by
  rw [session?, lookup_eq_head?] at there
  rw [← follows.sessions]
  exact mem_callersAt.mp (List.mem_of_head? there)

theorem Follows.served_of_success {session : Nat} (follows : Follows log cache)
    (made : (endpoint, session) ∈ successes log) : (cache.desk endpoint).session.isSome = true := by
  rw [← follows.sessions] at made
  exact session?_isSome made

theorem Run.answered {session : Nat} (run : Run log cache) (asked : caller ∈ askers endpoint log)
    (member : (act, notices) ∈ log) (answer : .answered caller (.ok session) ∈ notices) :
    (endpoint, session) ∈ successes log := by
  obtain ⟨before, after, rfl⟩ := List.append_of_mem member
  obtain ⟨mid, ran, fits, rfl⟩ := run.split
  obtain ⟨place, -, awaits, notices, changed⟩ := ran.follows.desk fits
  rw [notices] at answer
  obtain ⟨held, whose⟩ := Desk.session_of_answer answer
  rw [List.append_cons] at run asked ⊢
  have made : (place, session) ∈ successes (before ++ [(act, (mid.act act).2)]) := by
    apply (ran.follows.step fits).success
    change ((mid.act act).1.desk place).session = some session
    rw [changed.desks, if_pos rfl, held]
  have here : caller ∈ askers place (before ++ [(act, (mid.act act).2)]) := by
    rw [mem_askers_snoc]
    rcases whose with there | ⟨other, rfl⟩
    · rw [ran.follows.line] at there
      exact .inl (mem_askers_of_mem_remaining there).1
    · exact .inr (awaits.here caller other rfl ▸ rfl)
  obtain rfl := run.follows.only _ _ _ asked (mem_askers_append here after)
  exact mem_successes_append made after

theorem Run.kept {session : Nat} (run : Run (before ++ after) cache)
    (made : (endpoint, session) ∈ successes before) : reached endpoint after = [] := by
  rw [reached, List.flatMap_eq_nil_iff]
  rintro ⟨act, notices⟩ member
  obtain ⟨first, last, rfl⟩ := List.append_of_mem member
  rw [← List.append_assoc] at run
  obtain ⟨mid, ran, fits, rfl⟩ := run.split
  obtain ⟨place, -, awaits, notices, -⟩ := ran.follows.desk fits
  have there := ran.follows.served_of_success (mem_successes_append made first)
  refine List.eq_nil_iff_forall_not_mem.mpr fun caller begun => ?_
  rw [notices] at begun
  have here := (Desk.begins_act awaits.here begun).1
  subst here
  rw [awaits.begins_served there] at begun
  contradiction

theorem Run.failed {error : ε} (run : Run (before ++ (act, notices) :: after) cache)
    (answer : .answered caller (.error error) ∈ notices) :
    ∃ endpoint, act = .complete endpoint (.error error) ∧ inFlight endpoint before = [caller] := by
  obtain ⟨mid, ran, fits, rfl⟩ := run.split
  obtain ⟨place, concerns, -, notices, -⟩ := ran.follows.desk fits
  rw [notices] at answer
  obtain ⟨⟨other, rfl⟩, first⟩ := Desk.failure_of_answer answer
  have here : other = place := concerns
  subst here
  rw [ran.follows.line] at first
  exact ⟨other, rfl, by rw [ran.follows.flying, first]⟩

theorem Run.taken_over {creator : Nat} (run : Run (before ++ (act, notices) :: after) cache)
    (creates : inFlight endpoint before = [creator])
    (ended : (∃ error, act = .complete endpoint (.error error)) ∨ act = .abort creator) :
    remaining endpoint (before ++ [(act, notices)]) = (remaining endpoint before).drop 1 ∧
    reached endpoint [(act, notices)] = ((remaining endpoint before).drop 1).take 1 := by
  obtain ⟨mid, ran, fits, rfl⟩ := run.split
  obtain ⟨place, concerns, awaits, notices, -⟩ := ran.follows.desk fits
  rw [ran.follows.flying] at creates
  have here : endpoint = place := by
    rcases ended with ⟨error, rfl⟩ | rfl
    · exact concerns
    · have asked : creator ∈ remaining endpoint before :=
        List.mem_of_mem_take (creates ▸ List.mem_singleton_self creator)
      exact ran.follows.only _ _ _ (mem_askers_of_mem_remaining asked).1 concerns
  subst here
  have first := creates
  rw [← ran.follows.line] at first ⊢
  obtain ⟨line, begun⟩ := awaits.taken_over first
    (ended.imp_left fun ⟨error, same⟩ => ⟨endpoint, error, same⟩)
  constructor
  · rw [(ran.follows.here fits awaits notices).1, line]
  · simpa [reached, notices] using begun

section Apart

variable {own : SessionCache}

theorem concerns_snoc (old : ∀ caller, act = .abort caller → entry.1 ≠ .request caller endpoint) :
    act.Concerns endpoint (log ++ [entry]) ↔ act.Concerns endpoint log := by
  cases act with
  | request | complete => rfl
  | abort caller =>
    change caller ∈ askers endpoint _ ↔ caller ∈ askers endpoint _
    rw [mem_askers_snoc]
    exact or_iff_left (old caller rfl)

/-- A call that is aborted has been made, so that no later one makes a difference. -/
theorem Follows.logAt_snoc (follows : Follows log cache) (fits : act.Fits log)
    (endpoint : Int32) (notices : List (Notice ε)) :
    logAt endpoint (log ++ [(act, notices)]) =
      logAt endpoint log ++ if act.Concerns endpoint log then [(act, notices)] else [] := by
  have before : log.filter (fun old => old.1.Concerns endpoint (log ++ [(act, notices)])) =
      logAt endpoint log := by
    refine List.filter_congr fun old member => decide_eq_decide.mpr (concerns_snoc ?_)
    rintro caller same rfl
    have done : isDone log caller = true :=
      List.any_eq_true.mpr ⟨old, member, by simp [finishes, same, CacheAct.aborts]⟩
    obtain ⟨place, asked⟩ := follows.known caller done
    exact fits place asked
  have last : act.Concerns endpoint (log ++ [(act, notices)]) ↔ act.Concerns endpoint log := by
    apply concerns_snoc
    rintro caller rfl ⟨⟩
  rw [logAt, List.filter_append, before, List.filter_singleton]
  simp only [last, Bool.cond_decide]

theorem askers_logAt (endpoint : Int32) (log : Log ε) :
    askers endpoint (logAt endpoint log) = askers endpoint log := by
  rw [askers, logAt, List.filterMap_filter, askers]
  refine List.filterMap_congr fun entry _ => ?_
  cases act : entry.1 with
  | request caller other =>
    by_cases here : other = endpoint <;> simp [CacheAct.Concerns, CacheAct.asks?, here]
  | complete | abort => simp [CacheAct.asks?]

theorem mem_askers_of_logAt (asked : caller ∈ askers other (logAt endpoint log)) :
    caller ∈ askers other log :=
  (List.filter_sublist.filterMap _).mem asked

theorem Follows.concerns_unique (follows : Follows log cache)
    (first : act.Concerns endpoint log) (second : act.Concerns other log) : endpoint = other := by
  cases act with
  | request | complete => exact first.symm.trans second
  | abort caller => exact follows.only _ _ _ first second

/-- Other endpoints put aside, the calls for one get the same answers at the same turns. -/
theorem Run.apart (run : Run log cache) (endpoint : Int32) :
    ∃ own, Run (logAt endpoint log) own ∧ own.desk endpoint = cache.desk endpoint := by
  induction run with
  | start => exact ⟨empty, .start, rfl⟩
  | @step log cache act ran fits ih =>
    obtain ⟨own, ranOwn, same⟩ := ih
    obtain ⟨place, concerns, -, notices, changed⟩ := ran.follows.desk fits
    rw [ran.follows.logAt_snoc fits]
    by_cases here : act.Concerns endpoint log
    · obtain rfl := ran.follows.concerns_unique here concerns
      have fitsOwn : act.Fits (logAt endpoint log) := by
        cases act with
        | request caller => exact fun other asked => fits other (mem_askers_of_logAt asked)
        | complete other =>
          obtain rfl : other = endpoint := here
          change inFlight other _ ≠ []
          rw [ranOwn.follows.flying, ← ranOwn.follows.line, same, ran.follows.line,
            ← ran.follows.flying]
          exact fits
        | abort caller => exact ⟨endpoint, (askers_logAt endpoint log).symm ▸ here⟩
      obtain ⟨other, there, -, noticesOwn, changedOwn⟩ := ranOwn.follows.desk fitsOwn
      obtain rfl : endpoint = other := by
        refine ran.follows.concerns_unique here ?_
        cases act with
        | request | complete => exact there
        | abort caller => exact mem_askers_of_logAt there
      have turn : (own.act act).2 = (cache.act act).2 := by rw [notices, noticesOwn, same]
      refine ⟨(own.act act).1, ?_, ?_⟩
      · rw [if_pos here, ← turn]
        exact ranOwn.step fitsOwn
      · rw [changed.desks, changedOwn.desks, if_pos rfl, if_pos rfl, same]
    · refine ⟨own, by simpa [here] using ranOwn, ?_⟩
      have away : endpoint ≠ place := by
        rintro rfl
        exact here concerns
      rw [changed.desks, if_neg away, same]

end Apart

/-- What the calls that share sessions can rely on, whatever has happened so far. -/
structure Shared (log : Log ε) (cache : SessionCache) : Prop where
  /-- For every endpoint the call that has waited longest is creating a session, and no other. -/
  creating : ∀ endpoint, inFlight endpoint log = (remaining endpoint log).take 1
  once : ((successes log).map Prod.fst).Nodup
  counted : cache.size = (successes log).length
  answered : ∀ endpoint caller session act notices, caller ∈ askers endpoint log →
    (act, notices) ∈ log → .answered caller (.ok session) ∈ notices →
    (endpoint, session) ∈ successes log
  /-- A session that is there serves all who have come and who come. -/
  kept : ∀ before after endpoint session, log = before ++ after →
    (endpoint, session) ∈ successes before →
    reached endpoint after = [] ∧ remaining endpoint log = []
  failed : ∀ before after act notices caller error, log = before ++ (act, notices) :: after →
    .answered caller (.error error) ∈ notices →
    ∃ endpoint, act = .complete endpoint (.error error) ∧ inFlight endpoint before = [caller]
  /-- A creation that fails or is aborted goes to the next in line. -/
  takenOver : ∀ before after act notices endpoint creator,
    log = before ++ (act, notices) :: after → inFlight endpoint before = [creator] →
    (∃ error, act = .complete endpoint (.error error)) ∨ act = .abort creator →
    remaining endpoint (before ++ [(act, notices)]) = (remaining endpoint before).drop 1 ∧
    reached endpoint [(act, notices)] = ((remaining endpoint before).drop 1).take 1
  /-- What happens at one endpoint can happen without all others, and with the same answers. -/
  apart : ∀ endpoint, ∃ own, Run (logAt endpoint log) own ∧ own.desk endpoint = cache.desk endpoint

theorem shared_of_run (run : Run log cache) : Shared log cache where
  creating := run.follows.flying
  once := run.follows.unique
  counted := by rw [size, run.follows.sessions]
  answered := fun _ _ _ _ _ asked member answer => run.answered asked member answer
  kept := by
    rintro before after endpoint session rfl made
    have there := run.follows.served_of_success (mem_successes_append made after)
    exact ⟨run.kept made, run.follows.served endpoint there⟩
  failed := by
    rintro before after act notices caller error rfl answer
    exact run.failed answer
  takenOver := by
    rintro before after act notices endpoint creator rfl creates ended
    exact run.taken_over creates ended
  apart := run.apart

/-- While another endpoint is served, the first of three calls fails and the second is aborted: the
third gets the session. -/
theorem shared_after_failure_and_abort :
    let log : Log Unit := [(.request 0 2, [.begun 0 2]), (.request 1 2, []), (.request 2 2, []),
      (.request 3 4, [.begun 3 4]), (.complete 4 (.ok 8), [.answered 3 (.ok 8)]),
      (.complete 2 (.error ()), [.answered 0 (.error ()), .begun 1 2]), (.abort 1, [.begun 2 2]),
      (.complete 2 (.ok 7), [.answered 2 (.ok 7)])]
    let cache : SessionCache := ⟨[(4, 8), (2, 7)], [], []⟩
    Run log cache ∧ Shared log cache := by
  intro log cache
  have first : @Run Unit [(.request 0 2, [.begun 0 2])] _ :=
    .step .start (by simp [CacheAct.Fits, askers])
  have second : @Run Unit [(.request 0 2, [.begun 0 2]), (.request 1 2, [])] _ :=
    .step first (by simp [CacheAct.Fits, askers, CacheAct.asks?])
  have asked : @Run Unit [(.request 0 2, [.begun 0 2]), (.request 1 2, []),
      (.request 2 2, []), (.request 3 4, [.begun 3 4])] _ :=
    .step (.step second (by simp [CacheAct.Fits, askers, CacheAct.asks?]))
      (by simp [CacheAct.Fits, askers, CacheAct.asks?])
  have failed : Run (log.take 6) _ :=
    .step (.step asked (by change inFlight _ _ ≠ []; decide)) (by change inFlight _ _ ≠ []; decide)
  have run : Run log cache :=
    .step (.step failed (by exact ⟨2, by decide⟩)) (by change inFlight _ _ ≠ []; decide)
  exact ⟨run, shared_of_run run⟩

end SessionCache

end ChunkedUpload
