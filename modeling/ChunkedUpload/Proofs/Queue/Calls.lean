import ChunkedUpload.Proofs.Queue.Standstill

/-! Calls that are let go on after each act until they stand still move as any others do: all that
happens to them is one of the runs of their queue. -/
namespace ChunkedUpload

variable {α : Type}

namespace QueueCalls

/-- Some acts, numbered from `id` on, and all replies. -/
def acts (calls : QueueCalls α) (id : Nat) :
    List (Act α) → QueueCalls α × List (Nat × QueueReply α)
  | [] => (calls, [])
  | what :: rest =>
    let (next, replies) := calls.step id what
    let (last, later) := next.acts (id + 1) rest
    (last, replies ++ later)

/-- The first call of neither side can proceed. -/
def Stuck (calls : QueueCalls α) : Prop :=
  ∀ sending entry, (calls.waiting.find? fun entry => entry.2.isPut == sending) = some entry →
    attempt calls.queue entry.2 = none

end QueueCalls

namespace QueueUsers

variable {users mid last : QueueUsers α} {id : Nat} {call : QueueCall α}
  {passed rest : List (Nat × QueueCall α)} {replies more : List (Nat × QueueReply α)}

def replied? : QueueSight α → Option (Nat × QueueReply α)
  | .served id _ reply => some (id, reply)
  | .came .. | .left _ => none

/-- Some moves lead to other users, with these replies. -/
def Leads (users : QueueUsers α) (replies : List (Nat × QueueReply α))
    (last : QueueUsers α) : Prop :=
  ∃ moves sights, runSteps? step? users moves = some (last, sights) ∧
    sights.filterMap replied? = replies

namespace Leads

theorem refl (users : QueueUsers α) : Leads users [] users := ⟨[], [], rfl, rfl⟩

theorem move {move : QueueMove α} {sights : List (QueueSight α)}
    (stepped : Stepped users move last sights) : Leads users (sights.filterMap replied?) last :=
  ⟨[move], sights, run_single stepped, rfl⟩

theorem trans (first : Leads users replies mid) (second : Leads mid more last) :
    Leads users (replies ++ more) last := by
  obtain ⟨moves, sights, run, rfl⟩ := first
  obtain ⟨others, later, further, rfl⟩ := second
  exact ⟨moves ++ others, sights ++ later, runSteps_append run further, List.filterMap_append⟩

end Leads

/-- Nothing but the lock stands between the first of a line and its turn. -/
theorem leads_to_turn (sound : users.Sound)
    (first : (users.calls.line call.isPut).head? = some id) :
    ∃ ready, Leads users [] ready ∧ ready.Sound ∧ ready.calls = users.calls ∧
      ready.next = users.next ∧ ready.mayGo id call = true := by
  cases call with
  | put item =>
    have first : (users.calls.line true).head? = some id := first
    exact ⟨users, .refl users, sound, rfl, rfl, by simp [mayGo, first]⟩
  | take =>
    have first : (users.calls.line false).head? = some id := first
    cases holder : users.holder with
    | none =>
      have stepped := Stepped.lock holder first
      exact ⟨_, .move stepped, sound.step stepped, rfl, rfl, by simp [mayGo]⟩
    | some other =>
      obtain rfl : other = id := Option.some.inj ((sound.holder other holder).symm.trans first)
      exact ⟨users, .refl users, sound, rfl, rfl, by simp [mayGo, holder]⟩

/-- A call that is tried in its turn is served in its turn. -/
theorem leads_to_reply (sound : users.Sound) {reply : QueueReply α} {after : Queue α}
    (line : users.calls.waiting = passed ++ (id, call) :: rest)
    (first : ∀ entry ∈ passed, entry.2.isPut ≠ call.isPut)
    (attempted : QueueCalls.attempt users.calls.queue call = some (reply, after)) :
    ∃ next, Leads users [(id, reply)] next ∧ next.Sound ∧ next.calls = ⟨after, passed ++ rest⟩ ∧
      next.next = users.next := by
  have leads : (users.calls.line call.isPut).head? = some id := by
    have none_before : passed.filter (fun entry => entry.2.isPut == call.isPut) = [] :=
      List.filter_eq_nil_iff.mpr fun entry member => by simpa using first entry member
    rw [QueueCalls.line, line, List.filter_append, none_before]
    simp
  obtain ⟨ready, locked, sound, calls, number, turn⟩ := leads_to_turn sound leads
  rw [← calls] at line attempted
  have waits : (id, call) ∈ ready.calls.waiting :=
    line ▸ List.mem_append_right _ List.mem_cons_self
  have stepped := Stepped.serve (sound.find? waits) turn
    (QueueCalls.attempt_eq_some_iff.mp attempted)
  refine ⟨_, locked.trans (.move stepped), sound.step stepped, ?_, number⟩
  simp only [leave, QueueCalls.without, QueueCalls.mk.injEq, true_and, line]
  have once := sound.nodup
  rw [line, List.map_append, List.map_cons, List.nodup_append, List.nodup_cons] at once
  obtain ⟨-, ⟨behind, -⟩, before⟩ := once
  have stays : ∀ entries : List (Nat × QueueCall α), id ∉ entries.map Prod.fst →
      entries.filter (fun entry => entry.1 != id) = entries := by
    intro entries absent
    refine List.filter_eq_self.mpr fun entry member => bne_iff_ne.mpr ?_
    rintro rfl
    exact absent (List.mem_map_of_mem member)
  rw [List.filter_append, List.filter_cons_of_neg (by simp), stays rest behind,
    stays passed fun member => before id member id List.mem_cons_self rfl]

/-- A round tries the calls of both sides in the order of arrival. -/
theorem round_leads (sound : users.Sound) (line : users.calls.waiting = passed ++ rest)
    {result : Queue α × List (Nat × QueueCall α) × List (Nat × QueueReply α)}
    (rounds : QueueCalls.round users.calls.queue passed rest = result) :
    ∃ next, Leads users result.2.2 next ∧ next.Sound ∧ next.calls = ⟨result.1, result.2.1⟩ ∧
      next.next = users.next := by
  induction rest generalizing users passed result with
  | nil =>
    cases rounds
    refine ⟨users, .refl users, sound, ?_, rfl⟩
    rw [List.append_nil] at line
    exact congrArg (QueueCalls.mk users.calls.queue) line
  | cons entry rest ih =>
    obtain ⟨id, call⟩ := entry
    have skipped : users.calls.waiting = (passed ++ [(id, call)]) ++ rest := by
      rw [line, List.append_assoc, List.singleton_append]
    rw [QueueCalls.round] at rounds
    split at rounds
    · exact ih sound skipped rounds
    · rename_i first
      split at rounds
      · exact ih sound skipped rounds
      · rename_i reply after attempted
        have before : ∀ entry ∈ passed, entry.2.isPut ≠ call.isPut := fun entry member same =>
          first (List.any_eq_true.mpr ⟨entry, member, beq_iff_eq.mpr same⟩)
        obtain ⟨next, served, sound, calls, number⟩ := leads_to_reply sound line before attempted
        have same : QueueCalls.round next.calls.queue passed rest =
            QueueCalls.round after passed rest := by rw [calls]
        subst rounds
        obtain ⟨last, further, sound, settled, later⟩ :=
          ih sound (congrArg QueueCalls.waiting calls) same
        exact ⟨last, served.trans further, sound, settled, later.trans number⟩

theorem settleWithin_leads (sound : users.Sound) (fuel : Nat)
    {result : QueueCalls α × List (Nat × QueueReply α)}
    (settles : QueueCalls.settleWithin fuel users.calls = result) :
    ∃ next, Leads users result.2 next ∧ next.Sound ∧ next.calls = result.1 ∧
      next.next = users.next := by
  induction fuel generalizing users result with
  | zero =>
    cases settles
    exact ⟨users, .refl users, sound, rfl, rfl⟩
  | succ fuel ih =>
    rw [QueueCalls.settleWithin] at settles
    split at settles
    · cases settles
      exact ⟨users, .refl users, sound, rfl, rfl⟩
    · rename_i queue waiting replies _ rounds
      obtain ⟨mid, moved, sound, calls, number⟩ := round_leads sound (List.nil_append _).symm rounds
      have same : QueueCalls.settleWithin fuel mid.calls =
          QueueCalls.settleWithin fuel ⟨queue, waiting⟩ := by rw [calls]
      subst settles
      obtain ⟨last, further, sound, settled, later⟩ := ih sound same
      exact ⟨last, moved.trans further, sound, settled, later.trans number⟩

/-- What needs a handle that nobody has free changes nothing. -/
theorem leads_if_idle (sound : users.Sound) (unused : users.next ≤ id) {sending : Bool}
    {after : QueueCalls α}
    (moves : users.calls.idle sending ≠ 0 → ∃ move next sights, Stepped users move next sights ∧
      sights.filterMap replied? = [] ∧ next.calls = after ∧ next.next ≤ id + 1) :
    ∃ next, Leads users [] next ∧ next.Sound ∧
      next.calls = (if users.calls.idle sending = 0 then users.calls else after) ∧
      next.next ≤ id + 1 := by
  by_cases idle : users.calls.idle sending = 0
  · exact ⟨users, .refl users, sound, (if_pos idle).symm, Nat.le_succ_of_le unused⟩
  · obtain ⟨move, next, sights, stepped, quiet, same, number⟩ := moves idle
    exact ⟨next, quiet ▸ .move stepped, sound.step stepped, same.trans (if_neg idle).symm, number⟩

/-- An act is a move, or changes nothing. -/
theorem act_leads (sound : users.Sound) (unused : users.next ≤ id) (what : QueueCalls.Act α) :
    ∃ next, Leads users [] next ∧ next.Sound ∧ next.calls = users.calls.act id what ∧
      next.next ≤ id + 1 := by
  have later := Nat.le_succ_of_le unused
  cases what with
  | enqueue item =>
    exact leads_if_idle sound unused fun idle =>
      ⟨.come id (.put item), _, _, .come unused idle, rfl, rfl, Nat.le_refl _⟩
  | dequeue =>
    exact leads_if_idle sound unused fun idle =>
      ⟨.come id .take, _, _, .come unused idle, rfl, rfl, Nat.le_refl _⟩
  | cancel other =>
    rw [QueueCalls.act]
    cases found : users.calls.waiting.find? fun entry => entry.1 == other with
    | none =>
      rw [QueueCalls.cancel, found]
      exact ⟨users, .refl users, sound, rfl, later⟩
    | some entry =>
      obtain ⟨same, call⟩ := entry
      obtain rfl : same = other := find?_id found
      rw [QueueCalls.cancel_eq found]
      exact ⟨_, .move (.cancel found), sound.step (.cancel found), rfl, later⟩
  | cloneSender =>
    exact leads_if_idle sound unused fun idle =>
      ⟨.clone true, _, _, .clone idle, rfl, rfl, later⟩
  | cloneReceiver =>
    exact leads_if_idle sound unused fun idle =>
      ⟨.clone false, _, _, .clone idle, rfl, rfl, later⟩
  | dropSender =>
    exact leads_if_idle sound unused fun idle => ⟨.drop true, _, _, .drop idle, rfl, rfl, later⟩
  | dropReceiver =>
    exact leads_if_idle sound unused fun idle => ⟨.drop false, _, _, .drop idle, rfl, rfl, later⟩

end QueueUsers

namespace QueueCalls

variable {calls : QueueCalls α} {queue : Queue α} {passed rest : List (Nat × QueueCall α)}

/-- A round keeps the calls that it does not answer. -/
theorem length_round (queue : Queue α) (passed rest : List (Nat × QueueCall α)) :
    (round queue passed rest).2.1.length + (round queue passed rest).2.2.length =
      passed.length + rest.length := by
  induction rest generalizing queue passed with
  | nil => rfl
  | cons entry rest ih =>
    rw [round]
    have skip := ih queue (passed ++ [entry])
    rw [List.length_append, List.length_singleton, Nat.add_assoc, Nat.add_comm 1] at skip
    split
    · exact skip
    · split
      · exact skip
      · rename_i reply after attempted
        exact congrArg (· + 1) (ih after passed)

/-- Where a round answers nobody, the first of each side was tried in vain. -/
theorem stuck_of_round (quiet : (round queue passed rest).2.2 = []) {sending : Bool}
    {entry : Nat × QueueCall α} (none_passed : ∀ other ∈ passed, other.2.isPut ≠ sending)
    (first : (rest.find? fun entry => entry.2.isPut == sending) = some entry) :
    attempt queue entry.2 = none := by
  induction rest generalizing passed with
  | nil => contradiction
  | cons here rest ih =>
    have skip (other : here.2.isPut ≠ sending)
        (quiet : (round queue (passed ++ [here]) rest).2.2 = []) :
        attempt queue entry.2 = none := by
      rw [List.find?_cons_of_neg (by simpa using other)] at first
      refine ih quiet (fun earlier member => ?_) first
      rcases List.mem_append.mp member with before | new
      · exact none_passed earlier before
      · exact List.mem_singleton.mp new ▸ other
    rw [round] at quiet
    split at quiet
    · rename_i waits
      obtain ⟨earlier, member, same⟩ := List.any_eq_true.mp waits
      exact skip (beq_iff_eq.mp same ▸ none_passed earlier member) quiet
    · split at quiet
      · rename_i vain
        by_cases side : here.2.isPut = sending
        · rw [List.find?_cons_of_pos (by simpa using side)] at first
          exact Option.some.inj first ▸ vain
        · exact skip side quiet
      · contradiction

theorem settleWithin_stuck (fuel : Nat) (enough : calls.waiting.length ≤ fuel) :
    (settleWithin fuel calls).1.Stuck := by
  induction fuel generalizing calls with
  | zero =>
    intro sending entry first
    rw [settleWithin, List.eq_nil_of_length_eq_zero (Nat.le_zero.mp enough)] at first
    contradiction
  | succ fuel ih =>
    rw [settleWithin]
    split
    · rename_i quiet
      intro sending entry first
      exact stuck_of_round (congrArg (·.2.2) quiet) nofun first
    · rename_i queue waiting replies some_reply rounds
      have fewer := length_round calls.queue [] calls.waiting
      have answered := List.length_pos_of_ne_nil some_reply
      rw [rounds] at fewer
      simp only [List.length_nil] at fewer
      refine ih ?_
      show waiting.length ≤ fuel
      omega

theorem find?_of_first {id : Nat} {sending : Bool}
    (first : (calls.line sending).head? = some id) :
    ∃ call, (calls.waiting.find? fun entry => entry.2.isPut == sending) = some (id, call) := by
  rw [line, List.head?_map, List.head?_filter, Option.map_eq_some_iff] at first
  obtain ⟨⟨same, call⟩, found, rfl⟩ := first
  exact ⟨call, found⟩

end QueueCalls

namespace QueueUsers

variable {users next : QueueUsers α} {sights : List (QueueSight α)} {id : Nat}

/-- Where the first of each side cannot proceed, nobody can. -/
theorem not_served (sound : users.Sound) (stuck : users.calls.Stuck) :
    ¬ Stepped users (.serve id) next sights := by
  intro stepped
  cases stepped with
  | @serve _ call reply after found turn attempted =>
    have waits := List.mem_of_find?_eq_some found
    have proceeds := QueueCalls.attempt_eq_some_iff.mpr attempted
    have leads {sending : Bool} (first : (users.calls.line sending).head? = some id) : False := by
      obtain ⟨other, leader⟩ := QueueCalls.find?_of_first first
      have vain := stuck sending _ leader
      rw [sound.unique waits (List.mem_of_find?_eq_some leader)] at proceeds
      cases vain.symm.trans proceeds
    cases call with
    | take => exact leads (sound.holder id (beq_iff_eq.mp turn))
    | put item =>
      simp only [mayGo, Bool.or_eq_true, beq_iff_eq] at turn
      rcases turn with closed | first
      · -- the first put would be refused as well
        have stands : id ∈ users.calls.line true := QueueCalls.mem_line.mpr ⟨_, waits, rfl⟩
        obtain ⟨leader, later, line⟩ := List.exists_cons_of_ne_nil (List.ne_nil_of_mem stands)
        have first : (users.calls.line true).head? = some leader := line ▸ rfl
        obtain ⟨call, found⟩ := QueueCalls.find?_of_first first
        have vain := stuck true _ found
        obtain ⟨item, put⟩ := QueueCalls.put_of_first first
        rw [sound.unique (List.mem_of_find?_eq_some found) put, QueueCalls.attempt,
          if_pos closed] at vain
        contradiction
      · exact leads first

theorem standstill_of_stuck (sound : users.Sound) (stuck : users.calls.Stuck)
    (locked : users.holder = none → users.calls.line false = []) : users.Standstill := by
  intro id
  constructor <;> refine Option.eq_none_iff_forall_ne_some.mpr fun ⟨next, sights⟩ stepped => ?_
  · cases step?_eq_some_iff.mp stepped with
    | lock free first =>
      rw [locked free] at first
      contradiction
  · exact not_served sound stuck (step?_eq_some_iff.mp stepped)

/-- Where only the lock is still free, the first take gets it. -/
theorem leads_to_standstill (sound : users.Sound) (stuck : users.calls.Stuck) :
    ∃ last, Leads users [] last ∧ last.Sound ∧ last.calls = users.calls ∧
      last.next = users.next ∧ last.Standstill := by
  by_cases locked : users.holder = none → users.calls.line false = []
  · exact ⟨users, .refl users, sound, rfl, rfl, standstill_of_stuck sound stuck locked⟩
  · obtain ⟨free, takes⟩ := Classical.not_imp.mp locked
    obtain ⟨id, later, line⟩ := List.exists_cons_of_ne_nil takes
    have first : (users.calls.line false).head? = some id := line ▸ rfl
    have stepped := Stepped.lock free first
    exact ⟨_, .move stepped, sound.step stepped, rfl, rfl,
      standstill_of_stuck (sound.step stepped) stuck nofun⟩

/-- An act, and then all moves that it allows. -/
theorem step_leads (sound : users.Sound) (unused : users.next ≤ id) (what : QueueCalls.Act α) :
    ∃ last, Leads users (users.calls.step id what).2 last ∧ last.Sound ∧
      last.calls = (users.calls.step id what).1 ∧ last.next ≤ id + 1 ∧ last.Standstill := by
  obtain ⟨acted, act, sound, calls, number⟩ := act_leads sound unused what
  obtain ⟨settled, moved, sound, same, still⟩ :=
    settleWithin_leads sound acted.calls.waiting.length rfl
  have stuck := QueueCalls.settleWithin_stuck acted.calls.waiting.length (Nat.le_refl _)
  rw [← same] at stuck
  obtain ⟨last, locked, sound, unmoved, unchanged, standstill⟩ := leads_to_standstill sound stuck
  refine ⟨last, ?_, sound, ?_, unchanged ▸ still ▸ number, standstill⟩
  · have all := (act.trans moved).trans locked
    rw [List.nil_append, List.append_nil, calls] at all
    exact all
  · rw [unmoved, same, calls]
    rfl

theorem acts_lead (sound : users.Sound) (unused : users.next ≤ id) (standstill : users.Standstill)
    (whats : List (QueueCalls.Act α)) :
    ∃ last, Leads users (users.calls.acts id whats).2 last ∧
      last.calls = (users.calls.acts id whats).1 ∧ last.Standstill := by
  induction whats generalizing users id with
  | nil => exact ⟨users, .refl users, rfl, standstill⟩
  | cons what rest ih =>
    obtain ⟨mid, acted, sound, calls, number, still⟩ := step_leads sound unused what
    obtain ⟨last, further, settled, standstill⟩ := ih sound number still
    rw [calls] at further settled
    exact ⟨last, acted.trans further, settled, standstill⟩

end QueueUsers

end ChunkedUpload
