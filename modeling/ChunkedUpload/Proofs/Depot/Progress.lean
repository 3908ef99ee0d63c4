import ChunkedUpload.Proofs.Admission
import ChunkedUpload.Proofs.Depot.Saving
import ChunkedUpload.Proofs.Keys
import ChunkedUpload.Proofs.Upload.Alike
import ChunkedUpload.Proofs.Uploaders.Company

/-! What a call can do that has a store to itself. If each request is written as soon as a worker
has taken it, whether or not it is written to its end, then every run of the upload on its own is
one that it can make over the store. -/
namespace ChunkedUpload

/-- What workers and the session do with requests is told by two kinds of events, one at a time. -/
theorem Upload.Step.heard {upload next : Upload} {move : Move} {events : List Event}
    (step : Step upload move events next) :
    (events.filterMap Event.started? = [] ∧ events.filterMap Event.ended? = []) ∨
    (∃ request, events = [.started request]) ∨
    ∃ request reply, events = [.ended request reply] := by
  cases step with
  | dispatched _ step =>
    cases step with
    | @took _ _ begun =>
      cases begun with
      | none => exact .inl ⟨rfl, rfl⟩
      | some request => exact .inr (.inl ⟨request, rfl⟩)
    | finished => exact .inr (.inr ⟨_, _, rfl⟩)
    | notified | deserted => exact .inl (by simp [Dispatch.shown, Event.started?, Event.ended?])
    | _ => exact .inl ⟨rfl, rfl⟩
  | _ => exact .inl ⟨rfl, rfl⟩

namespace Uploaders

/-- One uploader whose slots are free, and calls that hold none. -/
def vacant (slots : Nat) (resends : List Nat) (calls : List (Nat × SaveCall))
    (waits : List (Nat × ResendWait)) : Uploaders :=
  ⟨[⟨slots + 1, slots + 1, [], []⟩], [⟨0, resends⟩], calls, waits⟩

/-- One more call, which holds a slot till it has its answer. -/
def occupied (slots : Nat) (resends : List Nat) (calls : List (Nat × SaveCall))
    (waits : List (Nat × ResendWait)) (id : Nat) (upload : Upload) : Uploaders :=
  ⟨[if upload.result.isSome then ⟨slots + 1, slots + 1, [], []⟩
    else ⟨slots + 1, slots, [id], []⟩], [⟨0, resends⟩], calls ++ [(id, ⟨0, upload⟩)], waits⟩

section Occupied

variable {slots id : Nat} {resends : List Nat} {calls : List (Nat × SaveCall)}
  {waits : List (Nat × ResendWait)} {upload next : Upload} {move : Move} {events : List Event}
  {again : Bool}

theorem step?_save (job : UploadJob) : (vacant slots resends calls waits).step?
    (.save id 0 job false) =
      some (occupied slots resends calls waits id (Upload.begin job false), []) := by
  simp [step?, vacant, occupied, updateLimiter, Upload.begin, Admission.request_of_free]

theorem occupied_of_answered (answered : upload.result.isSome = true) :
    occupied slots resends calls waits id upload =
      vacant slots resends (calls ++ [(id, ⟨0, upload⟩)]) waits := by
  rw [occupied, if_pos answered]
  rfl

theorem call?_occupied (new : calls.lookup id = none) (upload : Upload) :
    (occupied slots resends calls waits id upload).call? id = some ⟨0, upload⟩ := by
  rw [call?, occupied, lookup_snoc, new, if_pos rfl, Option.none_or]

theorem map_set_of_new {α : Type} {entries : List (Nat × α)} (new : entries.lookup id = none)
    (value : α) :
    (entries.map fun entry => if entry.1 = id then (id, value) else entry) = entries := by
  refine (List.map_congr_left fun entry member => if_neg ?_).trans (List.map_id _)
  rintro rfl
  exact notMem_keys new (List.mem_map_of_mem member)

/-- The uploader keeps the number of a call that gets its answer with a part still to send. -/
def recorded (again : Bool) (id : Nat) (before after : Upload) (resends : List Nat) : List Nat :=
  if again && before.result.isNone && after.result.isSome then resends ++ [id] else resends

theorem recorded_self (again : Bool) (id : Nat) (upload : Upload) (resends : List Nat) :
    recorded again id upload upload resends = resends := by
  cases answer : upload.result <;> simp [recorded, answer]

theorem recorded_trans {before mid after : Upload}
    (first : before.result.isSome = true → mid.result.isSome = true)
    (later : mid.result.isSome = true → after.result.isSome = true) :
    recorded again id mid after (recorded again id before mid resends) =
      recorded again id before after resends := by
  unfold recorded
  cases one : before.result <;> cases two : mid.result <;> cases three : after.result <;> simp_all

theorem step?_occupied (new : calls.lookup id = none) (answered : upload.Answered)
    (stepped : upload.step? move = some (next, events))
    (queued : next.result.isSome = true → queuedResend next = again) :
    (occupied slots resends calls waits id upload).step? (.move id move) =
      some (occupied slots (recorded again id upload next resends) calls waits id next,
        events) := by
  have step := Upload.step_of_step? answered.dispatch stepped
  have limited : (occupied slots resends calls waits id upload).limiter? 0 =
      some (if upload.result.isSome then ⟨slots + 1, slots + 1, [], []⟩
        else ⟨slots + 1, slots, [id], []⟩) := rfl
  rw [step?_move (call?_occupied new upload) limited ?_ stepped]
  · cases before : upload.result with
    | some result =>
      obtain ⟨after, same⟩ : ∃ after, next.result = some after := by
        refine Option.ne_none_iff_exists'.mp fun none_left => ?_
        simp [Upload.unanswered_of_step step answered.dispatch none_left] at before
      simp [occupied, recorded, before, same, setCall, map_set_of_new new]
    | none =>
      cases after : next.result with
      | none => simp [occupied, recorded, before, after, setCall, map_set_of_new new]
      | some result =>
        rw [after] at queued
        cases again <;> simp [occupied, recorded, before, after, setCall, map_set_of_new new,
          settleResult, queued rfl, updateLimiter, updateUploader, Admission.leave_of_only]
  · rintro rfl
    cases step with
    | entered stage =>
      have unanswered : upload.result = none := by
        simpa only [Upload.Answered, stage] using answered
      simp [unanswered]
    | dispatched _ step => cases step

end Occupied

end Uploaders

/-- How far a request can be written that a worker has begun with, and the files that are left. -/
inductive Store.Writes (store : Store) (request : PartRequest) (first : FileSystem) :
    FileSystem → WriteStage → Prop
  | begun : Writes store request first first .begun
  | step {files after : FileSystem} {stage : WriteStage} {move : WriteMove} {next : PartWriting}
      (earlier : Writes store request first files stage)
      (stepped : PartWriting.step? store files (.ofEntry (request, stage)) move =
        some (next, after)) :
      Writes store request first after next.stage

section Writes

variable {store : Store} {request : PartRequest} {files after : FileSystem} {stage : WriteStage}
  {error : IoError}

/-- What can be put in one go can be written till nothing but its name is missing. -/
theorem Store.flushed_of_deliver (some_bytes : 0 < request.payload.size)
    (put : store.deliver request files = (.ok (), after)) :
    ∃ flushed, store.Writes request files flushed .flushed ∧
      FileSystem.rename (store.temporaryPath request.fileId request.part)
        (store.partPath request.fileId request.part) flushed = (.ok (), after) := by
  obtain ⟨_, placed, made, opens⟩ := FileSystem.of_bind_ok put
  obtain ⟨handle, opened, created, writes⟩ := FileSystem.of_bind_ok opens
  obtain ⟨_, filled, wrote, flushes⟩ := FileSystem.of_bind_ok writes
  obtain ⟨_, flushed, kept, renames⟩ := FileSystem.of_bind_ok flushes
  have placing : PartWriting.step? store files (.ofEntry (request, .begun)) .proceed =
      some (.ofEntry (request, .placed), placed) := by
    simp [PartWriting.step?, PartWriting.after, PartWriting.ofEntry, made]
  have opening : PartWriting.step? store placed (.ofEntry (request, .placed)) .proceed =
      some (.ofEntry (request, .writing handle 0), opened) := by
    simp [PartWriting.step?, PartWriting.after, PartWriting.ofEntry, created]
  have whole : request.payload.size ≠ 0 := Nat.ne_of_gt some_bytes
  have writing : PartWriting.step? store opened (.ofEntry (request, .writing handle 0))
      (.write request.payload.size) =
      some (.ofEntry (request, .writing handle request.payload.size), filled) := by
    simp [PartWriting.step?, PartWriting.after, PartWriting.ofEntry, wrote, whole]
  have flushing : PartWriting.step? store filled
      (.ofEntry (request, .writing handle request.payload.size)) .proceed =
      some (.ofEntry (request, .flushed), flushed) := by
    simp [PartWriting.step?, PartWriting.after, PartWriting.ofEntry, kept]
  exact ⟨flushed, (((Writes.begun.step placing).step opening).step writing).step flushing, renames⟩

theorem Store.writes_of_deliver (some_bytes : 0 < request.payload.size)
    (put : store.deliver request files = (.ok (), after)) :
    store.Writes request files after .done := by
  obtain ⟨flushed, written, renamed⟩ := Store.flushed_of_deliver some_bytes put
  have naming : PartWriting.step? store flushed (.ofEntry (request, .flushed)) .proceed =
      some (.ofEntry (request, .done), after) := by
    simp [PartWriting.step?, PartWriting.after, PartWriting.ofEntry, renamed]
  exact written.step naming

theorem Store.Writes.fail (written : store.Writes request files after stage)
    (going : (PartWriting.ofEntry (request, stage)).isOver = false) (error : IoError) :
    store.Writes request files after (.failed error) := by
  have failing : PartWriting.step? store after (.ofEntry (request, stage)) (.fail error) =
      some (.ofEntry (request, .failed error), after) := by
    rw [PartWriting.step?, going]
    rfl
  exact written.step failing

end Writes

namespace Depot

variable {store : Store} {reply : Reply} {stage : WriteStage} {again : Bool}
  {held : List PartRequest → FileSystem} {requests : List PartRequest} {Allowed : Move → Prop}
  {Keeps : List Event → Upload → Prop} {request : PartRequest} {files after : FileSystem}
  {writings : List (PartRequest × WriteStage)} {past events : List Event}

theorem heed_silent (unstarted : events.filterMap Event.started? = [])
    (unended : events.filterMap Event.ended? = []) :
    events.foldlM heed writings = some writings := by
  induction events with
  | nil => rfl
  | cons event rest ih =>
    cases event with
    | started | ended => contradiction
    | _ => exact ih unstarted unended

theorem step?_act {all next : Uploaders} {act : UploaderAct}
    {later : List (PartRequest × WriteStage)}
    (acted : all.step? (heard files act) = some (next, events))
    (heeded : events.foldlM heed writings = some later) :
    step? store ⟨all, files, writings⟩ (.act act) = some (⟨next, files, later⟩, events) := by
  simp [step?, acted, heeded]

/-- The last of the writings comes as far as it can. -/
theorem exists_writes (written : store.Writes request files after stage) (all : Uploaders)
    (writings : List (PartRequest × WriteStage)) :
    ∃ moves : List WriteMove, runSteps? (step? store)
      ⟨all, files, writings ++ [(request, .begun)]⟩ (moves.map (.write writings.length)) =
        some (⟨all, after, writings ++ [(request, stage)]⟩, []) := by
  induction written with
  | begun => exact ⟨[], rfl⟩
  | @step _ _ _ move next _ stepped ih =>
    obtain ⟨moves, run⟩ := ih
    refine ⟨moves ++ [move], ?_⟩
    rw [List.map_append]
    refine runSteps_snoc run ?_
    simp [step?, stepped]

/-- Requests that have all been written to the same stage. -/
def staged (stage : WriteStage) (requests : List PartRequest) : List (PartRequest × WriteStage) :=
  requests.map fun request => (request, stage)

theorem staged_snoc (stage : WriteStage) (requests : List PartRequest) (request : PartRequest) :
    staged stage (requests ++ [request]) = staged stage requests ++ [(request, stage)] :=
  List.map_append

theorem staged_erase (stage : WriteStage) (requests : List PartRequest) (request : PartRequest) :
    (staged stage requests).erase (request, stage) = staged stage (requests.erase request) :=
  (List.map_erase (fun _ _ same => (Prod.mk.inj same).1) requests).symm

/-- What is known of an upload while the session writes each request to the same stage. What the
files hold goes by the requests that have been begun. -/
structure Serves (store : Store) (reply : Reply) (stage : WriteStage) (again : Bool)
    (held : List PartRequest → FileSystem) (requests : List PartRequest) (Allowed : Move → Prop)
    (Keeps : List Event → Upload → Prop) : Prop where
  kept : StepKeeps Upload.step? Keeps Allowed
  standing : ∀ past upload, Keeps past upload →
    ∃ job Moves P, Upload.Standing job Moves P past upload
  started : ∀ past upload, Keeps past upload → past.filterMap Event.started? <+: requests
  pending : ∀ past upload, Keeps past upload →
    ∃ rest, ((past.filterMap Event.ended?).map Prod.fst ++ rest).Perm
      (past.filterMap Event.started?)
  replied : ∀ past upload, Keeps past upload →
    ∀ call ∈ past.filterMap Event.ended?, call.2 = reply
  queued : ∀ past upload, Keeps past upload → upload.result.isSome = true →
    Uploaders.queuedResend upload = again
  asked : ∀ move, Allowed move → answered (held []) move = move
  uncancelled : ¬ Allowed .cancel
  reply_stage : reply.stage? = some stage
  writes : ∀ earlier request, earlier ++ [request] <+: requests →
    store.Writes request (held earlier) (held (earlier ++ [request])) stage

section Serves

variable {id : Nat} {calls : List (Nat × SaveCall)} {upload next last : Upload} {move : Move}
  {moves : List Move} {rest : List PartRequest}

/-- An upload opens its input before anything is written. -/
theorem Serves.answered_eq
    (serves : Serves store reply stage again held requests Allowed Keeps)
    (keeps : Keeps past upload) (allowed : Allowed move)
    (stepped : upload.step? move = some (next, events)) :
    answered (held (past.filterMap Event.started?)) move = move := by
  have same := serves.asked move allowed
  cases move with
  | openInput found =>
    obtain ⟨_, _, _, standing⟩ := serves.standing _ _ keeps
    have early : ∀ dispatch, upload.stage ≠ .dispatching dispatch := by
      cases Upload.step_of_step? standing.answer stepped with
      | unopened stage | unplanned stage | opened stage => simp [stage]
      | dispatched _ step => cases step
    rw [standing.unstarted early]
    exact same
  | _ => exact same

theorem Serves.act (serves : Serves store reply stage again held requests Allowed Keeps)
    (slots : Nat) (resends : List Nat) (waits : List (Nat × ResendWait))
    (new : calls.lookup id = none) (keeps : Keeps past upload) (allowed : Allowed move)
    (stepped : upload.step? move = some (next, events))
    {later : List (PartRequest × WriteStage)} (heeded : events.foldlM heed writings = some later) :
    step? store ⟨.occupied slots resends calls waits id upload,
        held (past.filterMap Event.started?), writings⟩ (.act (.move id move)) =
      some (⟨.occupied slots (Uploaders.recorded again id upload next resends) calls waits id next,
        held (past.filterMap Event.started?), later⟩, events) := by
  obtain ⟨_, _, _, standing⟩ := serves.standing _ _ keeps
  have after := serves.kept past upload move next events keeps allowed stepped
  refine step?_act ?_ heeded
  rw [heard, serves.answered_eq keeps allowed stepped]
  exact Uploaders.step?_occupied new standing.answered stepped (serves.queued _ _ after)

/-- One move of the upload is one of the call, with the writing of the request that it begins. -/
theorem Serves.step (serves : Serves store reply stage again held requests Allowed Keeps)
    (slots : Nat) (resends : List Nat) (waits : List (Nat × ResendWait))
    (new : calls.lookup id = none) (keeps : Keeps past upload) (allowed : Allowed move)
    (stepped : upload.step? move = some (next, events))
    (pending : ((past.filterMap Event.ended?).map Prod.fst ++ rest).Perm
      (past.filterMap Event.started?)) :
    ∃ acts left, (∀ act ∈ acts, act.IsOf id ∧ act.isCancel = false) ∧
      (((past ++ events).filterMap Event.ended?).map Prod.fst ++ left).Perm
        ((past ++ events).filterMap Event.started?) ∧
      runSteps? (step? store) ⟨.occupied slots resends calls waits id upload,
          held (past.filterMap Event.started?), staged stage rest⟩ acts =
        some (⟨.occupied slots (Uploaders.recorded again id upload next resends) calls waits id
            next, held ((past ++ events).filterMap Event.started?), staged stage left⟩, events) := by
  have act : ∀ {later}, events.foldlM heed (staged stage rest) = some later → _ :=
    serves.act slots resends waits new keeps allowed stepped
  have after := serves.kept past upload move next events keeps allowed stepped
  have own : DepotAct.IsOf id (.act (.move id move)) ∧
      DepotAct.isCancel (.act (.move id move)) = false := by
    refine ⟨rfl, ?_⟩
    cases move with
    | cancel => exact absurd allowed serves.uncancelled
    | _ => rfl
  obtain ⟨_, _, _, standing⟩ := serves.standing _ _ keeps
  rcases (Upload.step_of_step? standing.answer stepped).heard with
    ⟨unstarted, unended⟩ | ⟨request, rfl⟩ | ⟨request, answer, rfl⟩
  · refine ⟨[.act (.move id move)], rest, by simpa using own, ?_, ?_⟩
    · simpa [List.filterMap_append, unstarted, unended] using pending
    · rw [List.filterMap_append, unstarted, List.append_nil]
      simp [runSteps?, act (heed_silent unstarted unended)]
  -- a worker takes the request, which is then written
  · have started : (past ++ [Event.started request]).filterMap Event.started? =
        past.filterMap Event.started? ++ [request] := by simp [Event.started?]
    have ended : (past ++ [Event.started request]).filterMap Event.ended? =
        past.filterMap Event.ended? := by simp [Event.ended?]
    have begun : step? store _ (.act (.move id move)) = some (⟨_, _, staged stage rest ++
        [(request, .begun)]⟩, _) := act rfl
    have inside := serves.started _ _ after
    rw [started] at inside
    obtain ⟨writes, written⟩ := exists_writes (serves.writes _ _ inside)
      (.occupied slots (Uploaders.recorded again id upload next resends) calls waits id next)
      (staged stage rest)
    refine ⟨.act (.move id move) :: writes.map (.write (staged stage rest).length),
      rest ++ [request], ?_, ?_, ?_⟩
    · intro act member
      rcases List.mem_cons.mp member with rfl | there
      · exact own
      · obtain ⟨_, _, rfl⟩ := List.mem_map.mp there
        exact ⟨trivial, rfl⟩
    · rw [started, ended, ← List.append_assoc]
      exact pending.append_right _
    · simp [runSteps?, started, begun, written, staged_snoc]
  -- a worker hears what has become of its request
  · have started : (past ++ [Event.ended request answer]).filterMap Event.started? =
        past.filterMap Event.started? := by simp [Event.started?]
    have ended : (past ++ [Event.ended request answer]).filterMap Event.ended? =
        past.filterMap Event.ended? ++ [(request, answer)] := by simp [Event.ended?]
    obtain rfl : answer = reply := serves.replied _ _ after (request, answer) (by simp [ended])
    obtain ⟨left, counted⟩ := serves.pending _ _ after
    rw [started, ended, List.map_append, List.append_assoc] at counted
    have order : rest.Perm (request :: left) :=
      (List.perm_append_left_iff _).mp (pending.trans counted.symm)
    have there : request ∈ rest := order.mem_iff.mpr List.mem_cons_self
    have waits_there : (request, stage) ∈ staged stage rest := List.mem_map_of_mem there
    have heeded : [Event.ended request answer].foldlM heed (staged stage rest) =
        some (staged stage (rest.erase request)) := by
      simp [heed, serves.reply_stage, waits_there, staged_erase]
    refine ⟨[.act (.move id move)], rest.erase request, by simpa using own, ?_, ?_⟩
    · rw [started, ended, List.map_append, List.append_assoc]
      exact ((List.perm_cons_erase there).symm.append_left _).trans pending
    · simp [runSteps?, started, act heeded]

/-- A run of the upload is one of the call, in which each request is written as soon as a worker has
taken it. -/
theorem Serves.run (serves : Serves store reply stage again held requests Allowed Keeps)
    (slots : Nat) (resends : List Nat) (waits : List (Nat × ResendWait))
    (new : calls.lookup id = none) (keeps : Keeps past upload)
    (allowed : ∀ move ∈ moves, Allowed move)
    (run : runSteps? Upload.step? upload moves = some (last, events))
    (pending : ((past.filterMap Event.ended?).map Prod.fst ++ rest).Perm
      (past.filterMap Event.started?)) :
    ∃ acts left, (upload.result.isSome = true → last.result.isSome = true) ∧
      (∀ act ∈ acts, act.IsOf id ∧ act.isCancel = false) ∧
      (((past ++ events).filterMap Event.ended?).map Prod.fst ++ left).Perm
        ((past ++ events).filterMap Event.started?) ∧
      runSteps? (step? store) ⟨.occupied slots resends calls waits id upload,
          held (past.filterMap Event.started?), staged stage rest⟩ acts =
        some (⟨.occupied slots (Uploaders.recorded again id upload last resends) calls waits id
            last, held ((past ++ events).filterMap Event.started?), staged stage left⟩, events) := by
  induction moves generalizing upload past rest resends events with
  | nil =>
    cases run
    refine ⟨[], rest, fun still => still, nofun, by simpa using pending, ?_⟩
    rw [Uploaders.recorded_self, List.append_nil]
    rfl
  | cons move moves ih =>
    obtain ⟨next, seen, more, stepped, ran, rfl⟩ := runSteps_cons run
    obtain ⟨first, left, own, pending, acted⟩ :=
      serves.step slots resends waits new keeps (allowed move List.mem_cons_self) stepped pending
    have after := serves.kept _ _ _ _ _ keeps (allowed move List.mem_cons_self) stepped
    obtain ⟨others, still, stays, further, pending, went⟩ :=
      ih _ after (fun move there => allowed move (List.mem_cons_of_mem _ there)) ran pending
    obtain ⟨_, _, _, standing⟩ := serves.standing _ _ keeps
    have kept : upload.result.isSome = true → next.result.isSome = true := by
      have step := Upload.step_of_step? standing.answer stepped
      have unanswered := Upload.unanswered_of_step step standing.answer
      simpa [← Option.ne_none_iff_isSome] using mt unanswered
    refine ⟨first ++ others, still, stays ∘ kept, ?_, ?_, ?_⟩
    · intro act member
      exact (List.mem_append.mp member).elim (own act) (further act)
    · rwa [← List.append_assoc]
    · rw [← List.append_assoc, ← Uploaders.recorded_trans kept stays]
      exact runSteps_append acted went

end Serves

end Depot

end ChunkedUpload
