import ChunkedUpload.Proofs.Depot.Progress
import ChunkedUpload.Proofs.Depot.Resends
import ChunkedUpload.Proofs.Upload.Errand
import ChunkedUpload.Proofs.Upload.Fidelity

/-! Runs that there are. A file whose parts can be put one after the other can be uploaded, and a
part that can be written can be sent again, whether its writing is then said to have succeeded or
to have failed. -/
namespace ChunkedUpload

section Pending

variable {job : UploadJob} {Allowed Moves : Move → Prop} {P : List Event → Dispatch → Prop}
  {past : List Event} {dispatch : Dispatch} {upload : Upload}

/-- Whatever has ended was begun. -/
theorem Dispatch.Working.pending (working : Working job Allowed past dispatch) :
    ∃ rest, ((past.filterMap Event.ended?).map Prod.fst ++ rest).Perm
      (past.filterMap Event.started?) := by
  obtain ⟨_, _, tracked⟩ := working.tracked
  have calls := (Pool.run_counted tracked.followed.run).calls
  rw [← tracked.followed.started, ← tracked.followed.ended] at calls
  exact ⟨_, List.perm_append_comm.trans calls.symm⟩

theorem Upload.Standing.pending (standing : Standing job Allowed P past upload)
    (working : ∀ dispatch, P past dispatch → Dispatch.Working job Moves past dispatch)
    (unrefused : ∀ error, ¬ Refusal job Allowed error) :
    ∃ rest, ((past.filterMap Event.ended?).map Prod.fst ++ rest).Perm
      (past.filterMap Event.started?) := by
  obtain ⟨_, here⟩ := standing
  split at here
  · exact ⟨[], by rw [here.1]; exact .refl _⟩
  · exact ⟨[], by rw [here.1]; exact .refl _⟩
  · exact ⟨[], by rw [here.1]; exact .refl _⟩
  · exact ⟨[], by rw [here.1]; exact .refl _⟩
  · exact (working _ here.1).pending
  · obtain ⟨_, _, error, refusal, _⟩ := here
    exact absurd refusal (unrefused error)

end Pending

theorem wholeRequest_some_bytes {bytes : ByteArray} {i : Nat} (inside : i < partsFor bytes.size)
    (fileId : Int64) : 0 < (wholeRequest bytes fileId i).payload.size := by
  have start := partsFor_inside inside
  have grows : i * partSize < (i + 1) * partSize :=
    Nat.mul_lt_mul_of_pos_right (by omega) (by decide)
  rw [wholeRequest, ByteArray.size_extract]
  omega

namespace Store

variable {store : Store} {first : FileSystem} {requests earlier : List PartRequest}
  {request : PartRequest}

/-- The files after these requests have been delivered one after the other. -/
def afterAll (store : Store) (first : FileSystem) (requests : List PartRequest) : FileSystem :=
  requests.foldl (fun files request => (store.deliver request files).2) first

theorem deliver_next (puts : (requests.forM store.deliver first).1 = .ok ())
    (inside : earlier ++ [request] <+: requests) :
    store.deliver request (store.afterAll first earlier) =
      (.ok (), store.afterAll first (earlier ++ [request])) := by
  obtain ⟨rest, rfl⟩ := inside
  obtain ⟨last, run⟩ : ∃ last, (earlier ++ [request] ++ rest).forM store.deliver first =
    (.ok (), last) := ⟨_, Prod.ext puts rfl⟩
  clear puts
  induction earlier generalizing first with
  | nil =>
    obtain ⟨_, mid, put, _⟩ := FileSystem.of_bind_ok run
    change store.deliver request first = (.ok (), (store.deliver request first).2)
    rw [put]
  | cons earliest earlier ih =>
    obtain ⟨_, mid, put, run⟩ := FileSystem.of_bind_ok run
    obtain rfl : (store.deliver earliest first).2 = mid := by rw [put]
    exact ih run

end Store

theorem Uploaders.occupied_resending (slots id : Nat) (resends : List Nat)
    (calls : List (Nat × SaveCall)) (waits : List (Nat × ResendWait)) (job : UploadJob)
    (plan : UploadPlan) (source : Source) (pool : Pool) (producer : Producer) :
    occupied slots resends calls waits id (.resending job plan source pool producer) =
      vacant slots resends
        (calls ++ [(id, ⟨0, .resending job plan source pool producer⟩)]) waits :=
  occupied_of_answered rfl

namespace Depot

open Upload (Replying Replied Delivered)

variable {store : Store} {first after : FileSystem} {job : UploadJob} {bytes : ByteArray}
  {name : String} {slots id : Nat} {resends : List Nat} {calls : List (Nat × SaveCall)}
  {waits : List (Nat × ResendWait)} {reply : Reply} {stage : WriteStage} {again : ResumePart}
  {counts : PoolSummary}

theorem answered_of_replying {move : Move} (replying : Replying reply first Store.endpoint move) :
    answered first move = move := by
  obtain ⟨calm, located, _⟩ := replying
  cases move with
  | openInput found =>
    obtain rfl : found = first := calm
    rfl
  | locate answer =>
    rw [located answer rfl]
    rfl
  | connect answer =>
    obtain rfl : answer = .ok () := calm
    rfl
  | _ => rfl

theorem serves_whole (whole : job.Whole first bytes name)
    (puts : ((wholeRequests bytes job.freshId).forM store.deliver first).1 = .ok ()) :
    Serves store .delivered .done false (store.afterAll first) (wholeRequests bytes job.freshId)
      (Replying .delivered first Store.endpoint) (Delivered job first bytes name) where
  kept := Upload.step_delivered whole
  standing _ _ so_far := ⟨_, _, _, so_far.1.1⟩
  started _ _ so_far := so_far.1.started_isPrefix
  pending _ _ so_far := so_far.1.1.pending (fun _ undisturbed => undisturbed.working)
    fun _ => whole.unrefused
  replied _ _ so_far := so_far.2
  queued past upload so_far answered := by
    obtain ⟨result, answer⟩ := Option.isSome_iff_exists.mp answered
    rcases so_far.1.1.answer_cases answer with
      ⟨_, stage, undisturbed, given⟩ | ⟨_, _, _, refusal, _⟩
    · obtain ⟨_, _, phase, _⟩ := Dispatch.exhausted_of_answer undisturbed.producer given
      simp [Uploaders.queuedResend, stage, phase]
    · exact absurd refusal whole.unrefused
  asked _ := answered_of_replying
  uncancelled delivering := delivering.1
  reply_stage := rfl
  writes earlier request inside := by
    have asked : request ∈ wholeRequests bytes job.freshId := inside.subset (by simp)
    obtain ⟨i, below, rfl⟩ := List.mem_map.mp asked
    exact Store.writes_of_deliver (wholeRequest_some_bytes (List.mem_range.mp below) _)
      (Store.deliver_next puts inside)

theorem run_saved {acts : List DepotAct} {files : FileSystem} {last : Depot} {events : List Event}
    (ran : runSteps? (step? store)
      ⟨.occupied slots resends calls waits id (.begin job false), files, []⟩ acts =
        some (last, events)) :
    runSteps? (step? store) ⟨.vacant slots resends calls waits, files, []⟩
      (.act (.save id 0 job false) :: acts) = some (last, events) := by
  rw [runSteps?, step?_act (Uploaders.step?_save job) rfl]
  exact congrArg (Option.map _) ran

variable (slots resends waits) in
/-- A file whose parts can be put one after the other is uploaded by some run, to its end. -/
theorem exists_stored (whole : job.Whole first bytes name)
    (puts : ((wholeRequests bytes job.freshId).forM store.deliver first).1 = .ok ())
    (new : calls.lookup id = none) :
    ∃ acts last events, (∀ act ∈ acts, act.IsOf id ∧ act.isCancel = false) ∧
      runSteps? (step? store) ⟨.vacant slots resends calls waits, first, []⟩
          (.act (.save id 0 job false) :: acts) =
        some (⟨.vacant slots resends (calls ++ [(id, ⟨0, last⟩)]) waits,
          store.afterAll first (wholeRequests bytes job.freshId), []⟩, events) ∧
      last.result = some (.returned (.ok (some (wholeReference bytes job.freshId name)))) := by
  obtain ⟨moves, last, events, delivering, run, ended, answer⟩ :=
    Upload.exists_delivered Store.endpoint whole
  have fresh : Delivered job first bytes name [] (.begin job false) :=
    ⟨⟨⟨rfl, rfl, rfl⟩, rfl⟩, nofun⟩
  rw [Upload.run?_eq] at run
  obtain ⟨acts, left, _, own, counted, acted⟩ := (serves_whole whole puts).run slots
    resends waits new fresh delivering run (.nil : ([] : List PartRequest).Perm [])
  obtain ⟨sent, calls_ended, _⟩ := ended.1.finished whole answer
  rw [List.nil_append, sent] at counted acted
  have none_left : left = [] := by
    have count := (calls_ended.append_right left).symm.trans counted
    simpa using count.length_eq
  have answered : last.result.isSome = true := by
    rw [answer]
    rfl
  rw [none_left, Uploaders.occupied_of_answered answered] at acted
  exact ⟨acts, last, events, own, run_saved acted, answer⟩

theorem serves_again (h : job.Again first bytes name again) (answer : reply.stage? = some stage)
    (written : store.Writes (wholeRequest bytes again.fileId again.part.toNat) first after stage) :
    Serves store reply stage true (fun begun => if begun = [] then first else after)
      [wholeRequest bytes again.fileId again.part.toNat] (Replying reply first Store.endpoint)
      (fun past upload => Upload.Repeats job first bytes name again past upload ∧
        Replied reply past) where
  kept := by
    intro past upload move next events ⟨repeats, replied⟩ replying stepped
    exact ⟨Upload.step_repeats h past upload move next events repeats replying.1 stepped,
      replied.step replying (Upload.step_of_step? repeats.1.answer stepped)⟩
  standing _ _ so_far := ⟨_, _, _, so_far.1.1⟩
  started _ _ so_far := so_far.1.1.started (· <+: [wholeRequest bytes again.fileId _])
    List.nil_prefix fun _ resending => resending.repeating.started_isPrefix
  pending _ _ so_far := by
    refine so_far.1.1.pending (fun _ resending => resending.working) fun _ refusal => ?_
    obtain ⟨_, opens, _, sized⟩ := h.opens
    exact Upload.unrefused_of_planned opens (h.plan sized) refusal
  replied _ _ so_far := so_far.2
  queued _ _ so_far := so_far.1.queuedResend h
  asked _ := answered_of_replying
  uncancelled replying := replying.1
  reply_stage := answer
  writes earlier request inside := by
    obtain ⟨rest, same⟩ := inside
    cases earlier with
    | nil =>
      obtain ⟨rfl, _⟩ := List.cons.inj same
      simpa using written
    | cons => simp at same

theorem step?_await (slots wait id : Nat) (calls : List (Nat × SaveCall))
    (waits : List (Nat × ResendWait)) :
    (Uploaders.vacant slots [id] calls waits).step? (.await wait 0) =
      some (.vacant slots [] calls (waits ++ [(wait, ⟨0, [id], none⟩)]), []) := by
  simp [Uploaders.step?, Uploaders.vacant, Uploaders.updateUploader]

theorem step?_settle {upload : Upload} {wait : Nat} (new : calls.lookup id = none)
    (unused : waits.lookup wait = none)
    (ended : ∃ dispatch outcome, upload.stage = .dispatching dispatch ∧
      dispatch.producer = .finished outcome counts) :
    (Uploaders.vacant slots resends (calls ++ [(id, ⟨0, upload⟩)])
      (waits ++ [(wait, ⟨0, [id], none⟩)])).step? (.settle wait) =
      some (.vacant slots resends (calls ++ [(id, ⟨0, upload⟩)])
        (waits ++ [(wait, ⟨0, [id], some counts⟩)]), []) := by
  obtain ⟨dispatch, outcome, stage, phase⟩ := ended
  simp [Uploaders.step?, Uploaders.vacant, Uploaders.wait?, Uploaders.lookup_snoc, unused,
    Uploaders.totals?, Uploaders.summary?, Uploaders.call?, new, stage, phase, Uploaders.setWait,
    Uploaders.map_set_of_new, PoolSummary.add]

variable (slots) in
/-- A part of a file is sent again by some run, and its only request gets this reply. The call has
its answer before anything is written, and a wait for it ends with the counts of the reply. -/
theorem exists_resent {wait : Nat} (h : job.Again first bytes name again)
    (answer : reply.stage? = some stage) (answers : Upload.Answers reply counts)
    (written : store.Writes (wholeRequest bytes again.fileId again.part.toNat) first after stage)
    (new : calls.lookup id = none) (unused : waits.lookup wait = none) :
    ∃ earlier later mid last events more,
      (∀ act ∈ earlier ++ later, act.IsOf id ∧ act.isCancel = false) ∧
      mid.result = some (.returned (.ok none)) ∧
      runSteps? (step? store) ⟨.vacant slots [] calls waits, first, []⟩
          (.act (.save id 0 job false) :: earlier) =
        some (⟨.vacant slots [id] (calls ++ [(id, ⟨0, mid⟩)]) waits, first, []⟩, events) ∧
      runSteps? (step? store) ⟨.vacant slots [id] (calls ++ [(id, ⟨0, mid⟩)]) waits, first, []⟩
          (.act (.await wait 0) :: (later ++ [.act (.settle wait)])) =
        some (⟨.vacant slots [] (calls ++ [(id, ⟨0, last⟩)])
          (waits ++ [(wait, ⟨0, [id], some counts⟩)]), after, []⟩, more) ∧
      (events ++ more).filterMap Event.ended? =
        [(wholeRequest bytes again.fileId again.part.toNat, reply)] := by
  have serves := serves_again h answer written
  obtain ⟨source, opens, honest, sized⟩ := h.opens
  obtain ⟨sought, spent, seeks, reads⟩ := honest.reads_part h.inside
  have queues := Upload.queues_first (Prod.ext opens rfl) (h.plan sized) rfl seeks reads
    (Upload.request_ofPart bytes again) Store.endpoint
  have ends := Upload.ends_first job (.ofPart bytes again) spent
    (wholeRequest bytes again.fileId again.part.toNat) answers
  have fresh : Upload.Repeats job first bytes name again [] (.begin job false) ∧ Replied reply [] :=
    ⟨⟨⟨rfl, rfl, rfl⟩, rfl⟩, nofun⟩
  have before : ∀ move ∈ [Move.enter, .openInput first, .locate (.ok Store.endpoint),
      .connect (.ok ()), .seek, .read, .enqueue], Replying reply first Store.endpoint move := by
    simp [Replying, Move.Calm]
  have behind : ∀ move ∈ [Move.take 0, .finish 0 reply, .stop, .take 0, .stop, .join],
      Replying reply first Store.endpoint move := by
    have uncrashed : reply ≠ .crashed := by
      cases answers <;> simp
    simp [Replying, Move.Calm, uncrashed]
  have idle : ([] : List PartRequest).Perm [] := .nil
  -- the call comes as far as its answer, and nothing is being written yet
  obtain ⟨earlier, left, _, own, counted, acted⟩ :=
    serves.run slots [] waits new fresh before queues idle
  have queued := run_holds serves.kept _ _ _ _ fresh before queues
  have nothing : left.Perm [] := counted
  obtain rfl := nothing.eq_nil
  -- behind the answer its worker writes the request, and is shut down
  obtain ⟨later, unheard, _, still, balanced, went⟩ :=
    serves.run slots [] (waits ++ [(wait, ⟨0, [id], none⟩)]) new queued behind ends idle
  have single : ([wholeRequest bytes again.fileId again.part.toNat] ++ unheard).Perm
      [wholeRequest bytes again.fileId again.part.toNat] := balanced
  obtain rfl : unheard = [] := by simpa using single.length_eq
  rw [Uploaders.occupied_resending] at acted
  rw [Uploaders.occupied_resending, Uploaders.occupied_resending] at went
  refine ⟨earlier, later, _, .resending job (.ofPart bytes again) spent ⟨⟨none, 1, 0⟩, [.exited],
    counts.delivered, counts.failed⟩ (.finished .resumeQueued counts), _,
    [.started (wholeRequest bytes again.fileId again.part.toNat),
      .ended (wholeRequest bytes again.fileId again.part.toNat) reply],
    fun act member => (List.mem_append.mp member).elim (own act) (still act), rfl,
    run_saved acted, ?_, rfl⟩
  rw [runSteps?, step?_act (step?_await slots wait id _ waits) rfl]
  exact congrArg (Option.map _)
    (runSteps_snoc went (step?_act (step?_settle new unused ⟨_, _, rfl, rfl⟩) rfl))

end Depot

end ChunkedUpload
