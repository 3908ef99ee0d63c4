import ChunkedUpload.Host.Local
import ChunkedUpload.Proofs.Depot.Errand
import ChunkedUpload.Proofs.Uploaders.Resends

/-! A process that sends one part into a store again, waits for it and ends. Its call returns before
the part is written, and returns the same whether or not the writing succeeds; what became of the
part it learns from the counts of its wait alone. -/
namespace ChunkedUpload

/-- A part of the file at this path is to be sent again. -/
structure UploadJob.Resumes (job : UploadJob) (files : FileSystem) (path : Path)
    (again : ResumePart) : Prop where
  input : job.input = .path path
  resumes : job.resume = some again
  limited : job.limit.bytes.toNat ≤ (2 ^ 32 - 1) * partSize
  /-- The size of a file is told in 64 bits. -/
  told : ∀ bytes, files.read path = .ok bytes → bytes.size < 2 ^ 64

/-- If the job gets as far as a plan, the part is one of the file. -/
theorem UploadJob.Resumes.again_of_opened {job : UploadJob} {files : FileSystem} {path : Path}
    {again : ResumePart} (h : job.Resumes files path again) {source : Source} {plan : UploadPlan}
    (opened : Upload.Opened files job source plan) :
    ∃ bytes, files.read path = .ok bytes ∧
      job.Again files bytes (Source.nameOf path) again := by
  obtain ⟨opens, planned⟩ := opened
  rw [h.input, Source.ofInput] at opens
  split at opens
  · contradiction
  · rename_i stream found
    obtain ⟨bytes, read, rfl⟩ := Source.openPath_ok found
    obtain ⟨rfl, _, within⟩ := Source.ofStream_ok opens
    have sized : (UInt64.ofNat bytes.size).toNat = bytes.size :=
      UInt64.toNat_ofNat_of_lt' (h.told bytes read)
    have most : bytes.size ≤ job.limit.bytes.toNat := by
      rw [← sized, ← UInt64.le_iff_toNat_le]
      exact within
    have few := Nat.le_trans most h.limited
    refine ⟨bytes, read, ⟨?_, most, few, h.resumes, ?_⟩⟩
    · rw [h.input]
      exact .path found (Stream.serves_ofBytes (h.told bytes read))
    · rw [h.resumes, UploadPlan.make] at planned
      dsimp only at planned
      split at planned
      · contradiction
      · rename_i inside
        rw [UInt32.le_iff_toNat_le, toNat_totalParts] at inside
        change ¬ partsFor (UInt64.ofNat bytes.size).toNat % 2 ^ 32 ≤ again.part.toNat at inside
        rwa [sized, Nat.mod_eq_of_lt (partsFor_lt few), Nat.not_le] at inside

/-- What a process may say that was to send a part again, and what it has done to the files. -/
inductive LocalRun.Faithful (store : Store) (job : UploadJob) (files : FileSystem)
    (again : ResumePart) : LocalRun → Prop
  | refused (error : UploadError) : Faithful store job files again
      ⟨some (.returned (.error error)), ⟨0, 0⟩, [], files⟩
  | stored {bytes : ByteArray} {name : String} {after : FileSystem}
      (sends : job.Again files bytes name again)
      (went : PartWriting.Went store files after
        ⟨again.fileId, again.part, pieceOf bytes again.part, .done⟩) :
      Faithful store job files again ⟨some (.returned (.ok none)), ⟨1, 0⟩, [], after⟩
  | lost {bytes : ByteArray} {name : String} {stage : WriteStage} {after : FileSystem}
      (sends : job.Again files bytes name again) (undone : stage ≠ .done)
      (went : PartWriting.Went store files after
        ⟨again.fileId, again.part, pieceOf bytes again.part, stage⟩) :
      Faithful store job files again ⟨some (.returned (.ok none)), ⟨0, 1⟩, [], after⟩

namespace Depot

open Uploaders (Log movesOf eventsOf)

/-- The single call of a process and the wait behind it, in any order of their steps. The process
ends when its call fails, and otherwise when its wait returns. -/
inductive Resumed (store : Store) (job : UploadJob) (files : FileSystem) (limiter : Admission) :
    LocalRun → Prop
  | refused {log : Log} {last : Depot} {call : SaveCall} {error : UploadError}
      (run : Run store (alone files limiter) log last)
      (errand : ∀ entry ∈ log, entry.1.IsErrand job) (found : last.all.call? 0 = some call)
      (failed : call.upload.result = some (.returned (.error error))) :
      Resumed store job files limiter
        ⟨some (.returned (.error error)), ⟨0, 0⟩, [], last.files⟩
  | waited {early late : Log} {mid last : Depot} {call : SaveCall} {wait : ResendWait}
      {value : Option FileReference} {total : PoolSummary}
      (run : Run store (alone files limiter) early mid) (found : mid.all.call? 0 = some call)
      (returned : call.upload.result = some (.returned (.ok value)))
      (later : Run store mid ((.await 1 0, []) :: late) last)
      (errand : ∀ entry ∈ early ++ late, entry.1.IsErrand job)
      (waits : last.all.wait? 1 = some wait) (counted : wait.result = some total) :
      Resumed store job files limiter ⟨some (.returned (.ok value)), total, [], last.files⟩

section Runs

variable {store : Store} {files after : FileSystem} {job : UploadJob} {id : Nat}
  {acts : List DepotAct} {first last : Depot} {events : List Event} {bytes : ByteArray}
  {name : String} {again : ResumePart} {reply : Reply} {stage : WriteStage} {counts : PoolSummary}

/-- What a call does that nobody cancels is a run. -/
theorem run_of_own (own : ∀ act ∈ acts, act.IsOf id ∧ act.isCancel = false)
    (ran : runSteps? (step? store) first acts = some (last, events)) :
    ∃ log, Run store first log last ∧
      ∀ entry ∈ log, ∃ move, move ≠ .cancel ∧ entry.1 = .move id move := by
  have kept : StepKeeps (step? store) (fun _ depot => ∃ log, Run store first log depot ∧
      ∀ entry ∈ log, ∃ move, move ≠ .cancel ∧ entry.1 = .move id move)
      fun act => act.IsOf id ∧ act.isCancel = false := by
    rintro past depot act next seen ⟨log, run, calm⟩ ⟨own, uncancelled⟩ stepped
    cases act with
    | write => exact ⟨log, run.write stepped, calm⟩
    | act act =>
      cases act with
      | move other move =>
        obtain rfl : other = id := own
        have fresh : (heard depot.files (.move other move)).IsNew depot.all := trivial
        refine ⟨_, run.act fresh stepped, List.forall_mem_append.mpr ⟨calm, ?_⟩⟩
        rintro _ (_ | ⟨_, ⟨⟩⟩)
        refine ⟨_, fun cancels => ?_, rfl⟩
        cases move <;> contradiction
      | save | await | settle => exact own.elim
  exact run_holds kept acts first last events ⟨[], .start, nofun⟩ own ran

/-- Whatever becomes of the writing of a part, there is a run in which the process hears of it. -/
theorem exists_resumed (slots : Nat) (h : job.Again files bytes name again)
    (answer : reply.stage? = some stage) (answers : Upload.Answers reply counts)
    (written : store.Writes (wholeRequest bytes again.fileId again.part.toNat) files after stage) :
    Resumed store job files ⟨slots + 1, slots + 1, [], []⟩
      ⟨some (.returned (.ok none)), counts, [], after⟩ := by
  obtain ⟨earlier, later, mid, last, _, _, own, returned, sent, waited, _⟩ :=
    exists_resent slots h answer answers written (rfl : [].lookup 0 = none)
      (rfl : [].lookup 1 = none)
  have errand : ∀ {log : Log}, (∀ entry ∈ log, ∃ move, move ≠ .cancel ∧ entry.1 = .move 0 move) →
      ∀ entry ∈ log, entry.1.IsErrand job := by
    intro log calm entry member
    obtain ⟨move, uncancelled, same⟩ := calm entry member
    rw [same]
    exact ⟨rfl, uncancelled⟩
  obtain ⟨begun, _, _, saved, ran, _⟩ := runSteps_cons sent
  obtain ⟨early, run, calm⟩ := run_of_own (fun act member => own act (by simp [member])) ran
  obtain ⟨taken, seen, _, awaited, went, _⟩ := runSteps_cons waited
  obtain ⟨ended, _, _, went, settled, _⟩ := runSteps_split went
  obtain ⟨late, waiting, still⟩ := run_of_own (fun act member => own act (by simp [member])) went
  obtain ⟨_, _, _, settled, none_left, _⟩ := runSteps_cons settled
  cases none_left
  obtain rfl : seen = [] := by
    obtain ⟨_, _, acted, _⟩ := step_of_act awaited
    cases Uploaders.step_of_step? acted
    rfl
  have called : Run store (alone files ⟨slots + 1, slots + 1, [], []⟩) _ begun :=
    .act .start (by exact rfl) saved
  have behind : Run store _ _ taken := .act .start (by exact rfl) awaited
  have settling : Run store taken _ _ := .act waiting (by exact trivial) settled
  have before : Run store _ ((.save 0 0 job false, _) :: early) _ := called.trans run
  have after : Run store _ ((.await 1 0, []) :: (late ++ [(.settle 1, _)])) _ :=
    behind.trans settling
  refine .waited before rfl returned after (List.forall_mem_append.mpr ⟨?_, ?_⟩) rfl rfl
  · exact List.forall_mem_cons.mpr ⟨⟨rfl, rfl, rfl, rfl⟩, errand calm⟩
  · exact List.forall_mem_append.mpr ⟨errand still, List.forall_mem_singleton.mpr rfl⟩

end Runs

section Ends

variable {store : Store} {files : FileSystem} {limiter : Admission} {job : UploadJob} {path : Path}
  {again : ResumePart} {bytes : ByteArray} {name : String} {log : Log} {depot : Depot}
  {run : LocalRun}

theorem course_of_refusal (refused : ∀ source plan, ¬ Upload.Opened files job source plan) :
    Course [] files (Move.Calm files)
      (Upload.Standing job (Move.Calm files) fun _ _ => False) where
  kept := by
    refine Upload.step_standing ?_ fun _ _ _ _ _ never => never.elim
    rintro found source plan endpoint rfl opened
    exact refused source plan opened
  standing _ _ standing := ⟨_, _, _, standing⟩
  started _ _ standing :=
    standing.started (List.Sublist · []) (List.nil_sublist _) fun _ never => never.elim
  distinct := List.nodup_nil
  calm _ := id

theorem stage_eq_done {reply : Reply} {stage : WriteStage} (answer : reply.stage? = some stage) :
    stage = .done ↔ reply = .delivered := by
  cases reply with
  | delivered => simp [← Option.some.inj answer]
  | refused error =>
    cases error with
    | io error => simp [← Option.some.inj answer]
    | _ => contradiction
  | crashed => contradiction

theorem Resumed.faithful_of_refusal (sound : files.Sound)
    (refused : ∀ source plan, ¬ Upload.Opened files job source plan)
    (resumed : Resumed store job files limiter run) : run.Faithful store job files again := by
  have fresh : Upload.Standing job (Move.Calm files) (fun _ _ => False) [] (.begin job false) :=
    ⟨rfl, rfl, rfl⟩
  cases resumed with
  | refused run errand found failed =>
    obtain ⟨_, ⟨_, standing⟩, same⟩ := run.serves (course_of_refusal refused) sound fresh
      (fun entry member => .inl (errand entry member)) found
    rw [same fun dispatch stage => ?_]
    · exact .refused _
    · rw [stage] at standing
      exact standing.1
  | waited run found returned _ errand =>
    obtain ⟨_, standing, _⟩ := run.serves (course_of_refusal refused) sound fresh
      (fun entry member => .inl (errand entry (List.mem_append_left _ member))) found
    rcases standing.answer_cases returned with ⟨_, _, never, _⟩ | ⟨_, _, _, _, failed⟩
    · exact never.elim
    · cases failed

theorem Resumed.faithful_of_again (sound : files.Sound) (h : job.Again files bytes name again)
    (resumed : Resumed store job files limiter run) : run.Faithful store job files again := by
  have fresh : Upload.Repeats job files bytes name again [] (.begin job false) :=
    ⟨⟨rfl, rfl, rfl⟩, rfl⟩
  cases resumed with
  | refused run errand found failed =>
    obtain ⟨_, repeats, _⟩ := run.serves (course_of_request h) sound fresh
      (fun entry member => .inl (errand entry member)) found
    obtain ⟨_, _, _, returned, _⟩ := repeats.dispatch h failed
    cases returned
  | @waited early late mid last call wait value total run found returned later errand waits
      counted =>
    have before : ∀ entry ∈ early, entry.1.IsErrand job := fun entry member =>
      errand entry (List.mem_append_left _ member)
    have all : ∀ entry ∈ early ++ (.await 1 0, []) :: late,
        entry.1.IsErrand job ∨ entry.1 = .await 1 0 := by
      intro entry member
      rcases List.mem_append.mp member with there | there
      · exact .inl (before entry there)
      · rcases List.mem_cons.mp there with rfl | there
        · exact .inr rfl
        · exact .inl (errand entry (List.mem_append_right _ there))
    -- the call has queued its part when it returns, so the wait is for it and nothing else
    obtain ⟨own, repeats, _⟩ := run.serves (course_of_request h) sound fresh
      (fun entry member => .inl (before entry member)) found
    obtain ⟨_, _, _, answer, _⟩ := repeats.dispatch h returned
    cases answer
    have queued : mid.all.IsResend 0 0 :=
      ⟨_, found, own, repeats.queuedResend h (by rw [returned]; rfl)⟩
    obtain ⟨_, held⟩ := later.uploaders.new_wait
    rw [run.pending_eq before queued] at held
    cases waits.symm.trans held
    -- its count is what the only worker has heard
    have whole := run.trans later
    obtain ⟨sent, failed, rests⟩ :=
      whole.uploaders.counted (alone_unused files limiter) waits counted
    obtain ⟨_, _, request, reply, _, _, _, ended, _⟩ := rests 0 (List.mem_singleton_self 0)
    rw [List.countP_singleton, Uploaders.delivered, ended] at sent failed
    rw [whole.eventsOf_eq all] at ended
    cases whole.written (course_of_request h) sound fresh all with
    | unbegun _ unended | under _ _ unended =>
      rw [ended] at unended
      contradiction
    | «over» stage other _ its went heard =>
      cases ended.symm.trans its
      have writing : PartWriting.ofEntry (wholeRequest bytes again.fileId again.part.toNat, stage) =
          ⟨again.fileId, again.part, pieceOf bytes again.part, stage⟩ := by
        rw [PartWriting.ofEntry, wholeRequest, pieceOf, UInt32.ofNat_toNat]
      rw [writing] at went
      obtain ⟨delivered, unsent⟩ := total
      rw [List.any_cons, List.any_nil, Bool.or_false] at sent failed
      by_cases done : stage = .done
      · obtain ⟨rfl, rfl⟩ : delivered = 1 ∧ unsent = 0 := by
          simpa [(stage_eq_done heard).mp done] using And.intro sent failed
        subst done
        exact .stored h went
      · obtain ⟨rfl, rfl⟩ : delivered = 0 ∧ unsent = 1 := by
          simpa [mt (stage_eq_done heard).mpr done] using And.intro sent failed
        exact .lost h done went

/-- Whatever order the steps come in and whichever of them fails, the process does what it says. -/
theorem Resumed.faithful (sound : files.Sound) (resumes : job.Resumes files path again)
    (resumed : Resumed store job files limiter run) : run.Faithful store job files again := by
  by_cases refused : ∀ source plan, ¬ Upload.Opened files job source plan
  · exact resumed.faithful_of_refusal sound refused
  · simp only [not_forall, not_not] at refused
    obtain ⟨source, plan, opened⟩ := refused
    obtain ⟨bytes, _, h⟩ := resumes.again_of_opened opened
    exact resumed.faithful_of_again sound h

end Ends

end Depot

end ChunkedUpload
