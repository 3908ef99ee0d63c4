import ChunkedUpload.Proofs.Upload.Loss
import ChunkedUpload.Proofs.Uploaders.Returns

/-! Whom a wait waits for and what the waits count together. A new wait takes over the resends that
are put down with its uploader, and no others: those that an earlier wait has taken over are left to
that wait, even while it has not returned. -/
namespace ChunkedUpload

namespace Uploaders

variable {first mid all next last : Uploaders} {log early late : Log}
  {id uploader resend : Nat} {call : SaveCall} {wait : ResendWait} {total : PoolSummary}

section Taking

/-- A new wait takes over what is put down with its uploader, and leaves nothing there. -/
theorem takes_over (missing : mid.wait? id = none)
    (stepped : mid.step? (.await id uploader) = some (next, [])) :
    next.wait? id = some ⟨uploader, mid.pending uploader, none⟩ ∧
    next.pending uploader = [] ∧ next.calls = mid.calls := by
  cases step_of_step? stepped with
  | @awaited _ _ u found =>
    have held : mid.pending uploader = u.resends := by
      rw [pending, found, Option.map_some, Option.getD_some]
    refine ⟨?_, ?_, rfl⟩
    · rw [wait?] at missing
      rw [wait?, lookup_snoc, missing, if_pos rfl, held]
      rfl
    · change (mid.updateUploader uploader _).pending uploader = []
      have emptied := @pending_updateUploader mid uploader uploader
        (fun u => { u with resends := [] }) (fun _ => []) (fun _ => rfl)
        (by rw [found, Option.isSome_some])
      rwa [if_pos rfl] at emptied

theorem Run.new_wait (later : Run mid ((.await id uploader, []) :: late) last) :
    ∃ result, last.wait? id = some ⟨uploader, mid.pending uploader, result⟩ := by
  obtain ⟨next, missing, stepped, after⟩ := later.uncons
  obtain ⟨result, there, _⟩ := after.keeps_wait (takes_over missing stepped).1
  exact ⟨result, there⟩

end Taking

section Results

/-- The resends are the calls that were to send a part again and have queued it. -/
theorem Run.isResend_iff (run : Run first log all) (unused : first.Unused) :
    all.IsResend uploader id ↔ ∃ call, all.call? id = some call ∧ call.uploader = uploader ∧
      call.upload.job.resume.isSome = true ∧ (eventsOf id log).filterMap Event.queued? ≠ [] := by
  refine exists_congr fun call => and_congr_right fun found => and_congr_right fun _ => ?_
  obtain ⟨job, cancelled, ran⟩ := run.begun unused.calls found
  rw [(Upload.run_queuedOnce ran).1]
  constructor
  · intro queued
    have sent := Upload.sent_of_queuedResend ran queued
    obtain ⟨request, one⟩ := sent.queued
    exact ⟨sent.again, by simp [one]⟩
  · rintro ⟨again, queued⟩
    exact Upload.queuedResend_of_run ran again queued

theorem Run.resend_answered (run : Run first log all) (unused : first.Unused)
    (resend : all.IsResend uploader id) (found : all.call? id = some call) :
    call.upload.result = some (.returned (.ok none)) := by
  obtain ⟨_, there, _, queued⟩ := resend
  cases found.symm.trans there
  obtain ⟨job, cancelled, ran⟩ := run.begun unused.calls found
  exact (Upload.sent_of_queuedResend ran queued).answer

theorem run_of_waited {acts : List UploaderAct} {log : Log}
    (ran : runSteps? logged? mid (.await id uploader :: acts) = some (last, log)) :
    ∃ late, log = (.await id uploader, []) :: late ∧ Run mid log last := by
  have run := run_of_logged ran
  obtain ⟨_, _, later, begun, _, rfl⟩ := runSteps_cons ran
  unfold logged? at begun
  split at begun
  · obtain ⟨⟨_, events⟩, stepped, eq⟩ := Option.map_eq_some_iff.mp begun
    cases eq
    cases step_of_step? stepped
    exact ⟨later, rfl, run⟩
  · contradiction

/-- A process with a single uploader, for one call at a time. -/
def oneUploader : Uploaders := ⟨[⟨1, 1, [], []⟩], [⟨0, []⟩], [], []⟩

theorem oneUploader_unused : oneUploader.Unused := by
  refine ⟨rfl, rfl, fun u member => ?_⟩
  rw [List.mem_singleton.mp member]

/-- A part of a single byte is queued to be sent again. -/
def queueOneResend : List UploaderAct :=
  .save 0 0 { plainJob (Stream.ofBytes ⟨#[65]⟩) with resume := some ⟨7, 0⟩ }
    false :: (onePartMoves.take 7).map (.move 0)

/-- It is sent and taken, and its worker ends. -/
def sendOneResend : List UploaderAct :=
  [.take 0, .finish 0 .delivered, .stop, .take 0, .stop, .join].map (.move 0)

end Results

section Earlier

/-- A wait that has returned leaves no resend behind that had been queued before it began, but for
those that an earlier wait has taken over and still waits for. -/
theorem wait_covers_earlier_resends (unused : first.Unused) (run : Run first early mid)
    (later : Run mid ((.await id uploader, []) :: late) last)
    (returned : last.wait? id = some wait) (result : wait.result = some total)
    (found : mid.call? resend = some call) (own : call.uploader = uploader)
    (again : call.upload.job.resume.isSome = true)
    (queued : (eventsOf resend early).filterMap Event.queued? ≠ []) :
    call.upload.result = some (.returned (.ok none)) ∧
    (Over (early ++ (.await id uploader, []) :: late) last resend ∨
      ∃ other earlier, mid.wait? other = some earlier ∧ earlier.uploader = uploader ∧
        resend ∈ earlier.drains ∧ earlier.result = none ∧ last.wait? other = some earlier) := by
  have whole := run.trans later
  have sent : mid.IsResend uploader resend :=
    (run.isResend_iff unused).mpr ⟨call, found, own, again, queued⟩
  refine ⟨run.resend_answered unused sent found, ?_⟩
  rw [← (run.accounted unused uploader).resends, List.mem_append] at sent
  rcases sent with held | waiting
  · obtain ⟨⟨other, earlier⟩, member, same, drained⟩ := mem_drains.mp held
    have there := lookup_of_mem (run.wait_numbers unused.waits) member
    obtain ⟨now, still, kept⟩ := later.keeps_wait there
    -- the earlier wait has returned by now, or it has not and is as it was
    cases now with
    | some count => exact .inl ((whole.counted unused still rfl).2.2 resend drained)
    | none =>
      have unreturned : earlier.result = none := by
        cases before : earlier.result with
        | none => rfl
        | some count => cases kept count before
      refine .inr ⟨other, earlier, there, same, drained, unreturned, still.trans ?_⟩
      rw [← unreturned]
  · obtain ⟨_, there⟩ := later.new_wait
    cases returned.symm.trans there
    exact .inl ((whole.counted unused returned result).2.2 resend waiting)

/-- The only wait returns when the resend that was queued before it is over. -/
theorem single_wait_covers_resend :
    oneUploader.Unused ∧ ∃ early mid late last wait total call,
      Run oneUploader early mid ∧ Run mid ((.await 1 0, []) :: late) last ∧
      last.wait? 1 = some wait ∧ wait.result = some total ∧
      mid.call? 0 = some call ∧ call.uploader = 0 ∧
      call.upload.job.resume.isSome = true ∧
      (eventsOf 0 early).filterMap Event.queued? ≠ [] ∧
      Over (early ++ (.await 1 0, []) :: late) last 0 := by
  have ran : ((runSteps? logged? oneUploader queueOneResend).bind fun mid =>
      (runSteps? logged? mid.1 (.await 1 0 :: sendOneResend ++ [.settle 1])).map fun last =>
        (mid.1.resent 0, mid.1.waits.length, (last.1.wait? 1).map (·.result.isSome))) =
      some ([0], 0, some true) := by decide +kernel
  obtain ⟨⟨mid, early⟩, run, after⟩ := Option.bind_eq_some_iff.mp ran
  obtain ⟨⟨last, rest⟩, later, facts⟩ := Option.map_eq_some_iff.mp after
  simp only [Prod.mk.injEq] at facts
  obtain ⟨sent, unwaited, settled⟩ := facts
  replace run := run_of_logged run
  obtain ⟨late, rfl, later⟩ := run_of_waited later
  obtain ⟨wait, returned, ended⟩ := Option.map_eq_some_iff.mp settled
  obtain ⟨total, result⟩ := Option.isSome_iff_exists.mp ended
  have resend : mid.IsResend 0 0 := by
    rw [← run.mem_resent oneUploader_unused, sent]
    exact List.mem_singleton_self 0
  obtain ⟨call, found, own, again, queued⟩ := (run.isResend_iff oneUploader_unused).mp resend
  obtain ⟨_, rests⟩ := wait_covers_earlier_resends oneUploader_unused run later returned result
    found own again queued
  refine ⟨oneUploader_unused, early, mid, late, last, wait, total, call, run, later, returned,
    result, found, own, again, queued, rests.resolve_right ?_⟩
  rintro ⟨other, earlier, there, _⟩
  rw [wait?, List.length_eq_zero_iff.mp unwaited] at there
  contradiction

/-- A second wait returns while the first one still holds the resend, and the resend is on its
way. -/
theorem second_wait_returns_early :
    oneUploader.Unused ∧ ∃ early mid late last call,
      Run oneUploader early mid ∧ Run mid ((.await 2 0, []) :: late) last ∧
      last.wait? 2 = some ⟨0, [], some ⟨0, 0⟩⟩ ∧
      mid.call? 0 = some call ∧ call.uploader = 0 ∧ call.upload.job.resume.isSome = true ∧
      (eventsOf 0 early).filterMap Event.queued? ≠ [] ∧
      call.upload.result = some (.returned (.ok none)) ∧
      (eventsOf 0 (early ++ (.await 2 0, []) :: late)).filterMap Event.ended? = [] ∧
      ¬ Over (early ++ (.await 2 0, []) :: late) last 0 := by
  have ran : ((runSteps? logged? oneUploader
      (queueOneResend ++ [.move 0 (.take 0), .await 1 0])).bind fun mid =>
        (runSteps? logged? mid.1 [.await 2 0, .settle 2]).map fun last =>
          (mid.1.resent 0, last.1.wait? 2,
            ((eventsOf 0 (mid.2 ++ last.2)).filterMap Event.ended?).length)) =
      some ([0], some ⟨0, [], some ⟨0, 0⟩⟩, 0) := by decide +kernel
  obtain ⟨⟨mid, early⟩, run, after⟩ := Option.bind_eq_some_iff.mp ran
  obtain ⟨⟨last, rest⟩, later, facts⟩ := Option.map_eq_some_iff.mp after
  simp only [Prod.mk.injEq] at facts
  obtain ⟨sent, settled, unended⟩ := facts
  replace run := run_of_logged run
  obtain ⟨late, rfl, later⟩ := run_of_waited later
  have none_ended := List.length_eq_zero_iff.mp unended
  have resend : mid.IsResend 0 0 := by
    rw [← run.mem_resent oneUploader_unused, sent]
    exact List.mem_singleton_self 0
  obtain ⟨call, found, own, again, queued⟩ := (run.isResend_iff oneUploader_unused).mp resend
  have answer := run.resend_answered oneUploader_unused resend found
  refine ⟨oneUploader_unused, early, mid, late, last, call, run, later, settled, found, own, again,
    queued, answer, none_ended, ?_⟩
  rintro ⟨_, _, _, _, _, _, _, one, _⟩
  rw [none_ended] at one
  contradiction

end Earlier

end Uploaders

end ChunkedUpload
