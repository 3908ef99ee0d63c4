import ChunkedUpload.Proofs.Depot.Resumed
import ChunkedUpload.Proofs.Host.Settling
import ChunkedUpload.Proofs.Upload.Errand

/-! What a host does that sends one part into a store again and waits for it, move by move. A call
that is refused ends at once; any other has its part queued, returns, and goes on in the background
until its worker has ended. -/
namespace ChunkedUpload

/-- A file that the upload opens is nobody else's. -/
theorem Source.ofInput_path {files : FileSystem} {input : Input} {path : Path} {limit : UInt64}
    (own : input = .path path) : (ofInput files input limit).2 = none := by
  rw [own, ofInput]
  split <;> rfl

namespace Host

/-- The provider once it has made a session for the call. -/
def connected : Provider :=
  ((Store.provider.askHome.2.request 0 Store.endpoint).advance?).getD Store.provider

/-- A host whose call has no answer yet. -/
def calling (store : Store) (files : FileSystem) (job : UploadJob) (slots : Nat)
    (provider : Provider) (stage : Stage) : Host :=
  ⟨.single ⟨slots + 1, slots, [0], []⟩ [] [] ⟨job, false, stage, none⟩, files, .store store,
    provider, [], [], []⟩

/-- A host whose call has returned and goes on in the background. -/
def sending (store : Store) (files : FileSystem) (job : UploadJob) (slots : Nat)
    (inFlight : List (Nat × Nat)) (seen : List (Nat × Event)) (delivered : List Int64)
    (dispatch : Dispatch) : Host :=
  ⟨.single ⟨slots + 1, slots + 1, [], []⟩ [0] []
    ⟨job, false, .dispatching dispatch, some (.returned (.ok none))⟩, files, .store store,
    connected, inFlight, seen, delivered⟩

section Calling

variable {store : Store} {files : FileSystem} {job : UploadJob} {slots : Nat}
  {source after : Source} {plan : UploadPlan} {payload : ByteArray} {request : PartRequest}

theorem save_calling (store : Store) (files : FileSystem) (job : UploadJob) (slots : Nat) :
    (store.host files ⟨slots + 1, slots + 1, [], []⟩).act? 0 (.save 0 0 job false) =
      some (calling store files job slots Store.provider .waiting) := by
  rw [calling, ← Admission.request_of_free slots 0]
  rfl

theorem calling_enters :
    (calling store files job slots Store.provider .waiting).advance? =
      some (calling store files job slots Store.provider .opening) := rfl

theorem calling_opens
    (found : Source.ofInput files job.input job.limit.bytes = (.ok source, none))
    (planned : UploadPlan.make source.size job.resume job.freshId = .ok plan) :
    (calling store files job slots Store.provider .opening).advance? =
      some (calling store files job slots Store.provider.askHome.2 (.locating source plan)) := by
  have step := Upload.step?_openInput false found planned
  exact advance_own rfl rfl rfl rfl rfl (move_single (by simp) step rfl)

theorem calling_locates :
    (calling store files job slots Store.provider.askHome.2 (.locating source plan)).advance? =
      some (calling store files job slots (Store.provider.askHome.2.request 0 Store.endpoint)
        (.connecting source plan Store.endpoint)) := rfl

theorem calling_waits :
    (calling store files job slots (Store.provider.askHome.2.request 0 Store.endpoint)
      (.connecting source plan Store.endpoint)).advance? =
      some (calling store files job slots connected (.connecting source plan Store.endpoint)) := rfl

theorem calling_connects (resends : plan.mode.isResend = true) :
    (calling store files job slots connected
      (.connecting source plan Store.endpoint)).advance? =
      some (calling store files job slots connected
        (.dispatching (.first plan source (Pool.start 1) .seeking))) := by
  rw [← Dispatch.start_first resends]
  rfl

theorem calling_seeks (sought : source.seekToPart plan.startPart = (.ok (), after)) :
    (calling store files job slots connected
      (.dispatching (.first plan source (Pool.start 1) .seeking))).advance? =
      some (calling store files job slots connected
        (.dispatching (.first plan after (Pool.start 1) .reading))) := by
  rw [← Dispatch.seek_first sought]
  rfl

theorem calling_reads (read : source.readPart = (.part payload, after)) :
    (calling store files job slots connected
      (.dispatching (.first plan source (Pool.start 1) .reading))).advance? =
      some (calling store files job slots connected (.dispatching (.first plan after
        (Pool.start 1) (.queueing (plan.request plan.startPart payload))))) := by
  have stepped : (⟨job, false, .dispatching (.first plan source (Pool.start 1) .reading), none⟩ :
      Upload).step? .read = _ := Upload.step?_read rfl rfl rfl
  rw [Dispatch.read_first read] at stepped
  exact advance_own rfl rfl rfl rfl rfl (move_single (by simp) stepped rfl)

theorem calling_queues (resends : plan.mode.isResend = true) :
    (calling store files job slots connected
      (.dispatching (.first plan source (Pool.start 1) (.queueing request)))).advance? =
      some (sending store files job slots [] [(0, .queued request)] []
        (.first plan source ⟨⟨some (.part request), 1, 1⟩, [.idle], 0, 0⟩
          (.stopping 1 .resumeQueued))) := by
  have stepped : (⟨job, false, .dispatching (.first plan source (Pool.start 1) (.queueing request)),
      none⟩ : Upload).step? .enqueue = _ := Upload.step?_enqueue rfl rfl rfl resends
      (Dispatch.enqueue?_first resends)
  exact advance_own rfl rfl rfl rfl rfl (answer_single (by simp) stepped rfl)

end Calling

/-- A host whose worker has begun with the part. -/
def begun (store : Store) (files : FileSystem) (job : UploadJob) (slots : Nat) (plan : UploadPlan)
    (source : Source) (request : PartRequest) : Host :=
  sending store files job slots [(0, 0)] [(0, .queued request), (0, .started request)] []
    (.first plan source ⟨⟨none, 1, 1⟩, [.busy request], 0, 0⟩ (.stopping 1 .resumeQueued))

/-- A host whose worker has ended. -/
def ended (store : Store) (files : FileSystem) (job : UploadJob) (slots : Nat)
    (seen : List (Nat × Event)) (delivered : List Int64) (plan : UploadPlan) (source : Source)
    (counts : PoolSummary) : Host :=
  sending store files job slots [] seen delivered
    (.first plan source ⟨⟨none, 1, 0⟩, [.exited], counts.delivered, counts.failed⟩
      (.finished .resumeQueued counts))

section Sending

variable {store : Store} {files after : FileSystem} {job : UploadJob} {slots sent lost : Nat}
  {seen : List (Nat × Event)} {delivered : List Int64} {source : Source} {plan : UploadPlan}
  {request : PartRequest} {error : IoError}

theorem sending_begins :
    (sending store files job slots [] seen [] (.first plan source
      ⟨⟨some (.part request), 1, 1⟩, [.idle], 0, 0⟩ (.stopping 1 .resumeQueued))).advance? =
      some (sending store files job slots [(0, 0)] (seen ++ [(0, .started request)]) []
        (.first plan source ⟨⟨none, 1, 1⟩, [.busy request], 0, 0⟩ (.stopping 1 .resumeQueued))) := rfl

theorem sending_delivers (done : store.deliver request files = (.ok (), after)) :
    (sending store files job slots [(0, 0)] seen [] (.first plan source
      ⟨⟨none, 1, 1⟩, [.busy request], 0, 0⟩ (.stopping 1 .resumeQueued))).advance? =
      some (sending store after job slots [] (seen ++ [(0, .ended request .delivered)])
        [request.fileId] (.first plan source ⟨⟨none, 1, 1⟩, [.idle], 1, 0⟩
          (.stopping 1 .resumeQueued))) := by
  have answer : (sending store files job slots [(0, 0)] seen [] (.first plan source
      ⟨⟨none, 1, 1⟩, [.busy request], 0, 0⟩ (.stopping 1 .resumeQueued))).reply? request =
      some (.delivered, sending store after job slots [(0, 0)] seen [] (.first plan source
        ⟨⟨none, 1, 1⟩, [.busy request], 0, 0⟩ (.stopping 1 .resumeQueued))) := by
    simp only [reply?, sending, done]
  exact advance_answer rfl rfl answer rfl

theorem sending_fails (done : store.deliver request files = (.error error, after)) :
    (sending store files job slots [(0, 0)] seen [] (.first plan source
      ⟨⟨none, 1, 1⟩, [.busy request], 0, 0⟩ (.stopping 1 .resumeQueued))).advance? =
      some (sending store after job slots [] (seen ++ [(0, .ended request (.refused (.io error)))])
        [] (.first plan source ⟨⟨none, 1, 1⟩, [.idle], 0, 1⟩ (.stopping 1 .resumeQueued))) := by
  have answer : (sending store files job slots [(0, 0)] seen [] (.first plan source
      ⟨⟨none, 1, 1⟩, [.busy request], 0, 0⟩ (.stopping 1 .resumeQueued))).reply? request =
      some (.refused (.io error), sending store after job slots [(0, 0)] seen [] (.first plan source
        ⟨⟨none, 1, 1⟩, [.busy request], 0, 0⟩ (.stopping 1 .resumeQueued))) := by
    simp only [reply?, sending, done]
  exact advance_answer rfl rfl answer rfl

theorem sending_shuts_down :
    (sending store files job slots [] seen delivered (.first plan source
      ⟨⟨none, 1, 1⟩, [.idle], sent, lost⟩ (.stopping 1 .resumeQueued))).advance? =
      some (sending store files job slots [] seen delivered (.first plan source
        ⟨⟨some .shutdown, 1, 1⟩, [.idle], sent, lost⟩ (.stopping 0 .resumeQueued))) := rfl

theorem sending_exits :
    (sending store files job slots [] seen delivered (.first plan source
      ⟨⟨some .shutdown, 1, 1⟩, [.idle], sent, lost⟩ (.stopping 0 .resumeQueued))).advance? =
      some (sending store files job slots [] seen delivered (.first plan source
        ⟨⟨none, 1, 0⟩, [.exited], sent, lost⟩ (.stopping 0 .resumeQueued))) := rfl

theorem sending_stops :
    (sending store files job slots [] seen delivered (.first plan source
      ⟨⟨none, 1, 0⟩, [.exited], sent, lost⟩ (.stopping 0 .resumeQueued))).advance? =
      some (sending store files job slots [] seen delivered (.first plan source
        ⟨⟨none, 1, 0⟩, [.exited], sent, lost⟩ (.joining .resumeQueued))) := rfl

theorem sending_joins :
    (sending store files job slots [] seen delivered (.first plan source
      ⟨⟨none, 1, 0⟩, [.exited], sent, lost⟩ (.joining .resumeQueued))).advance? =
      some (sending store files job slots [] seen delivered (.first plan source
        ⟨⟨none, 1, 0⟩, [.exited], sent, lost⟩ (.finished .resumeQueued ⟨sent, lost⟩))) := rfl

theorem sending_rests :
    (sending store files job slots [] seen delivered (.first plan source
      ⟨⟨none, 1, 0⟩, [.exited], sent, lost⟩ (.finished .resumeQueued ⟨sent, lost⟩))).advance? =
      none := rfl

end Sending

section Runs

variable {store : Store} {files after : FileSystem} {job : UploadJob} {slots : Nat}
  {source sought spent : Source} {plan : UploadPlan} {payload : ByteArray} {error : IoError}
  {path : Path} {seen : List (Nat × Event)} {delivered : List Int64}

/-- A host whose call was refused. -/
def refusing (store : Store) (files : FileSystem) (job : UploadJob) (slots : Nat)
    (error : UploadError) : Host :=
  ⟨.single ⟨slots + 1, slots + 1, [], []⟩ [] []
    ⟨job, false, .over none, some (.returned (.error error))⟩, files, .store store, Store.provider,
    [], [], []⟩

theorem calling_refuses (store : Store) (slots : Nat) (input : job.input = .path path)
    (refused : ∀ source plan, ¬ Upload.Opened files job source plan) :
    ∃ error, (calling store files job slots Store.provider .opening).advance? =
      some (refusing store files job slots error) := by
  have owned := @Source.ofInput_path files job.input path job.limit.bytes input
  have step : ∃ error, (⟨job, false, .opening, none⟩ : Upload).step? (.openInput files) =
      some (⟨job, false, .over none, some (.returned (.error error))⟩, []) := by
    cases found : Source.ofInput files job.input job.limit.bytes with
    | mk opened stream =>
      obtain rfl : stream = none := by rw [← owned, found]
      cases opened with
      | error error => exact ⟨error, by simp only [Upload.step?, found, Upload.endEarly]⟩
      | ok source =>
        cases planned : UploadPlan.make source.size job.resume job.freshId with
        | error error =>
          exact ⟨error, by simp only [Upload.step?, found, planned, Upload.endEarly]⟩
        | ok plan => exact absurd ⟨by rw [found], planned⟩ (refused source plan)
  obtain ⟨error, step⟩ := step
  exact ⟨error, advance_own rfl rfl rfl rfl rfl (answer_single (by simp) step rfl)⟩

theorem settles_refusing (store : Store) (slots : Nat) (input : job.input = .path path)
    (refused : ∀ source plan, ¬ Upload.Opened files job source plan) :
    ∃ error, Settles 2 (calling store files job slots Store.provider .waiting)
      (refusing store files job slots error) := by
  obtain ⟨error, refuses⟩ := calling_refuses store slots input refused
  exact ⟨error, .move calling_enters (.move refuses (.rest rfl))⟩

section Planned

variable {last : Host} {count : Nat}

/-- Once a worker has the part, it is the session's turn. -/
theorem settles_of_begun (store : Store) (slots : Nat)
    (found : Source.ofInput files job.input job.limit.bytes = (.ok source, none))
    (planned : UploadPlan.make source.size job.resume job.freshId = .ok plan)
    (resends : plan.mode.isResend = true)
    (seeks : source.seekToPart plan.startPart = (.ok (), sought))
    (reads : sought.readPart = (.part payload, spent))
    (later : Settles count (begun store files job slots plan spent
      (plan.request plan.startPart payload)) last) :
    Settles (count + 9) (calling store files job slots Store.provider .waiting) last :=
  .move calling_enters <| .move (calling_opens found planned) <| .move calling_locates <|
  .move calling_waits <| .move (calling_connects resends) <| .move (calling_seeks seeks) <|
  .move (calling_reads reads) <| .move (calling_queues resends) <| .move sending_begins later

/-- Once the session has answered, the worker is shut down. -/
theorem settles_ended (counts : PoolSummary) : Settles 4
    (sending store files job slots [] seen delivered (.first plan source
      ⟨⟨none, 1, 1⟩, [.idle], counts.delivered, counts.failed⟩ (.stopping 1 .resumeQueued)))
    (ended store files job slots seen delivered plan source counts) :=
  .move sending_shuts_down <| .move sending_exits <| .move sending_stops <|
  .move sending_joins <| .rest sending_rests

end Planned

end Runs

section Waits

variable {store : Store} {files after : FileSystem} {job : UploadJob} {slots : Nat} {host : Host}
  {upload : Upload} {drains : List Nat} {total : PoolSummary} {count : Nat} {bytes : ByteArray}
  {name : String} {again : ResumePart}

/-- The host when somebody waits for the resends, or has waited for them. -/
def waiting (host : Host) (slots : Nat) (drains : List Nat) (upload : Upload)
    (result : Option PoolSummary) : Host :=
  { host with
    all := .single ⟨slots + 1, slots + 1, [], []⟩ [] [(1, ⟨0, drains, result⟩)] upload }

/-- A process whose call comes to rest and that then waits for its resends. -/
theorem run_of_settles
    (settles : Settles count (calling store files job slots Store.provider .waiting) host)
    (few : count ≤ 200)
    (all : host.all = .single ⟨slots + 1, slots + 1, [], []⟩ drains [] upload)
    (moves : (host.waiting slots drains upload none).advance? =
      some (host.waiting slots drains upload (some total)))
    (rests : (host.waiting slots drains upload (some total)).advance? = none) :
    store.run files ⟨slots + 1, slots + 1, [], []⟩ job =
      ⟨upload.result, total, host.reports.map Prod.snd, host.files⟩ := by
  have saved : (store.host files ⟨slots + 1, slots + 1, [], []⟩).save 0 0 job false = host := by
    rw [save, save_calling]
    exact settles.settle few rfl
  have awaited : host.await 1 0 = host.waiting slots drains upload (some total) := by
    have acted : host.act? 1 (.await 1 0) = some (host.waiting slots drains upload none) := by
      rw [act?, all]
      rfl
    rw [await, acted]
    exact Settles.settle (.move moves (.rest rests)) (by decide) rfl
  rw [Store.run, saved, awaited]
  rfl

theorem run_of_refusal {path : Path} (input : job.input = .path path)
    (refused : ∀ source plan, ¬ Upload.Opened files job source plan) :
    (store.run files ⟨slots + 1, slots + 1, [], []⟩ job).Faithful store job files again := by
  obtain ⟨error, settles⟩ := settles_refusing store slots input refused
  rw [run_of_settles settles (by decide) rfl rfl rfl]
  simpa [reports, refusing] using LocalRun.Faithful.refused error

/-- A part that is put, or is not, is what the wait counts. -/
theorem run_of_put {path : Path} (input : job.input = .path path)
    (h : job.Again files bytes name again) {result : Except IoError Unit}
    (done : store.putPart again.fileId again.part (pieceOf bytes again.part) files =
      (result, after)) :
    store.run files ⟨slots + 1, slots + 1, [], []⟩ job = ⟨some (.returned (.ok none)),
      match result with
      | .ok () => ⟨1, 0⟩
      | .error _ => ⟨0, 1⟩, [], after⟩ := by
  obtain ⟨source, opens, honest, sized⟩ := h.opens
  have found : Source.ofInput files job.input job.limit.bytes = (.ok source, none) :=
    Prod.ext opens (Source.ofInput_path input)
  obtain ⟨sought, spent, seeks, reads⟩ := honest.reads_part h.inside
  cases result with
  | ok =>
    have settles := settles_of_begun store slots found (h.plan sized) rfl seeks reads
      (.move (sending_delivers done) (settles_ended ⟨1, 0⟩))
    rw [run_of_settles settles (by decide) rfl rfl rfl]
    simp [reports, ended, sending, PoolSummary.add]
  | error error =>
    have settles := settles_of_begun store slots found (h.plan sized) rfl seeks reads
      (.move (sending_fails done) (settles_ended ⟨0, 1⟩))
    rw [run_of_settles settles (by decide) rfl rfl rfl]
    simp [reports, ended, sending, PoolSummary.add]

theorem run_of_again {path : Path} (input : job.input = .path path) (sound : files.Sound)
    (h : job.Again files bytes name again) :
    (store.run files ⟨slots + 1, slots + 1, [], []⟩ job).Faithful store job files again := by
  cases done : store.putPart again.fileId again.part (pieceOf bytes again.part) files with
  | mk result after =>
    rw [run_of_put input h done]
    obtain ⟨stage, went, stored⟩ := PartWriting.went_of_putPart sound done
    cases result with
    | ok =>
      obtain rfl := stored.mp rfl
      exact .stored h went
    | error error =>
      have undone : stage ≠ .done := by
        intro same
        cases stored.mpr same
      exact .lost h undone went

end Waits

end Host

/-- A process that makes its moves in the fixed order does what it says. -/
theorem Store.run_faithful {store : Store} {files : FileSystem} {limiter : Admission}
    {job : UploadJob} {path : Path} {again : ResumePart} {slots : Nat} (sound : files.Sound)
    (resumes : job.Resumes files path again) (made : Admission.make? slots = some limiter) :
    (store.run files limiter job).Faithful store job files again := by
  obtain ⟨more, rfl⟩ := Admission.free_of_make? made
  by_cases refused : ∀ source plan, ¬ Upload.Opened files job source plan
  · exact Host.run_of_refusal resumes.input refused
  · simp only [not_forall, not_not] at refused
    obtain ⟨source, plan, opened⟩ := refused
    obtain ⟨bytes, _, h⟩ := resumes.again_of_opened opened
    exact Host.run_of_again resumes.input sound h

end ChunkedUpload
