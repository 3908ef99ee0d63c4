import ChunkedUpload.Proofs.Depot.Company
import ChunkedUpload.Proofs.Depot.Resends
import ChunkedUpload.Proofs.Store.Sparing
import ChunkedUpload.Proofs.Store.Writers

/-! A process with a single call and a part store, which sends one request at most. What is being
written is that request or nothing, and once the call has queued it, a wait is for that call and for
nothing else. -/
namespace ChunkedUpload

/-- A step in the course of a single call with this job that nobody cancels. -/
def UploaderAct.IsErrand (job : UploadJob) : UploaderAct → Prop
  | save id uploader other cancelled => id = 0 ∧ uploader = 0 ∧ other = job ∧ cancelled = false
  | .move id made => id = 0 ∧ made ≠ .cancel
  | await _ _ => False
  | settle id => id = 1

/-- A step in the course of a single call over a store, or a step of a writing. -/
def DepotAct.IsErrand (job : UploadJob) : DepotAct → Prop
  | act made => made.IsErrand job
  | write _ _ => True

/-- The waits that there are have been begun one after the other. -/
theorem Uploaders.Run.waits_awaited {first all : Uploaders} {log : Log}
    (run : Run first log all) : all.waits.map Prod.fst =
      first.waits.map Prod.fst ++ log.filterMap fun entry => entry.1.awaited? := by
  induction run with
  | start => exact (List.append_nil _).symm
  | @step log all next act events _ _ stepped ih =>
    rw [(step_of_step? stepped).numbers.2, ih, List.filterMap_append, List.append_assoc]
    cases act <;> rfl

namespace Depot

open Uploaders (Log movesOf eventsOf)

/-- A store with one uploader, before there are calls. -/
def alone (files : FileSystem) (limiter : Admission) : Depot :=
  ⟨⟨[limiter], [⟨0, []⟩], [], []⟩, files, []⟩

theorem alone_unused (files : FileSystem) (limiter : Admission) :
    (alone files limiter).all.Unused := by
  refine ⟨rfl, rfl, fun u member => ?_⟩
  rw [List.mem_singleton.mp member]

section Runs

variable {store : Store} {first mid depot : Depot} {log more : Log}

theorem Run.trans (run : Run store first log mid) (later : Run store mid more depot) :
    Run store first (log ++ more) depot := by
  induction later with
  | start => rwa [List.append_nil]
  | act _ fresh stepped ih =>
    rw [← List.append_assoc]
    exact ih.act fresh stepped
  | write _ stepped ih => exact ih.write stepped

end Runs

section Errand

variable {store : Store} {requests : List PartRequest} {request : PartRequest}
  {files after : FileSystem} {limiter : Admission} {job : UploadJob}
  {Keeps : List Event → Upload → Prop} {log : Log} {depot next : Depot} {past events : List Event}
  {writings later : List (PartRequest × WriteStage)} {act : UploaderAct}

theorem heed_of_act (stepped : step? store depot (.act act) = some (next, events)) :
    next.files = depot.files ∧ events.foldlM heed depot.writings = some next.writings := by
  obtain ⟨⟨all, seen⟩, acted, later⟩ := Option.bind_eq_some_iff.mp stepped
  obtain ⟨writings, heeded, eq⟩ := Option.map_eq_some_iff.mp later
  cases eq
  exact ⟨rfl, heeded⟩

/-- The call has not come, or the store serves it. -/
def Awaits (store : Store) (requests : List PartRequest) (files : FileSystem)
    (Keeps : List Event → Upload → Prop) (past : List Event) (depot : Depot) : Prop :=
  (past = [] ∧ depot.all.call? 0 = none ∧ depot.files = files ∧ depot.writings = []) ∨
  Serving store requests files 0 0 Keeps past depot

/-- Whoever waits concerns neither the call nor what is written. -/
theorem Awaits.aside (awaits : Awaits store requests files Keeps past depot) {all : Uploaders}
    (heeded : Heeded depot.writings [] writings) (same : all.calls = depot.all.calls) :
    Awaits store requests files Keeps past { depot with all := all, writings := writings } := by
  refine awaits.imp ?_ fun serving => serving.aside heeded same
  rintro ⟨silent, new, unchanged, idle⟩
  refine ⟨silent, (Uploaders.call?_congr same 0).trans new, unchanged, ?_⟩
  have calls := heeded.calls
  rw [idle] at calls
  exact List.map_eq_nil_iff.mp calls.symm.eq_nil

theorem Awaits.step (course : Course requests files (Move.Calm files) Keeps) (sound : files.Sound)
    (begins : Keeps [] (Upload.begin job false))
    (awaits : Awaits store requests files Keeps past depot)
    (errand : (heard depot.files act).IsErrand job ∨ heard depot.files act = .await 1 0)
    (fresh : (heard depot.files act).IsNew depot.all)
    (stepped : step? store depot (.act act) = some (next, events)) :
    Awaits store requests files Keeps (past ++ events) next := by
  obtain ⟨all, writings, acted, heeded, rfl⟩ := step_of_act stepped
  have step := Uploaders.step_of_step? acted
  cases act with
  | save id uploader other cancelled =>
    obtain ⟨rfl, rfl, rfl, rfl⟩ := errand.resolve_right (by simp [heard])
    rcases awaits with ⟨rfl, new, rfl, idle⟩ | serving
    · obtain ⟨rfl, _, serving⟩ := Serving.start Keeps sound idle new begins stepped
      exact .inr serving
    · obtain ⟨_, found, _⟩ := serving.upload
      have new : depot.all.call? 0 = none := fresh
      rw [found] at new
      contradiction
  | move id move =>
    obtain ⟨rfl, calm⟩ := errand.resolve_right (by simp [heard])
    rcases awaits with ⟨_, new, _⟩ | serving
    · have silent := step.silent new
      simp [heard, UploaderAct.moveOf?] at silent
    · refine .inr (step_serving course past depot (.act (.move 0 move)) _ _ serving
        ⟨rfl, fun cancels => ?_⟩ stepped)
      cases move with
      | cancel => exact absurd rfl calm
      | _ => contradiction
  | await id uploader =>
    cases step
    rw [List.append_nil]
    exact awaits.aside heeded rfl
  | settle id =>
    cases step
    rw [List.append_nil]
    exact awaits.aside heeded rfl

theorem Run.awaits (run : Run store (alone files limiter) log depot)
    (course : Course requests files (Move.Calm files) Keeps) (sound : files.Sound)
    (begins : Keeps [] (Upload.begin job false))
    (errand : ∀ entry ∈ log, entry.1.IsErrand job ∨ entry.1 = .await 1 0) :
    Awaits store requests files Keeps (log.flatMap Prod.snd) depot := by
  induction run with
  | start => exact .inl ⟨rfl, rfl, rfl, rfl⟩
  | act _ fresh stepped ih =>
    rw [List.flatMap_append, List.flatMap_singleton]
    have before := ih fun entry member => errand entry (List.mem_append_left _ member)
    exact before.step course sound begins
      (errand (heard _ _, _) (List.mem_append_right _ (List.mem_singleton_self _))) fresh stepped
  | @write _ before _ index move _ _ stepped ih =>
    obtain ⟨rfl, _, _, _, _, found, _⟩ := step_of_write stepped
    rcases ih errand with ⟨_, _, _, idle⟩ | serving
    · simp [idle] at found
    · have served := step_serving course _ before (.write index move) _ _ serving
        ⟨trivial, fun cancels => by contradiction⟩ stepped
      rw [List.append_nil] at served
      exact .inr served

theorem Run.serves (run : Run store (alone files limiter) log depot)
    (course : Course requests files (Move.Calm files) Keeps) (sound : files.Sound)
    (begins : Keeps [] (Upload.begin job false))
    (errand : ∀ entry ∈ log, entry.1.IsErrand job ∨ entry.1 = .await 1 0) {call : SaveCall}
    (found : depot.all.call? 0 = some call) :
    call.uploader = 0 ∧ Keeps (log.flatMap Prod.snd) call.upload ∧
      ((∀ dispatch, call.upload.stage ≠ .dispatching dispatch) → depot.files = files) := by
  rcases run.awaits course sound begins errand with ⟨_, new, _⟩ | serving
  · rw [new] at found
    contradiction
  · obtain ⟨upload, there, known⟩ := serving.upload
    cases found.symm.trans there
    exact ⟨rfl, known⟩

/-- How far the only request has come, and the files with it. -/
inductive Written (store : Store) (request : PartRequest) (first : FileSystem)
    (past : List Event) (files : FileSystem) (writings : List (PartRequest × WriteStage)) : Prop
  | unbegun (started : past.filterMap Event.started? = [])
      (ended : past.filterMap Event.ended? = []) (same : files = first) (idle : writings = [])
  | under (stage : WriteStage) (started : past.filterMap Event.started? = [request])
      (ended : past.filterMap Event.ended? = [])
      (went : PartWriting.Went store first files (.ofEntry (request, stage)))
      (now : writings = [(request, stage)])
  | over (stage : WriteStage) (reply : Reply) (started : past.filterMap Event.started? = [request])
      (ended : past.filterMap Event.ended? = [(request, reply)])
      (went : PartWriting.Went store first files (.ofEntry (request, stage)))
      (answer : reply.stage? = some stage) (idle : writings = [])

theorem Written.heed {event : Event} (written : Written store request files past after writings)
    (sound : files.Sound) (heeded : heed writings event = some later)
    (sent : ((past ++ [event]).filterMap Event.started?).Sublist [request]) :
    Written store request files (past ++ [event]) after later := by
  rw [List.filterMap_append] at sent
  cases event with
  | started other =>
    cases heeded
    cases written with
    | unbegun started ended same idle =>
      rw [started] at sent
      obtain rfl : other = request := by simpa [Event.started?] using sent
      subst same
      refine .under .begun ?_ ?_ (.begun sound) (by rw [idle]; rfl)
      · rw [List.filterMap_append, started]
        rfl
      · rw [List.filterMap_append, ended]
        rfl
    | under _ started | «over» _ _ started =>
      have short := sent.length_le
      simp [started, Event.started?] at short
  | ended other reply =>
    obtain ⟨stage, answer, taken⟩ := Option.bind_eq_some_iff.mp heeded
    split at taken
    · rename_i there
      cases taken
      cases written with
      | unbegun _ _ _ idle | «over» _ _ _ _ _ _ idle =>
        rw [idle] at there
        cases there
      | under _ started ended went now =>
        rw [now, List.mem_singleton] at there
        cases there
        refine .over _ _ ?_ ?_ went answer (by simp [now])
        · rw [List.filterMap_append, started]
          rfl
        · rw [List.filterMap_append, ended]
          rfl
    · contradiction
  | askedHome | askedSession | queued | reported =>
    cases heeded
    cases written with
    | unbegun started ended same idle =>
      exact .unbegun (by simpa [Event.started?] using started)
        (by simpa [Event.ended?] using ended) same idle
    | under stage started ended went now =>
      exact .under stage (by simpa [Event.started?] using started)
        (by simpa [Event.ended?] using ended) went now
    | «over» stage reply started ended went answer idle =>
      exact .over stage reply (by simpa [Event.started?] using started)
        (by simpa [Event.ended?] using ended) went answer idle

theorem Written.heed_all (written : Written store request files past after writings)
    (sound : files.Sound) (heeded : events.foldlM Depot.heed writings = some later)
    (sent : ((past ++ events).filterMap Event.started?).Sublist [request]) :
    Written store request files (past ++ events) after later := by
  induction events generalizing past writings with
  | nil =>
    cases heeded
    rwa [List.append_nil]
  | cons event rest ih =>
    rw [List.foldlM_cons] at heeded
    obtain ⟨mid, now, others⟩ := Option.bind_eq_some_iff.mp heeded
    rw [List.append_cons] at sent ⊢
    refine ih (written.heed sound now (List.Sublist.trans ?_ sent)) others sent
    rw [List.filterMap_append (l := past ++ [event])]
    exact List.sublist_append_left _ _

theorem Written.write {index : Nat} {move : WriteMove}
    (written : Written store request files past depot.files depot.writings)
    (stepped : step? store depot (.write index move) = some (next, events)) :
    Written store request files past next.files next.writings := by
  obtain ⟨entry, found, made⟩ := Option.bind_eq_some_iff.mp stepped
  obtain ⟨⟨writing, changed⟩, went_on, eq⟩ := Option.map_eq_some_iff.mp made
  cases eq
  obtain ⟨reached, same, step⟩ := PartWriting.step_of_step? went_on
  have going := PartWriting.isOver_of_step? went_on
  cases written with
  | unbegun _ _ _ idle | «over» _ _ _ _ _ _ idle => simp [idle] at found
  | under stage started ended went now =>
    rw [now] at found
    obtain ⟨rfl, rfl⟩ : index = 0 ∧ entry = (request, stage) := by
      cases index with
      | zero => exact ⟨rfl, (Option.some.inj found).symm⟩
      | succ index => simp at found
    have wrote : PartWriting.Step store depot.files
        ⟨request.fileId, request.part, request.payload, stage⟩ reached changed := step
    refine .under reached started ended (PartWriting.Went.step went ?_ wrote) (by simp [now, same])
    rintro rfl
    contradiction

theorem Run.written (run : Run store (alone files limiter) log depot)
    (course : Course [request] files (Move.Calm files) Keeps) (sound : files.Sound)
    (begins : Keeps [] (Upload.begin job false))
    (errand : ∀ entry ∈ log, entry.1.IsErrand job ∨ entry.1 = .await 1 0) :
    Written store request files (log.flatMap Prod.snd) depot.files depot.writings := by
  induction run with
  | start => exact .unbegun rfl rfl rfl rfl
  | @act log before after act events ran fresh stepped ih =>
    have written := ih fun entry member => errand entry (List.mem_append_left _ member)
    obtain ⟨unchanged, heeded⟩ := heed_of_act stepped
    have sent : (((log ++ [(heard before.files act, events)]).flatMap Prod.snd).filterMap
        Event.started?).Sublist [request] := by
      rcases (ran.act fresh stepped).awaits course sound begins errand with ⟨silent, _⟩ | serving
      · rw [silent]
        exact List.nil_sublist _
      · obtain ⟨_, _, keeps, _⟩ := serving.upload
        exact course.started _ _ keeps
    rw [List.flatMap_append, List.flatMap_singleton] at sent ⊢
    rw [unchanged]
    exact written.heed_all sound heeded sent
  | write _ stepped ih => exact (ih errand).write stepped

end Errand

section Single

variable {store : Store} {files : FileSystem} {limiter : Admission} {job : UploadJob} {log : Log}
  {depot : Depot}

/-- There is no other call. -/
theorem Run.only_call (run : Run store (alone files limiter) log depot)
    (errand : ∀ entry ∈ log, entry.1.IsErrand job) {id : Nat} {call : SaveCall}
    (found : depot.all.call? id = some call) : id = 0 := by
  obtain ⟨cancelled, saved, _⟩ := run.uploaders.job_run rfl found
  exact (errand _ saved).1

/-- What is to be waited for once the call has queued its part, and nobody has waited before. -/
theorem Run.pending_eq (run : Run store (alone files limiter) log depot)
    (errand : ∀ entry ∈ log, entry.1.IsErrand job) (queued : depot.all.IsResend 0 0) :
    depot.all.pending 0 = [0] := by
  have unwaited : depot.all.waits = [] := by
    refine List.map_eq_nil_iff.mp (run.uploaders.waits_awaited.trans ?_)
    refine (List.nil_append _).trans (List.filterMap_eq_nil_iff.mpr fun entry member => ?_)
    cases act : entry.1 with
    | save | move | settle => rfl
    | await =>
      have never := errand entry member
      rw [act] at never
      exact never.elim
  have accounted := run.uploaders.accounted (alone_unused files limiter) 0
  have untaken : depot.all.drains 0 = [] := by
    rw [Uploaders.drains, unwaited, List.flatMap_nil]
  obtain ⟨once, resends⟩ := accounted
  rw [untaken, List.nil_append] at once resends
  refine List.perm_singleton.mp ((List.perm_ext_iff_of_nodup once (List.nodup_singleton 0)).mpr ?_)
  intro id
  rw [resends, List.mem_singleton]
  constructor
  · rintro ⟨call, found, _⟩
    exact run.only_call errand found
  · rintro rfl
    exact queued

/-- All that happens in a run like this happens to its call. -/
theorem Run.eventsOf_eq (run : Run store (alone files limiter) log depot)
    (errand : ∀ entry ∈ log, entry.1.IsErrand job ∨ entry.1 = .await 1 0) :
    eventsOf 0 log = log.flatMap Prod.snd := by
  rw [eventsOf]
  refine List.flatMap_congr fun entry member => ?_
  rcases run.uploaders.mover member with silent | ⟨id, move, _, moved, _⟩
  · rw [silent, ite_self]
  · have own := (errand entry member).resolve_right (by simp [moved])
    rw [moved] at own
    rw [moved, own.1]
    exact if_pos rfl

end Single

end Depot

end ChunkedUpload
