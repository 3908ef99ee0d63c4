import ChunkedUpload.Proofs.Depot.RoundTrip
import ChunkedUpload.Proofs.Upload.Background
import ChunkedUpload.Proofs.Uploaders.Company

/-! Calls in company whose session is one part store. Since no two of them have to do with the same
file, no two of their writings have to do with the same part; so what has been delivered stays as it
was sent, and who has a reference can have its own file put together, whoever else is writing. -/
namespace ChunkedUpload

theorem nodup_places {requests : List PartRequest}
    (each : ∀ fileId, ((requests.filter fun request => request.fileId = fileId).map
      PartRequest.part).Nodup) : (requests.map PartRequest.place).Nodup := by
  induction requests with
  | nil => exact List.nodup_nil
  | cons request rest ih =>
    rw [List.map_cons, List.nodup_cons]
    constructor
    · intro again
      obtain ⟨other, member, same⟩ := List.mem_map.mp again
      obtain ⟨file, part⟩ := Prod.mk.inj same
      have once := each request.fileId
      rw [List.filter_cons_of_pos (by simp), List.map_cons, List.nodup_cons] at once
      refine once.1 (List.mem_map.mpr ⟨other, List.mem_filter.mpr ⟨member, ?_⟩, part⟩)
      simpa using file
    · refine ih fun fileId => (each fileId).sublist ?_
      exact ((List.sublist_cons_self request rest).filter _).map _

namespace Uploaders

variable {first all : Uploaders} {log more : Log} {id : Nat} {call : SaveCall}

theorem sentIn_append (log more : Log) : sentIn (log ++ more) = sentIn log ++ sentIn more := by
  rw [sentIn, List.flatMap_append, List.filterMap_append, sentIn, sentIn]

/-- No call sends more parts than there are numbers for them. -/
def Countable (log : Log) : Prop :=
  ∀ id, ((eventsOf id log).filterMap Event.started?).length ≤ 2 ^ 32

theorem eventsOf_sublist (id : Nat) (log : Log) :
    (eventsOf id log).Sublist (log.flatMap Prod.snd) := by
  induction log with
  | nil => exact List.nil_sublist _
  | cons entry rest ih =>
    rw [eventsOf, List.flatMap_cons, List.flatMap_cons]
    refine List.Sublist.append ?_ ih
    split
    · exact List.Sublist.refl _
    · exact List.nil_sublist _

theorem countable_of_few (few : (sentIn log).length ≤ 2 ^ 32) : Countable log := fun id =>
  Nat.le_trans ((eventsOf_sublist id log).filterMap Event.started?).length_le few

theorem Run.places_nodup (run : Run first log all) (fresh : first.calls = []) (apart : all.Apart)
    (countable : Countable log) : ((sentIn log).map PartRequest.place).Nodup := by
  refine nodup_places fun fileId => ?_
  by_cases owned : ∃ id call, all.call? id = some call ∧ call.upload.job.fileId = fileId
  · obtain ⟨id, call, found, rfl⟩ := owned
    obtain ⟨_, _, ran⟩ := run.job_run fresh found
    rw [run.sent_of_file fresh apart found]
    exact Upload.run_parts_nodup ran (countable id)
  · have nothing : (sentIn log).filter (fun request => request.fileId = fileId) = [] := by
      refine List.filter_eq_nil_iff.mpr fun request sent same => owned ?_
      obtain ⟨entry, there, began⟩ := Uploaders.mem_seen.mp sent
      obtain ⟨id, _, call, _, found, carries⟩ := run.carried fresh there began
      exact ⟨id, call, found, carries.symm.trans (by simpa using same)⟩
    rw [nothing]
    exact List.nodup_nil

end Uploaders

namespace Depot

open Uploaders (Log sentIn movesOf eventsOf mem_seen seen_of_eventsOf)

/-- A store and its calls, with what the calls have heard. -/
inductive Run (store : Store) (first : Depot) : Log → Depot → Prop
  | start : Run store first [] first
  | act {log : Log} {depot next : Depot} {act : UploaderAct} {events : List Event}
      (ran : Run store first log depot) (fresh : (heard depot.files act).IsNew depot.all)
      (stepped : step? store depot (.act act) = some (next, events)) :
      Run store first (log ++ [(heard depot.files act, events)]) next
  | write {log : Log} {depot next : Depot} {index : Nat} {move : WriteMove} {events : List Event}
      (ran : Run store first log depot)
      (stepped : step? store depot (.write index move) = some (next, events)) :
      Run store first log next

variable {store : Store} {first depot : Depot} {log : Log}
  {request : PartRequest} {id : Nat} {call : SaveCall} {bytes : ByteArray}
  {reference : FileReference}

theorem Run.uploaders (run : Run store first log depot) :
    Uploaders.Run first.all log depot.all := by
  induction run with
  | start => exact .start
  | act _ fresh stepped ih =>
    obtain ⟨_, _, acted, _, rfl⟩ := step_of_act stepped
    exact ih.step fresh acted
  | write _ stepped ih =>
    obtain ⟨_, _, _, _, _, _, _, rfl⟩ := step_of_write stepped
    exact ih

theorem Run.kept (run : Run store first log depot) (rests : first.Rests)
    (requests : List PartRequest)
    (distinct : ((sentIn log).map PartRequest.place).Nodup)
    (own : ∀ sent ∈ sentIn log, ∀ other ∈ requests, other.place = sent.place → other = sent) :
    Kept store requests first.files (log.flatMap Prod.snd) depot := by
  induction run with
  | start => exact .start rests.sound rests.idle rfl
  | @act log depot next act events ran fresh stepped ih =>
    rw [Uploaders.sentIn_append] at distinct own
    have kept := ih (distinct.sublist ((List.sublist_append_left _ _).map _))
      fun sent member => own sent (List.mem_append_left _ member)
    obtain ⟨_, _, _, heeded, rfl⟩ := step_of_act stepped
    rw [List.flatMap_append, List.flatMap_singleton]
    exact kept.heed heeded
  | write _ stepped ih =>
    have kept := ih distinct own
    obtain ⟨_, _, _, _, _, found, step, rfl⟩ := step_of_write stepped
    obtain ⟨once, sent⟩ := kept.places distinct
    exact kept.write once (fun entry member => own entry.1 (sent entry member)) found step

section Company

variable (run : Run store first log depot) (rests : first.Rests) (fresh : first.all.Fresh)
  (apart : depot.all.Apart) (countable : Uploaders.Countable log)

include run rests fresh apart countable

/-- What has been delivered is stored as it was sent, and so is still what was stored before and
nobody sends again. -/
theorem Run.stored
    (reached : (request, Reply.delivered) ∈ (log.flatMap Prod.snd).filterMap Event.ended? ∨
      store.Has first.files request ∧ ∀ sent ∈ sentIn log, sent.place ≠ request.place) :
    store.Has depot.files request := by
  have distinct := run.uploaders.places_nodup fresh.calls apart countable
  have began : (request, Reply.delivered) ∈ (log.flatMap Prod.snd).filterMap Event.ended? →
      request ∈ sentIn log := by
    intro delivered
    have calls := (run.kept rests [] distinct (by simp)).calls
    exact calls.mem_iff.mpr (List.mem_append_left _ (List.mem_map_of_mem delivered))
  have kept := run.kept rests [request] distinct fun sent member other asked same => by
    obtain rfl := List.mem_singleton.mp asked
    rcases reached with delivered | ⟨_, untouched⟩
    · exact List.inj_on_of_nodup_map distinct (began delivered) member same
    · exact absurd same.symm (untouched sent member)
  refine kept.stored request (List.mem_singleton_self request) ?_
  rcases reached with delivered | ⟨before, _⟩
  · exact .inr (.inr delivered)
  · exact .inl before

theorem Run.complete (found : depot.all.call? id = some call)
    (brings : call.upload.job.Brings (· ∈ movesOf id log) bytes)
    (given : call.upload.result = some (.returned (.ok (some reference)))) :
    reference.fileId = call.upload.job.fileId ∧ 0 < bytes.size ∧
    reference.parts.toNat = partsFor bytes.size ∧
    ∀ part < reference.parts,
      store.Holds depot.files reference.fileId part (pieceOf bytes part) := by
  obtain ⟨_, _, ran⟩ := run.uploaders.job_run fresh.calls found
  have standing := Upload.run_known (fun _ member => member : ∀ move ∈ movesOf id log, move ∈ _) ran
  have whole : call.upload.job.resume = none := by
    obtain ⟨_, _, _, _, known, _, _, made⟩ := standing.dispatch_of_reference given
    have resend := known.working.isResend
    rw [(UploadPlan.reference_eq made).1] at resend
    simpa using resend.symm
  obtain ⟨some_bytes, fileId, parts, _, delivered⟩ := standing.delivered whole brings given
  have count : reference.parts.toNat = partsFor bytes.size := by
    rw [parts, UInt32.toNat_ofNat_of_lt' (partsFor_lt brings.few)]
  refine ⟨by rw [fileId, UploadJob.fileId, whole]; rfl, some_bytes, count, fun part below => ?_⟩
  have inside : part.toNat < partsFor bytes.size := count ▸ UInt32.lt_iff_toNat_lt.mp below
  have sent := delivered.mem_iff.mpr (wholeRequest_mem call.upload.job.freshId inside)
  obtain ⟨⟨_, reply⟩, member, rfl⟩ := List.mem_map.mp sent
  obtain ⟨there, answer⟩ := List.mem_filter.mp member
  obtain rfl : reply = .delivered := by simpa using answer
  rw [fileId, ← Store.has_iff_holds]
  exact run.stored rests fresh apart countable (.inl (mem_seen.mpr (seen_of_eventsOf there)))

theorem Run.assembles (found : depot.all.call? id = some call)
    (brings : call.upload.job.Brings (· ∈ movesOf id log) bytes)
    (given : call.upload.result = some (.returned (.ok (some reference)))) {out : Path}
    {number : Nat} (outside : store.Outside depot.files out)
    (writable : (FileSystem.create out depot.files).1 = .ok (.file number)) :
    ∃ after, store.assemble reference.fileId reference.parts out depot.files =
      (.ok bytes.size, after) ∧ after.read out = .ok bytes := by
  obtain ⟨_, some_bytes, count, held⟩ :=
    run.complete rests fresh apart countable found brings given
  have distinct := run.uploaders.places_nodup fresh.calls apart countable
  have sound := (run.kept rests [] distinct (by simp)).sound
  have positive : 0 < reference.parts := by
    rw [UInt32.lt_iff_toNat_lt, count]
    exact lt_partsFor (by simpa using some_bytes)
  have assembled := Store.assemble_eq sound positive held outside writable
  rwa [joined_pieces count] at assembled

end Company

/-- A computed run. -/
def logged? (store : Store) (depot : Depot) : DepotAct → Option (Depot × Log)
  | .act act =>
    if (heard depot.files act).IsNew depot.all then
      (step? store depot (.act act)).map fun seen => (seen.1, [(heard depot.files act, seen.2)])
    else none
  | .write index move => (step? store depot (.write index move)).map fun seen => (seen.1, [])

theorem run_of_logged {acts : List DepotAct}
    (ran : runSteps? (logged? store) first acts = some (depot, log)) :
    Run store first log depot := by
  have kept : StepKeeps (logged? store) (fun past depot => Run store first past depot)
      fun _ => True := by
    intro past depot act next seen ran _ stepped
    cases act with
    | act act =>
      by_cases fresh : (heard depot.files act).IsNew depot.all
      · simp only [logged?, if_pos fresh] at stepped
        obtain ⟨_, made, eq⟩ := Option.map_eq_some_iff.mp stepped
        cases eq
        exact ran.act fresh made
      · simp [logged?, fresh] at stepped
    | write index move =>
      obtain ⟨_, made, eq⟩ := Option.map_eq_some_iff.mp stepped
      cases eq
      rw [List.append_nil]
      exact ran.write made
  exact run_holds kept acts first depot log .start (fun _ _ => trivial) ran

/-- Whatever is on the log was asked for. -/
theorem acts_of_logged {acts : List DepotAct}
    (ran : runSteps? (logged? store) first acts = some (depot, log)) :
    ∀ entry ∈ log, ∃ made files, .act made ∈ acts ∧ entry.1 = heard files made := by
  have kept : StepKeeps (logged? store) (fun past _ => ∀ entry ∈ past,
      ∃ made files, .act made ∈ acts ∧ entry.1 = heard files made) (· ∈ acts) := by
    intro past depot act next seen listed member stepped entry there
    rcases List.mem_append.mp there with earlier | now
    · exact listed entry earlier
    cases act with
    | write index move =>
      obtain ⟨_, _, eq⟩ := Option.map_eq_some_iff.mp stepped
      cases eq
      cases now
    | act made =>
      simp only [logged?, Option.ite_none_right_eq_some, Option.map_eq_some_iff] at stepped
      obtain ⟨_, _, _, eq⟩ := stepped
      cases eq
      exact ⟨made, depot.files, member, by rw [List.mem_singleton.mp now]⟩
  exact run_holds kept acts first depot log (by simp) (fun _ member => member) ran

theorem job_of_logged {acts : List DepotAct} (fresh : first.all.calls = [])
    (ran : runSteps? (logged? store) first acts = some (depot, log))
    (found : depot.all.call? id = some call) :
    ∃ uploader cancelled, .act (.save id uploader call.upload.job cancelled) ∈ acts := by
  obtain ⟨cancelled, saved, _⟩ := (run_of_logged ran).uploaders.job_run fresh found
  obtain ⟨made, files, member, same⟩ := acts_of_logged ran _ saved
  refine ⟨call.uploader, cancelled, ?_⟩
  cases made with
  | save =>
    cases same
    exact member
  | move | await | settle => cases same

end Depot

open Uploaders in
/-- Calls that have to do with different files do not affect each other. Whether a call is alone or
in whatever company, with the same session and the same inputs: if it has an answer in both it has
the same, and under the identifier of its file the session sees the same requests in the same order,
as far as they have come, and all of them once both are at rest. If one has its answer then so will
the other: it takes no more moves than its source has room for, and as long as it is not at rest and
there is a slot for everybody, it has a move that keeps the company. And over one part store, what
was delivered stays as it was sent, so who has a reference has its own file put together, whoever
else is sending. -/
theorem company_changes_nothing :
    (∀ (around : Surroundings) (first other : Uploaders) (log log' : Log) (all all' : Uploaders)
        (id id' : Nat) (call call' : SaveCall),
      Company around first log all → Company around other log' all' →
      all.call? id = some call → all'.call? id' = some call' →
      call.upload.job = call'.upload.job →
      let fileId := call.upload.job.fileId
      let sent := (sentIn log).filter fun request => request.fileId = fileId
      let sent' := (sentIn log').filter fun request => request.fileId = fileId
      (∀ result result', call.upload.result = some result → call'.upload.result = some result' →
        result = result') ∧
      sent = (eventsOf id log).filterMap Event.started? ∧
      (sent.length ≤ 2 ^ 32 → sent.Nodup) ∧
      (sent <+: sent' ∨ sent' <+: sent) ∧
      (call.upload.isAtRest = true → call'.upload.isAtRest = true → sent = sent') ∧
      (movesOf id log).length ≤ 5 * call.upload.job.extent around + 21 ∧
      (call'.upload.result.isSome = true → call.upload.isAtRest = false →
        ∀ place limiter, all.limiterOf? call.uploader = some place →
          all.limiters[place]? = some limiter → (all.unanswered place).length ≤ limiter.max →
          ∃ move next events, all.step? (.move id move) = some (next, events) ∧
            Company around first (log ++ [(.move id move, events)]) next)) ∧
    ∀ (store : Store) (first depot : Depot) (log : Log),
      Depot.Run store first log depot → first.Rests → first.all.Fresh → depot.all.Apart →
      Countable log →
      (∀ request,
        (request, Reply.delivered) ∈ (log.flatMap Prod.snd).filterMap Event.ended? ∨
          store.Has first.files request ∧
            (∀ sent ∈ sentIn log, sent.place ≠ request.place) →
        store.Has depot.files request) ∧
      ∀ (id : Nat) (call : SaveCall) (bytes : ByteArray) (reference : FileReference),
        depot.all.call? id = some call → call.upload.job.Brings (· ∈ movesOf id log) bytes →
        call.upload.result = some (.returned (.ok (some reference))) →
        reference.fileId = call.upload.job.fileId ∧
        ∀ out number, store.Outside depot.files out →
          (FileSystem.create out depot.files).1 = .ok (.file number) →
          ∃ after, store.assemble reference.fileId reference.parts out depot.files =
            (.ok bytes.size, after) ∧ after.read out = .ok bytes := by
  constructor
  · intro around first other log log' all all' id id' call call' company company' found found' same
      fileId sent sent'
    have one := company.lived found
    have two := company'.lived found'
    rw [← same] at two
    have own : sent = (eventsOf id log).filterMap Event.started? :=
      company.run.sent_of_file company.fresh.calls company.apart found
    have own' : sent' = (eventsOf id' log').filterMap Event.started? := by
      have its := company'.run.sent_of_file company'.fresh.calls company'.apart found'
      rwa [← same] at its
    refine ⟨fun result result' given given' => one.result_eq two given given', own,
      fun few => ?_, ?_, fun rest rest' => ?_, one.length_le,
      fun answered restless place limiter used there room => ?_⟩
    · rw [own] at few ⊢
      exact (Upload.run_parts_nodup one.run few).of_map _
    · rw [own, own']
      exact one.started_comparable two
    · rw [own, own']
      exact one.started_eq two rest rest'
    · exact company.goes_on company' found found' same.symm answered restless used there room
  · intro store first depot log run rests fresh apart countable
    refine ⟨fun request => run.stored rests fresh apart countable,
      fun id call bytes reference found brings given => ⟨?_, fun out number outside writable => ?_⟩⟩
    · exact (run.complete rests fresh apart countable found brings given).1
    · exact run.assembles rests fresh apart countable found brings given outside writable

/-- One uploader with two slots. -/
def twoSlots : Uploaders := ⟨[⟨2, 2, [], []⟩], [⟨0, []⟩], [], []⟩

def byteJob (fileId : Int64) (byte : UInt8) : UploadJob :=
  { plainJob (Stream.ofBytes ⟨#[byte]⟩) with freshId := fileId }

theorem byteJob_brings (fileId : Int64) (byte : UInt8) (Allowed : Move → Prop) :
    (byteJob fileId byte).Brings Allowed ⟨#[byte]⟩ := by
  refine UploadJob.brings_of_serves ?_ fun files _ =>
    .stream (Stream.serves_ofBytes (Nat.lt_of_lt_of_le Nat.one_lt_two (by decide)))
  change 1 ≤ _
  decide

def saveBytes : List UploaderAct :=
  [.save 0 0 (byteJob 7 65) false, .save 1 0 (byteJob 8 66) false]

theorem job_of_saveBytes {id uploader : Nat} {job : UploadJob} {cancelled : Bool}
    (saved : .save id uploader job cancelled ∈ saveBytes) :
    id = 0 ∧ job = byteJob 7 65 ∨ id = 1 ∧ job = byteJob 8 66 := by
  simp only [saveBytes, List.mem_cons, UploaderAct.save.injEq, List.not_mem_nil, or_false] at saved
  exact saved.imp (fun same => ⟨same.1, same.2.2.1⟩) fun same => ⟨same.1, same.2.2.1⟩

def movesOfCall (call : Nat) (moves : List Move) : List DepotAct :=
  moves.map fun move => .act (.move call move)

/-- What a call does before a worker takes its part. -/
def movesToQueue : List Move :=
  [.enter, .openInput FileSystem.empty, .locate (.ok 1), .connect (.ok ()), .seek, .read, .enqueue]

def afterSaving : List Move := movesToQueue ++ [.notify, .read, .take 0]

def afterWriting : List Move := [.finish 0 .delivered, .stop, .take 0, .stop, .join]

theorem twoSlots_fresh : twoSlots.Fresh := by
  refine ⟨rfl, fun limiter member => ⟨2, ?_⟩⟩
  rw [List.mem_singleton.mp member]
  decide

def quiet : Surroundings := ⟨FileSystem.empty, .ok 1, .ok (), fun _ => .ok ()⟩

def movesInTurn : List UploaderAct :=
  saveBytes ++ (afterSaving ++ afterWriting).flatMap fun move => [.move 0 move, .move 1 move]

open Uploaders in
theorem company_of_bytes {acts : List UploaderAct} (restful : Bool) (own : acts ⊆ movesInTurn)
    (outcome : ((runSteps? logged? twoSlots acts).bind fun seen =>
      (seen.1.call? 1).bind fun call => (seen.1.limiters[0]?).map fun limiter =>
        (keepsCompany quiet seen.2 seen.1, decide (seen.1.limiterOf? call.uploader = some 0),
          decide ((seen.1.unanswered 0).length ≤ limiter.max), call.upload.isAtRest,
          call.upload.result.isSome)) = some (true, true, true, restful, restful)) :
    ∃ all log call limiter, runSteps? logged? twoSlots acts = some (all, log) ∧
      Company quiet twoSlots log all ∧ all.call? 1 = some call ∧
      call.upload.job = byteJob 8 66 ∧ all.limiterOf? call.uploader = some 0 ∧
      all.limiters[0]? = some limiter ∧ (all.unanswered 0).length ≤ limiter.max ∧
      call.upload.isAtRest = restful ∧ call.upload.result.isSome = restful := by
  obtain ⟨⟨all, log⟩, ran, outcome⟩ := Option.bind_eq_some_iff.mp outcome
  obtain ⟨call, found, outcome⟩ := Option.bind_eq_some_iff.mp outcome
  obtain ⟨limiter, there, facts⟩ := Option.map_eq_some_iff.mp outcome
  simp only [Prod.mk.injEq, decide_eq_true_eq] at facts
  obtain ⟨kept, used, room, ended⟩ := facts
  have met : ∀ move ∈ afterSaving ++ afterWriting, ∀ job, move.Meets quiet job := by
    simp [afterSaving, movesToQueue, afterWriting, Move.Meets, quiet]
  refine ⟨all, log, call, limiter, ran, company_of_logged twoSlots_fresh ran ?_ kept, found, ?_,
    used, there, room, ended⟩
  · intro id move member job
    rcases List.mem_append.mp (own member) with saved | moved
    · simp [saveBytes] at saved
    · obtain ⟨made, there, same⟩ := List.mem_flatMap.mp moved
      simp only [List.mem_cons, UploaderAct.move.injEq, List.not_mem_nil, or_false] at same
      rcases same with ⟨_, rfl⟩ | ⟨_, rfl⟩ <;> exact met _ there job
  · obtain ⟨_, _, saved⟩ := job_of_logged twoSlots_fresh.calls ran found
    rcases List.mem_append.mp (own saved) with saved | moved
    · simpa using job_of_saveBytes saved
    · simp at moved

open Uploaders in
/-- Two files of one byte, step by step in turn, and one of them alone; both in one store. -/
theorem two_bytes_in_company :
    let alone := .save 1 0 (byteJob 8 66) false :: (afterSaving ++ afterWriting).map (.move 1)
    let store : Store := ⟨Path.ofString "/parts"⟩
    let out := Path.ofString "/out"
    let stored := saveBytes.map .act ++ movesOfCall 0 afterSaving ++ movesOfCall 1 afterSaving ++
      [.proceed, .proceed, .write 1, .proceed, .proceed].flatMap
        (fun move => [.write 0 move, .write 1 move]) ++
      movesOfCall 0 afterWriting ++ movesOfCall 1 afterWriting
    (∃ all log all' log' call call' reference,
      runSteps? logged? twoSlots movesInTurn = some (all, log) ∧
      runSteps? logged? twoSlots alone = some (all', log') ∧
      all.call? 1 = some call ∧ all'.call? 1 = some call' ∧
      call.upload.result = some reference ∧ call'.upload.result = some reference ∧
      (sentIn log).filter (fun request => request.fileId = 8) =
        (sentIn log').filter fun request => request.fileId = 8) ∧
    (∃ all log move next events,
      runSteps? logged? twoSlots movesInTurn.dropLast = some (all, log) ∧
      all.step? (.move 1 move) = some (next, events)) ∧
    ∃ depot log, runSteps? (Depot.logged? store) ⟨twoSlots, FileSystem.empty, []⟩ stored =
        some (depot, log) ∧
      ∀ file ∈ [((7 : Int64), (65 : UInt8)), (8, 66)],
        ∃ after, store.assemble file.1 1 out depot.files = (.ok 1, after) ∧
          after.read out = .ok ⟨#[file.2]⟩ := by
  intro alone store out stored
  obtain ⟨process, storage⟩ := company_changes_nothing
  have fewer : alone ⊆ movesInTurn := by
    refine List.cons_subset.mpr ⟨by simp [movesInTurn, saveBytes], fun act member => ?_⟩
    obtain ⟨move, there, rfl⟩ := List.mem_map.mp member
    exact List.mem_append_right _ (List.mem_flatMap.mpr ⟨move, there, by simp⟩)
  obtain ⟨all', log', call', _, single, lone, found', job', _, _, _, rest', answered'⟩ :=
    company_of_bytes true fewer (by decide +kernel)
  refine ⟨?_, ?_, ?_⟩
  · obtain ⟨all, log, call, _, ran, company, found, job, _, _, _, rest, answered⟩ :=
      company_of_bytes true (List.Subset.refl _) (by decide +kernel)
    obtain ⟨result, given⟩ := Option.isSome_iff_exists.mp answered
    obtain ⟨result', given'⟩ := Option.isSome_iff_exists.mp answered'
    obtain ⟨same, _, _, _, sent, _⟩ := process quiet twoSlots twoSlots log log' all all' 1 1
      call call' company lone found found' (job.trans job'.symm)
    rw [← same result result' given given'] at given'
    rw [job] at sent
    exact ⟨all, log, all', log', call, call', result, ran, single, found, found', given, given',
      sent rest rest'⟩
  · obtain ⟨all, log, call, limiter, ran, company, found, job, used, there, room, restless, _⟩ :=
      company_of_bytes false (List.dropLast_subset _) (by decide +kernel)
    obtain ⟨_, _, _, _, _, _, going⟩ := process quiet twoSlots twoSlots log log' all all' 1 1
      call call' company lone found found' (job.trans job'.symm)
    obtain ⟨move, next, events, made, _⟩ := going answered' restless 0 limiter used there room
    exact ⟨all, log, move, next, events, ran, made⟩
  · have outcome : ((runSteps? (Depot.logged? store) ⟨twoSlots, FileSystem.empty, []⟩ stored).bind
        fun seen => (seen.1.all.call? 0).bind fun call => (seen.1.all.call? 1).map fun call' =>
          (decide (seen.1.all.calls.map fun entry => entry.2.upload.job.fileId).Nodup &&
              decide ((sentIn seen.2).length ≤ 2 ^ 32) &&
              decide ((FileSystem.create out seen.1.files).1 = .ok (.file 2)),
            [call, call'].map fun call => (call.upload.result.bind Result.reference?).map
              fun reference => (reference.fileId, reference.parts))) =
        some (true, [some (7, 1), some (8, 1)]) := by decide +kernel
    obtain ⟨⟨depot, log⟩, ran, outcome⟩ := Option.bind_eq_some_iff.mp outcome
    obtain ⟨call, found, outcome⟩ := Option.bind_eq_some_iff.mp outcome
    obtain ⟨call', found', facts⟩ := Option.map_eq_some_iff.mp outcome
    simp only [Prod.mk.injEq, Bool.and_eq_true, decide_eq_true_eq, List.map_cons, List.map_nil,
      List.cons.injEq, and_true] at facts
    obtain ⟨⟨⟨once, few⟩, writable⟩, seven, eight⟩ := facts
    have run := Depot.run_of_logged ran
    have apart := Uploaders.apart_of_nodup run.uploaders twoSlots_fresh.calls once
    obtain ⟨_, all_assemble⟩ := storage store _ depot log run ⟨rfl, FileSystem.sound_empty⟩
      twoSlots_fresh apart (countable_of_few few)
    have named : store.root.names = [(Path.ofString "parts").bytes] := by decide +kernel
    have beside : out.names = [(Path.ofString "out").bytes] := by decide +kernel
    have outside : store.Outside depot.files out :=
      Store.outside_of_sibling named beside (by decide +kernel)
        ⟨by decide +kernel, by decide +kernel⟩ (by decide +kernel)
    have assembled : ∀ id call fileId byte, depot.all.call? id = some call →
        call.upload.job = byteJob fileId byte →
        (call.upload.result.bind Result.reference?).map
          (fun reference => (reference.fileId, reference.parts)) = some (fileId, 1) →
        ∃ after, store.assemble fileId 1 out depot.files = (.ok 1, after) ∧
          after.read out = .ok ⟨#[byte]⟩ := by
      intro id call fileId byte found job given
      obtain ⟨reference, made, both⟩ := Option.map_eq_some_iff.mp given
      obtain ⟨result, answer, is_reference⟩ := Option.bind_eq_some_iff.mp made
      rw [Result.eq_of_reference is_reference] at answer
      obtain ⟨_, together⟩ := all_assemble id call ⟨#[byte]⟩ reference found
        (job ▸ byteJob_brings fileId byte _) answer
      rw [← (Prod.mk.inj both).1, ← (Prod.mk.inj both).2]
      exact together out 2 outside writable
    have saved : ∀ {id job uploader cancelled}, .act (.save id uploader job cancelled) ∈ stored →
        id = 0 ∧ job = byteJob 7 65 ∨ id = 1 ∧ job = byteJob 8 66 := by
      intro id job uploader cancelled made
      exact job_of_saveBytes (by simpa [stored, movesOfCall] using made)
    obtain ⟨_, _, one⟩ := Depot.job_of_logged twoSlots_fresh.calls ran found
    obtain ⟨_, _, other⟩ := Depot.job_of_logged twoSlots_fresh.calls ran found'
    refine ⟨depot, log, ran, ?_⟩
    rintro _ (_ | ⟨_, (_ | ⟨_, ⟨⟩⟩)⟩)
    · exact assembled 0 call 7 65 found (by simpa using saved one) seven
    · exact assembled 1 call' 8 66 found' (by simpa using saved other) eight

end ChunkedUpload
