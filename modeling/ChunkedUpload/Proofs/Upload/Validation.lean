import ChunkedUpload.Proofs.Upload.Alike
import ChunkedUpload.Proofs.Upload.Determined

/-! What an upload is held against before it has workers. Each check looks at the source, the job or
the provider by itself, and any of them may fail together with any other; the first that fails ends
the upload, with its error, before the next one is made. -/
namespace ChunkedUpload

inductive Check
  | path
  | directory
  | opening
  /-- The seek that measures the source. -/
  | measure
  /-- The seek back to its beginning. -/
  | rewind
  | emptiness
  | limit
  | part
  | home
  | session
deriving DecidableEq, Repr

def Input.path? : Input → Option Path
  | .path place _ => some place
  | .stream _ _ => none

/-- The stream that the caller has given. -/
def Input.stream? : Input → Option Stream
  | .path _ _ => none
  | .stream given _ => some given

namespace Check

/-- The checks in their order. -/
def all : List Check :=
  [path, directory, opening, measure, rewind, emptiness, limit, part, home, session]

/-- The checks of the source alone. -/
def ofSource : List Check := [path, directory, opening, measure, rewind, emptiness, limit]

section Faults

variable (around : Surroundings) (job : UploadJob)

/-- Why a check fails, if it does. -/
def fault? : Check → Option UploadError
  | path => job.input.path?.bind fun path =>
      if path.bytes.isEmpty then some (.invalidInput .emptyPath) else none
  | directory => job.input.path?.bind fun path =>
      if around.files.isDirectory path then some (.invalidInput (.directory path.display)) else none
  | opening => job.input.path?.bind fun path =>
      match around.files.read path with
      | .ok _ => none
      | .error error => some (.io error)
  | measure => (job.input.opened? around.files).bind fun stream =>
      (stream.seekFailure stream.seeks).map .io
  | rewind => (job.input.opened? around.files).bind fun stream =>
      (stream.seekFailure (stream.seeks + 1)).map .io
  | emptiness => (job.input.opened? around.files).bind fun stream =>
      if stream.reportedSize = 0 then some .emptyFile else none
  | limit => (job.input.opened? around.files).bind fun stream =>
      if job.limit.bytes < stream.reportedSize then
        some (.sizeLimitExceeded stream.reportedSize job.limit.bytes)
      else none
  | part => (job.input.opened? around.files).bind fun stream =>
      job.resume.bind fun resume =>
        if totalParts stream.reportedSize ≤ resume.part then
          some (.invalidInput (.partOutOfRange resume.part (totalParts stream.reportedSize)))
        else none
  | home =>
      match around.home with
      | .ok _ => none
      | .error error => some (.transport error)
  | session =>
      match around.session with
      | .ok () => none
      | .error error => some (.transport error)

/-- The first check that fails, and why. -/
def first? : Option (Check × UploadError) :=
  all.findSome? fun check => (check.fault? around job).map fun error => (check, error)

/-- What the provider has been asked when this check fails. -/
def questions : Check → List Event
  | home => [.askedHome]
  | session =>
      match around.home with
      | .ok endpoint => [.askedHome, .askedSession endpoint]
      | .error _ => [.askedHome]
  | _ => []

end Faults

/-- The caller's stream when this check fails: it has been moved by the seeks so far, and nothing has
been read from it. -/
def leaves (stream : Stream) : Check → Stream
  | path | directory | opening => stream
  | measure => { stream with seeks := stream.seeks + 1 }
  | rewind => { stream with seeks := stream.seeks + 2, position := stream.reportedSize.toNat }
  | emptiness | limit | part | home | session =>
      { stream with seeks := stream.seeks + 2, position := 0 }

theorem first?_of_before {around : Surroundings} {job : UploadJob} {error : UploadError}
    (before : List Check) {check : Check} {after : List Check} (order : all = before ++ check :: after)
    (passed : ∀ earlier ∈ before, earlier.fault? around job = none)
    (failed : check.fault? around job = some error) : first? around job = some (check, error) := by
  rw [first?, order]
  refine List.findSome?_eq_some_iff.mpr ⟨before, check, after, rfl, by simp [failed], ?_⟩
  exact fun earlier member => by simp [passed earlier member]

theorem of_first? {around : Surroundings} {job : UploadJob} {error : UploadError}
    (before : List Check) {check : Check} {after : List Check} (order : all = before ++ after)
    (passed : ∀ earlier ∈ before, earlier.fault? around job = none)
    (first : first? around job = some (check, error)) :
    check ∈ after ∧ check.fault? around job = some error := by
  obtain ⟨found, member, failed⟩ := List.exists_of_findSome?_eq_some first
  obtain ⟨why, fails, same⟩ := Option.map_eq_some_iff.mp failed
  cases same
  rw [order] at member
  refine ⟨(List.mem_append.mp member).resolve_left fun early => ?_, fails⟩
  rw [passed check early] at fails
  contradiction

theorem first?_eq_none_iff {around : Surroundings} {job : UploadJob} :
    first? around job = none ↔ ∀ check ∈ all, check.fault? around job = none := by
  simp [first?]

end Check

theorem UploadPlan.make_error {size : UInt64} {resume : Option ResumePart} {freshId : Int64}
    {error : UploadError} (failed : make size resume freshId = .error error) :
    ∃ part, resume = some part ∧ ChunkedUpload.totalParts size ≤ part.part ∧
      error = .invalidInput (.partOutOfRange part.part (ChunkedUpload.totalParts size)) := by
  unfold make at failed
  cases resume with
  | none => cases failed
  | some part =>
    dsimp only at failed
    split at failed
    · rename_i beyond
      exact ⟨part, rfl, beyond, (Except.error.inj failed).symm⟩
    · cases failed

section Opening

variable {around : Surroundings} {job : UploadJob} {error : UploadError} {stream : Option Stream}
  {source : Source}

/-- How the measuring of a stream ends. -/
theorem Source.ofStream_cases (stream : Stream) (name : String) (owned : Bool) (limit : UInt64) :
    (∃ failure, stream.seekFailure stream.seeks = some failure ∧
      ofStream stream name owned limit = (.error (.io failure), Check.measure.leaves stream)) ∨
    stream.seekFailure stream.seeks = none ∧
    ((∃ failure, stream.seekFailure (stream.seeks + 1) = some failure ∧
      ofStream stream name owned limit = (.error (.io failure), Check.rewind.leaves stream)) ∨
    stream.seekFailure (stream.seeks + 1) = none ∧
    (stream.reportedSize = 0 ∧
      ofStream stream name owned limit = (.error .emptyFile, Check.emptiness.leaves stream) ∨
    stream.reportedSize ≠ 0 ∧
    (limit < stream.reportedSize ∧ ofStream stream name owned limit =
      (.error (.sizeLimitExceeded stream.reportedSize limit), Check.limit.leaves stream) ∨
    ¬ limit < stream.reportedSize ∧ ofStream stream name owned limit =
      (.ok ⟨Check.part.leaves stream, stream.reportedSize, name, owned⟩,
        Check.part.leaves stream)))) := by
  unfold ofStream Stream.seekToEnd Stream.seekTo
  cases measured : stream.seekFailure stream.seeks with
  | some failure => exact .inl ⟨failure, rfl, by simp [Check.leaves]⟩
  | none =>
    refine .inr ⟨rfl, ?_⟩
    cases rewound : stream.seekFailure (stream.seeks + 1) with
    | some failure => exact .inl ⟨failure, rfl, by simp [rewound, Check.leaves]⟩
    | none =>
      refine .inr ⟨rfl, ?_⟩
      by_cases empty : stream.reportedSize = 0
      · exact .inl ⟨empty, by simp [rewound, empty, Check.leaves]⟩
      · refine .inr ⟨empty, ?_⟩
        by_cases beyond : limit < stream.reportedSize
        · exact .inl ⟨beyond, by simp [rewound, empty, beyond, Check.leaves]⟩
        · exact .inr ⟨beyond, by simp [rewound, empty, beyond, Check.leaves]⟩

/-- What the opening of a source tells of the checks: an error is that of the first check that fails,
and a source has passed all that are made of it. -/
def Source.Checked (around : Surroundings) (job : UploadJob) (given : Stream) :
    Except UploadError Source × Stream → Prop
  | (.error error, moved) => ∃ check, Check.first? around job = some (check, error) ∧
      check.questions around = [] ∧ moved = check.leaves given
  | (.ok source, moved) => (∀ check ∈ Check.ofSource, check.fault? around job = none) ∧
      source.size = given.reportedSize ∧ source.stream = Check.part.leaves given ∧
      moved = Check.part.leaves given

theorem Source.ofStream_checked {given : Stream} (name : String) (owned : Bool)
    (opened : job.input.opened? around.files = some given)
    (clear : ∀ check ∈ [Check.path, .directory, .opening], check.fault? around job = none) :
    Checked around job given (ofStream given name owned job.limit.bytes) := by
  simp only [List.forall_mem_cons] at clear
  obtain ⟨named, plain, readable, _⟩ := clear
  rcases ofStream_cases given name owned job.limit.bytes with
    ⟨failure, fails, same⟩ | ⟨sought, ⟨failure, fails, same⟩ | ⟨rewound, ⟨empty, same⟩ |
      ⟨filled, ⟨beyond, same⟩ | ⟨within, same⟩⟩⟩⟩ <;> rw [same]
  · refine ⟨.measure, ?_, rfl, rfl⟩
    exact Check.first?_of_before [.path, .directory, .opening] rfl (by simp [named, plain, readable])
      (by simp [Check.fault?, opened, fails])
  all_goals
    have measured : Check.measure.fault? around job = none := by
      simp [Check.fault?, opened, sought]
  · refine ⟨.rewind, ?_, rfl, rfl⟩
    exact Check.first?_of_before [.path, .directory, .opening, .measure] rfl
      (by simp [named, plain, readable, measured]) (by simp [Check.fault?, opened, fails])
  all_goals
    have returned : Check.rewind.fault? around job = none := by
      simp [Check.fault?, opened, rewound]
  · refine ⟨.emptiness, ?_, rfl, rfl⟩
    exact Check.first?_of_before [.path, .directory, .opening, .measure, .rewind] rfl
      (by simp [named, plain, readable, measured, returned]) (by simp [Check.fault?, opened, empty])
  all_goals
    have some_bytes : Check.emptiness.fault? around job = none := by
      simp [Check.fault?, opened, filled]
  · refine ⟨.limit, ?_, rfl, rfl⟩
    exact Check.first?_of_before [.path, .directory, .opening, .measure, .rewind, .emptiness] rfl
      (by simp [named, plain, readable, measured, returned, some_bytes])
      (by simp [Check.fault?, opened, beyond])
  · have fitting : Check.limit.fault? around job = none := by simp [Check.fault?, opened, within]
    refine ⟨?_, rfl, rfl, rfl⟩
    simp [Check.ofSource, named, plain, readable, measured, returned, some_bytes, fitting]

/-- The same of an input, with what becomes of the stream of the caller. -/
def Input.Checked (around : Surroundings) (job : UploadJob) :
    Except UploadError Source × Option Stream → Prop
  | (.error error, stream) => ∃ check, Check.first? around job = some (check, error) ∧
      check.questions around = [] ∧ stream = job.input.stream?.map check.leaves
  | (.ok source, stream) => (∀ check ∈ Check.ofSource, check.fault? around job = none) ∧
      stream = job.input.stream?.map Check.part.leaves ∧
      ∃ given, job.input.opened? around.files = some given ∧ source.size = given.reportedSize ∧
        source.stream = Check.part.leaves given

theorem Source.ofInput_checked (around : Surroundings) (job : UploadJob) :
    Input.Checked around job (ofInput around.files job.input job.limit.bytes) := by
  cases input : job.input with
  | path place handle =>
    have none_given : job.input.stream? = none := by rw [input]; rfl
    simp only [ofInput, openPath]
    by_cases nameless : place.bytes.isEmpty = true
    · rw [if_pos nameless]
      refine ⟨.path, ?_, rfl, by rw [none_given]; rfl⟩
      exact Check.first?_of_before [] rfl (by simp)
        (by simp only [Check.fault?, input, Input.path?, Option.bind_some, if_pos nameless])
    rw [if_neg nameless]
    have named : Check.path.fault? around job = none := by
      simp only [Check.fault?, input, Input.path?, Option.bind_some, if_neg nameless]
    by_cases folder : around.files.isDirectory place = true
    · rw [if_pos folder]
      refine ⟨.directory, ?_, rfl, by rw [none_given]; rfl⟩
      exact Check.first?_of_before [.path] rfl (by simp [named])
        (by simp [Check.fault?, input, Input.path?, folder])
    rw [if_neg folder]
    have plain : Check.directory.fault? around job = none := by
      simp [Check.fault?, input, Input.path?, folder]
    cases found : around.files.read place with
    | error failure =>
      refine ⟨.opening, ?_, rfl, by rw [none_given]; rfl⟩
      exact Check.first?_of_before [.path, .directory] rfl (by simp [named, plain])
        (by simp [Check.fault?, input, Input.path?, found])
    | ok bytes =>
      have readable : Check.opening.fault? around job = none := by
        simp [Check.fault?, input, Input.path?, found]
      have opened : job.input.opened? around.files = some (handle bytes) := by
        simp [input, Input.opened?, found, Except.toOption]
      have checked := ofStream_checked (nameOf place) true opened
        (by simp [named, plain, readable])
      dsimp only
      generalize ofStream _ _ _ _ = outcome at checked ⊢
      obtain ⟨made | source, moved⟩ := outcome
      · obtain ⟨check, first, unasked, _⟩ := checked
        exact ⟨check, first, unasked, by rw [none_given]; rfl⟩
      · obtain ⟨clear, size, stream, _⟩ := checked
        exact ⟨clear, by rw [none_given]; rfl, _, opened, size, stream⟩
  | stream given name =>
    have opened : job.input.opened? around.files = some given := by rw [input]; rfl
    have lent : job.input.stream? = some given := by rw [input]; rfl
    have checked := ofStream_checked (name.getD defaultName) false opened
      (by simp [Check.fault?, input, Input.path?])
    simp only [ofInput]
    generalize ofStream _ _ _ _ = outcome at checked ⊢
    obtain ⟨made | source, moved⟩ := outcome
    · obtain ⟨check, first, unasked, left⟩ := checked
      exact ⟨check, first, unasked, by rw [lent, left]; rfl⟩
    · obtain ⟨clear, size, stream, left⟩ := checked
      exact ⟨clear, by rw [lent, left]; rfl, given, opened, size, stream⟩

end Opening

namespace Upload

/-- The checks that an upload has passed when it asks the provider. -/
structure Sourced (around : Surroundings) (job : UploadJob) (source : Source) : Prop where
  clear : ∀ check ∈ Check.ofSource ++ [.part], check.fault? around job = none
  stream : ∃ given, job.input.opened? around.files = some given ∧
    source.stream = Check.part.leaves given

/-- How far the checks of an upload are, unless it has been cancelled. -/
def Validated (around : Surroundings) (job : UploadJob) (past : List Event) (upload : Upload) :
    Prop :=
  match upload.stage with
  | .waiting | .opening => past = [] ∧ upload.result = none
  | .locating source _ => past = [.askedHome] ∧ upload.result = none ∧ Sourced around job source
  | .connecting source _ endpoint => past = [.askedHome, .askedSession endpoint] ∧
      upload.result = none ∧ Sourced around job source ∧ around.home = .ok endpoint
  | .dispatching _ => Check.first? around job = none
  | .over stream => ∃ check error, Check.first? around job = some (check, error) ∧
      past = check.questions around ∧ stream = job.input.stream?.map check.leaves ∧
      upload.result = some (.returned (.error error))

section Validated

variable {around : Surroundings} {job : UploadJob} {upload next : Upload} {move : Move}
  {past events : List Event} {source : Source} {plan : UploadPlan}

theorem Sourced.stream? (sourced : Sourced around upload.job source)
    (stage : upload.stage = .locating source plan ∨
      ∃ endpoint, upload.stage = .connecting source plan endpoint) :
    upload.stream? = upload.job.input.stream?.map Check.part.leaves := by
  obtain ⟨given, opened, left⟩ := sourced.stream
  unfold Upload.stream?
  cases input : upload.job.input with
  | path => rfl
  | stream stream name =>
    rw [input] at opened
    cases opened
    rcases stage with stage | ⟨_, stage⟩ <;> simp [stage, left, Input.stream?]

theorem Sourced.clear_home (sourced : Sourced around job source) {endpoint : Int32}
    (home : around.home = .ok endpoint) :
    ∀ check ∈ Check.ofSource ++ [.part, .home], check.fault? around job = none := by
  intro check member
  rcases List.mem_append.mp (show check ∈ (Check.ofSource ++ [.part]) ++ [.home] from member) with
    early | last
  · exact sourced.clear check early
  · rw [List.mem_singleton.mp last]
    simp only [Check.fault?, home]

theorem sourced_of_opened {stream : Option Stream}
    (found : Source.ofInput around.files job.input job.limit.bytes = (.ok source, stream))
    (planned : UploadPlan.make source.size job.resume job.freshId = .ok plan) :
    Sourced around job source := by
  have checked := Source.ofInput_checked around job
  rw [found] at checked
  obtain ⟨clear, _, given, opened, size, left⟩ := checked
  have inside : Check.part.fault? around job = none := by
    simp only [Check.fault?, opened, Option.bind_some, ← size]
    obtain ⟨whole, _⟩ | ⟨part, resume, inside, _⟩ := UploadPlan.make_cases planned
    · rw [whole, Option.bind_none]
    · rw [resume, Option.bind_some, if_neg (UInt32.not_le.mpr inside)]
  refine ⟨fun check member => ?_, given, opened, left⟩
  rcases List.mem_append.mp member with early | last
  · exact clear check early
  · rwa [List.mem_singleton.mp last]

theorem first?_of_unplanned {stream : Option Stream} {error : UploadError}
    (found : Source.ofInput around.files job.input job.limit.bytes = (.ok source, stream))
    (failed : UploadPlan.make source.size job.resume job.freshId = .error error) :
    Check.first? around job = some (.part, error) ∧
      stream = job.input.stream?.map Check.part.leaves := by
  have checked := Source.ofInput_checked around job
  rw [found] at checked
  obtain ⟨clear, lent, given, opened, size, _⟩ := checked
  refine ⟨Check.first?_of_before Check.ofSource rfl clear ?_, lent⟩
  obtain ⟨part, resume, beyond, rfl⟩ := UploadPlan.make_error failed
  rw [size] at beyond ⊢
  rw [Check.fault?, opened, Option.bind_some, resume, Option.bind_some, if_pos beyond]

/-- Each step makes the next check, or is none of its business. -/
theorem step_validated (step : Step upload move events next) (meets : move.Meets around upload.job)
    (awake : next.cancelled = false) (h : upload.Validated around upload.job past) :
    next.Validated around upload.job (past ++ events) := by
  unfold Validated at h
  cases step with
  | cancelled => cases awake
  | entered stage =>
    simp only [stage] at h
    rwa [List.append_nil]
  | withdrawn _ wanted =>
    have still : upload.cancelled = false := awake
    rw [still] at wanted
    contradiction
  | @unopened files error stream stage failed =>
    simp only [stage] at h
    obtain ⟨rfl, _⟩ := h
    have same : Source.ofInput files _ _ = Source.ofInput around.files _ _ := meets
    have checked := Source.ofInput_checked around upload.job
    rw [← same, failed] at checked
    obtain ⟨check, first, unasked, left⟩ := checked
    exact ⟨check, error, first, unasked.symm, left, rfl⟩
  | @unplanned files source error stream stage found failed =>
    simp only [stage] at h
    obtain ⟨rfl, _⟩ := h
    have same : Source.ofInput files _ _ = Source.ofInput around.files _ _ := meets
    rw [same] at found
    obtain ⟨first, left⟩ := first?_of_unplanned found failed
    exact ⟨.part, error, first, rfl, left, rfl⟩
  | @opened files source plan stream stage found planned =>
    simp only [stage] at h
    obtain ⟨rfl, unanswered⟩ := h
    have same : Source.ofInput files _ _ = Source.ofInput around.files _ _ := meets
    rw [same] at found
    exact ⟨rfl, unanswered, sourced_of_opened found planned⟩
  | @unlocated source plan error stage =>
    simp only [stage] at h
    obtain ⟨rfl, _, sourced⟩ := h
    have same : Except.error error = around.home := meets
    have failed : Check.home.fault? around upload.job = some (.transport error) := by
      simp only [Check.fault?, ← same]
    have first := Check.first?_of_before (Check.ofSource ++ [.part]) rfl sourced.clear failed
    exact ⟨.home, _, first, rfl, sourced.stream? (.inl stage), rfl⟩
  | @located source plan endpoint stage =>
    simp only [stage] at h
    obtain ⟨rfl, unanswered, sourced⟩ := h
    have same : Except.ok endpoint = around.home := meets
    exact ⟨rfl, unanswered, sourced, same.symm⟩
  | @unconnected source plan endpoint error stage =>
    simp only [stage] at h
    obtain ⟨rfl, _, sourced, home⟩ := h
    have same : Except.error error = around.session := meets
    have failed : Check.session.fault? around upload.job = some (.transport error) := by
      simp only [Check.fault?, ← same]
    have first := Check.first?_of_before (Check.ofSource ++ [.part, .home]) rfl
      (sourced.clear_home home) failed
    refine ⟨.session, _, first, ?_, sourced.stream? (.inr ⟨endpoint, stage⟩), rfl⟩
    simp only [Check.questions, home, List.append_nil]
  | connected stage =>
    simp only [stage] at h
    obtain ⟨rfl, _, sourced, home⟩ := h
    have same : Except.ok () = around.session := meets
    have passed : Check.session.fault? around upload.job = none := by
      simp only [Check.fault?, ← same]
    refine Check.first?_eq_none_iff.mpr fun check member => ?_
    rcases List.mem_append.mp (show check ∈ (Check.ofSource ++ [.part, .home]) ++ [.session] from
      member) with early | last
    · exact sourced.clear_home home check early
    · rwa [List.mem_singleton.mp last]
  | dispatched stage =>
    simp only [stage] at h
    exact h

theorem run_validated {cancelled : Bool} {moves : List Move} {last : Upload}
    (meets : ∀ move ∈ moves, move.Meets around job)
    (run : (begin job cancelled).run? moves = some (last, events))
    (awake : last.cancelled = false) : last.Validated around job events := by
  have kept : StepKeeps step? (fun past upload => upload.job = job ∧ upload.Answered ∧
      (upload.cancelled = false → upload.Validated around job past)) (Move.Meets around job) := by
    rintro past upload move next seen ⟨rfl, answered, validated⟩ meets stepped
    have step := step_of_step? answered.dispatch stepped
    obtain ⟨same, still⟩ := step.kept answered
    exact ⟨same, still, fun awake =>
      step_validated step meets awake (validated (uncancelled_of_step awake stepped))⟩
  rw [run?_eq] at run
  exact (run_holds kept moves _ _ _ ⟨rfl, begin_answered job cancelled, fun _ => ⟨rfl, rfl⟩⟩ meets
    run).2.2 awake

theorem stream?_of_over {stream : Option Stream} {check : Check} (stage : upload.stage = .over stream)
    (left : stream = upload.job.input.stream?.map check.leaves) :
    upload.stream? = upload.job.input.stream?.map check.leaves := by
  unfold Upload.stream?
  cases input : upload.job.input with
  | path => rfl
  | stream =>
    simp only [stage]
    rw [left, input]

/-- What a check that fails leaves of an upload: nothing has been done but to ask the provider up to
there, and if there is an answer then it is the error of that check. -/
theorem Validated.stopped {check : Check} {error : UploadError}
    (validated : upload.Validated around upload.job past)
    (first : Check.first? around upload.job = some (check, error)) :
    (∀ dispatch, upload.stage ≠ .dispatching dispatch) ∧ past <+: check.questions around ∧
    ∀ result, upload.result = some result → result = .returned (.error error) ∧
      past = check.questions around ∧
      upload.stream? = upload.job.input.stream?.map check.leaves := by
  unfold Validated at validated
  cases stage : upload.stage with
  | waiting | opening =>
    simp only [stage] at validated
    obtain ⟨rfl, unanswered⟩ := validated
    exact ⟨by simp, List.nil_prefix, fun result answer => by simp [unanswered] at answer⟩
  | locating source plan =>
    simp only [stage] at validated
    obtain ⟨rfl, unanswered, sourced⟩ := validated
    refine ⟨by simp, ?_, fun result answer => by simp [unanswered] at answer⟩
    obtain ⟨member, _⟩ := Check.of_first? (Check.ofSource ++ [.part]) rfl sourced.clear first
    obtain rfl | rfl : check = .home ∨ check = .session := by simpa using member
    · exact List.prefix_rfl
    · unfold Check.questions
      dsimp only
      split
      · exact ⟨[.askedSession _], rfl⟩
      · exact List.prefix_rfl
  | connecting source plan endpoint =>
    simp only [stage] at validated
    obtain ⟨rfl, unanswered, sourced, home⟩ := validated
    refine ⟨by simp, ?_, fun result answer => by simp [unanswered] at answer⟩
    obtain ⟨member, _⟩ := Check.of_first? (Check.ofSource ++ [.part, .home]) rfl
      (sourced.clear_home home) first
    obtain rfl : check = .session := by simpa using member
    simp only [Check.questions, home]
    exact List.prefix_rfl
  | dispatching dispatch =>
    simp only [stage] at validated
    rw [validated] at first
    contradiction
  | «over» stream =>
    simp only [stage] at validated
    obtain ⟨_, _, found, asked, left, answered⟩ := validated
    cases found.symm.trans first
    refine ⟨by simp, asked ▸ List.prefix_rfl, fun result answer => ?_⟩
    cases answered.symm.trans answer
    exact ⟨rfl, asked, stream?_of_over stage left⟩

theorem Validated.passed (validated : upload.Validated around job past)
    (clear : Check.first? around job = none) (stream : Option Stream) :
    upload.stage ≠ .over stream := by
  intro stage
  simp only [Validated, stage] at validated
  obtain ⟨_, _, first, _⟩ := validated
  rw [clear] at first
  contradiction

theorem Validated.unended (validated : upload.Validated around job past)
    (unanswered : upload.result = none) (stream : Option Stream) : upload.stage ≠ .over stream := by
  intro stage
  simp only [Validated, stage] at validated
  obtain ⟨_, _, _, _, _, answer⟩ := validated
  rw [unanswered] at answer
  contradiction

end Validated

/-- How many of its own moves an upload is away from its workers, once it has its slot. -/
def checksLeft (upload : Upload) : Nat :=
  match upload.stage with
  | .waiting | .opening => 3
  | .locating _ _ => 2
  | .connecting _ _ _ => 1
  | .dispatching _ | .over _ => 0

end Upload

/-- Whether a move makes one of the checks, or more than one. -/
def Move.checks : Move → Bool
  | openInput _ | locate _ | connect _ => true
  | _ => false

namespace Upload

section Own

variable {around : Surroundings} {job : UploadJob} {upload next : Upload} {move : Move}
  {events : List Event}

theorem checksLeft_of_step (step : Step upload move events next) :
    next.checksLeft + (if move.checks then 1 else 0) ≤ upload.checksLeft := by
  cases step with
  | cancelled => exact Nat.le_refl _
  | entered stage | withdrawn stage | unopened stage | unplanned stage | opened stage
  | unlocated stage | located stage | unconnected stage | connected stage =>
    simp [checksLeft, stage, Move.checks, endEarly]
  | dispatched stage step =>
    have inner : move.checks = false := by cases step <;> rfl
    simp [checksLeft, stage, inner]

/-- The checks take three moves of the caller's task at most. -/
theorem run_checks {cancelled : Bool} {moves : List Move} {last : Upload}
    (run : (begin job cancelled).run? moves = some (last, events)) :
    moves.countP Move.checks + last.checksLeft ≤ 3 := by
  have kept : StepKeeps step? (fun _ upload => upload.Answered) fun _ => True :=
    fun _ _ _ _ _ answered _ stepped => ((step_of_step? answered.dispatch stepped).kept answered).2
  rw [run?_eq] at run
  exact run_countP_le checksLeft Move.checks kept
    (fun _ _ _ _ _ answered _ stepped => checksLeft_of_step (step_of_step? answered.dispatch stepped))
    moves _ _ [] events (begin_answered job cancelled) (fun _ _ => trivial) run

/-- From its slot on, the next check can be made until there is an answer or there are workers. -/
theorem can_check (admitted : upload.stage ≠ .waiting)
    (unended : ∀ stream, upload.stage ≠ .over stream)
    (before : ∀ dispatch, upload.stage ≠ .dispatching dispatch) :
    ∃ move next events, upload.ownMove? around = some move ∧ move.checks = true ∧
      upload.step? move = some (next, events) := by
  have possible : ∀ move, upload.ownMove? around = some move → move.checks = true →
      (upload.step? move).isSome = true → ∃ move next events, upload.ownMove? around = some move ∧
        move.checks = true ∧ upload.step? move = some (next, events) := by
    intro move own checks able
    obtain ⟨⟨next, events⟩, stepped⟩ := Option.isSome_iff_exists.mp able
    exact ⟨move, next, events, own, checks, stepped⟩
  cases stage : upload.stage with
  | waiting => exact absurd stage admitted
  | opening =>
    refine possible (.openInput around.files) (by simp [ownMove?, stage]) rfl ?_
    unfold step?
    simp only [stage]
    split
    · rfl
    · split <;> rfl
  | locating source plan =>
    refine possible (.locate around.home) (by simp [ownMove?, stage]) rfl ?_
    unfold step?
    simp only [stage]
    split <;> rfl
  | connecting source plan endpoint =>
    refine possible (.connect around.session) (by simp [ownMove?, stage]) rfl ?_
    unfold step?
    simp only [stage]
    split <;> rfl
  | dispatching dispatch => exact absurd stage (before dispatch)
  | «over» stream => exact absurd stage (unended stream)

theorem step_admitted (step : Step upload move events next) :
    (upload.stage ≠ .waiting → next.stage ≠ .waiting) ∧ (move = .enter → next.stage ≠ .waiting) := by
  cases step with
  | cancelled => exact ⟨id, by simp⟩
  | entered | withdrawn | unopened | unplanned | opened | unlocated | located | unconnected
  | connected | dispatched => exact ⟨fun _ => by simp [endEarly], fun _ => by simp [endEarly]⟩

/-- An upload that has entered has its slot behind it for good. -/
theorem run_admitted {cancelled : Bool} {moves : List Move} {last : Upload}
    (run : (begin job cancelled).run? moves = some (last, events)) (entered : .enter ∈ moves) :
    last.stage ≠ .waiting := by
  have answers : StepKeeps step? (fun _ upload => upload.Answered) fun _ => True :=
    fun _ _ _ _ _ answered _ stepped => ((step_of_step? answered.dispatch stepped).kept answered).2
  have stays : StepKeeps step? (fun _ upload => upload.Answered ∧ upload.stage ≠ .waiting)
      fun _ => True := by
    intro _ _ _ _ _ ⟨answered, inside⟩ _ stepped
    have step := step_of_step? answered.dispatch stepped
    exact ⟨(step.kept answered).2, (step_admitted step).1 inside⟩
  obtain ⟨earlier, later, rfl⟩ := List.append_of_mem entered
  rw [run?_eq] at run
  obtain ⟨mid, _, _, before, after, _⟩ := runSteps_split run
  obtain ⟨next, _, _, stepped, rest, _⟩ := runSteps_cons after
  have answered := run_holds answers earlier _ _ _ (begin_answered job cancelled)
    (fun _ _ => trivial) before
  have step := step_of_step? answered.dispatch stepped
  exact (run_keeps stays later next last [] _ ⟨(step.kept answered).2, (step_admitted step).2 rfl⟩
    (fun _ _ => trivial) rest).2

theorem run_workers {cancelled : Bool} {moves : List Move} {last : Upload} {dispatch : Dispatch}
    (run : (begin job cancelled).run? moves = some (last, events))
    (stage : last.stage = .dispatching dispatch) :
    dispatch.pool.workerCount = max dispatch.plan.workerCount 1 := by
  obtain ⟨_, here⟩ := run_working (fun _ _ => trivial : ∀ move ∈ moves, True) run
  simp only [stage] at here
  obtain ⟨_, _, tracked⟩ := here.1.tracked
  exact Pool.workerCount_of_run tracked.followed.run

end Own

end Upload

end ChunkedUpload
