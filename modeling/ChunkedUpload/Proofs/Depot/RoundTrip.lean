import ChunkedUpload.Proofs.Depot.Existence
import ChunkedUpload.Proofs.Store.Assembly

/-! A file that goes into a store, loses some of its parts there, gets them back and is put together
again. -/
namespace ChunkedUpload

namespace Depot

/-- These parts are sent again, one call after the other. -/
inductive ResentAll (store : Store) (bytes : ByteArray) (fileId : Int64) :
    List UInt32 → Depot → Depot → Prop
  | none (depot : Depot) : ResentAll store bytes fileId [] depot depot
  | next {part : UInt32} {parts : List UInt32} {first mid last : Depot}
      (resent : Resent store bytes fileId part first mid)
      (others : ResentAll store bytes fileId parts mid last) :
      ResentAll store bytes fileId (part :: parts) first last

variable {store : Store} {bytes : ByteArray} {fileId : Int64} {part : UInt32}
  {parts : List UInt32} {first last : Depot}

theorem ResentAll.rests (resent : ResentAll store bytes fileId parts first last)
    (rests : first.Rests) :
    last.Rests ∧ (∀ part ∈ parts, store.Has last.files (wholeRequest bytes fileId part.toNat)) ∧
    ∀ request ∈ wholeRequests bytes fileId, store.Has first.files request →
      store.Has last.files request := by
  induction resent with
  | none => exact ⟨rests, fun _ member => absurd member List.not_mem_nil, fun _ _ => id⟩
  | next resent _ ih =>
    obtain ⟨rested, stored, kept⟩ := resent.rests rests
    obtain ⟨still, others, later⟩ := ih rested
    refine ⟨still, fun part member => ?_, fun request asked before =>
      later request asked (kept request asked before)⟩
    rcases List.mem_cons.mp member with rfl | there
    · exact later _ (wholeRequest_mem fileId resent.inside) stored
    · exact others part there

end Depot

section Pieces

variable {store : Store} {files : FileSystem} {bytes : ByteArray} {fileId : Int64}
  {part total : UInt32}

theorem Store.has_iff_holds : store.Has files (wholeRequest bytes fileId part.toNat) ↔
    store.Holds files fileId part (pieceOf bytes part) := by
  rw [Store.Has, wholeRequest, pieceOf, UInt32.ofNat_toNat]

theorem joined_pieces (count : total.toNat = partsFor bytes.size) :
    ((Store.partNumbers total).map (pieceOf bytes)).foldl (· ++ ·) ByteArray.empty = bytes := by
  have payloads : (Store.partNumbers total).map (pieceOf bytes) =
      (wholeRequests bytes 0).map PartRequest.payload := by
    rw [Store.partNumbers, wholeRequests, List.map_map, List.map_map, ← count]
    refine List.map_congr_left fun i inside => ?_
    have below := Nat.lt_trans (List.mem_range.mp inside) total.toNat_lt
    simp only [Function.comp_apply, pieceOf, wholeRequest, UInt32.toNat_ofNat_of_lt' below]
  have whole := joined_wholeRequests bytes 0
  rw [payloads, List.foldl_map]
  exact whole

/-- The store has the file, and nothing is being written. -/
structure Depot.Complete (store : Store) (bytes : ByteArray) (fileId : Int64) (total : UInt32)
    (depot : Depot) : Prop where
  rests : depot.Rests
  tidy : store.Tidy depot.files fileId
  some_bytes : 0 < bytes.size
  count : total.toNat = partsFor bytes.size
  held : ∀ part < total, store.Holds depot.files fileId part (pieceOf bytes part)

variable {depot last : Depot} {lost parts : List UInt32}

theorem Depot.complete_of_reference {job : UploadJob} {name : String} {call uploader : Nat}
    {cancelled : Bool} {first : Depot} {acts : List DepotAct} {events : List Event}
    {reference : FileReference} (rests : first.Rests) (tidy : store.Tidy first.files job.freshId)
    (new : first.all.call? call = none) (afresh : job.Afresh first.files bytes name)
    (own : ∀ act ∈ acts, act.IsOf call)
    (run : runSteps? (step? store) first (.act (.save call uploader job cancelled) :: acts) =
      some (depot, events))
    (given : ((depot.all.call? call).bind fun call => call.upload.result) =
      some (.returned (.ok (some reference)))) :
    depot.Complete store bytes reference.fileId reference.parts := by
  obtain ⟨rested, some_bytes, same, total, whole, tidied⟩ :=
    stored_of_reference rests new afresh own run given
  have count : reference.parts.toNat = partsFor bytes.size := by
    rw [total, UInt32.toNat_ofNat_of_lt' (partsFor_lt afresh.few)]
  rw [← same] at tidy whole
  refine ⟨rested, tidied _ tidy, some_bytes, count, fun part below => ?_⟩
  have asked := wholeRequest_mem reference.fileId (count ▸ UInt32.lt_iff_toNat_lt.mp below)
  exact Store.has_iff_holds.mp (whole _ asked)

theorem Depot.Complete.positive (complete : depot.Complete store bytes fileId total) :
    0 < total := by
  rw [UInt32.lt_iff_toNat_lt, complete.count]
  exact lt_partsFor (by simpa using complete.some_bytes)

theorem Depot.Complete.reduced (complete : depot.Complete store bytes fileId total)
    (distinct : lost.Nodup) (below : ∀ part ∈ lost, part < total) :
    ∃ reduced, store.removeParts fileId lost depot.files = (.ok (), reduced) ∧
      store.missingParts fileId total reduced =
        .ok ((Store.partNumbers total).filter (· ∈ lost)) ∧
      reduced.Sound ∧ ∀ part < total, part ∉ lost →
        store.Holds reduced fileId part (pieceOf bytes part) := by
  obtain ⟨reduced, removed, less⟩ :=
    Store.removeParts_eq distinct fun part member => complete.held part (below part member)
  exact ⟨reduced, removed, less.missingParts complete.tidy complete.positive complete.held,
    less.sound complete.rests.sound,
    fun part here left => less.holds (complete.held part here) left⟩

theorem Depot.ResentAll.holds (resent : ResentAll store bytes fileId parts depot last)
    (rests : depot.Rests) (count : total.toNat = partsFor bytes.size)
    (held : ∀ part < total, part ∉ parts →
      store.Holds depot.files fileId part (pieceOf bytes part)) :
    last.files.Sound ∧
    ∀ part < total, store.Holds last.files fileId part (pieceOf bytes part) := by
  obtain ⟨rested, again, kept⟩ := resent.rests rests
  refine ⟨rested.sound, fun part below => ?_⟩
  by_cases sent : part ∈ parts
  · exact Store.has_iff_holds.mp (again part sent)
  · have asked := wholeRequest_mem fileId (count ▸ UInt32.lt_iff_toNat_lt.mp below)
    exact Store.has_iff_holds.mp (kept _ asked (Store.has_iff_holds.mpr (held part below sent)))

end Pieces

/-- A file is uploaded into a store, by whichever schedule of its workers and of their writings,
and its reference is given back. Whatever parts are then lost, exactly these are missing; and once
each of them, and whatever other part, has been sent again, none is missing, and the parts put
together are the file. -/
theorem file_back_after_loss {store : Store} {job : UploadJob} {bytes : ByteArray} {name : String}
    {call uploader : Nat} {cancelled : Bool} {first stored : Depot} {acts : List DepotAct}
    {events : List Event} {reference : FileReference} (rests : first.Rests)
    (tidy : store.Tidy first.files job.freshId) (new : first.all.call? call = none)
    (afresh : job.Afresh first.files bytes name) (own : ∀ act ∈ acts, act.IsOf call)
    (run : runSteps? (Depot.step? store) first
      (.act (.save call uploader job cancelled) :: acts) = some (stored, events))
    (given : ((stored.all.call? call).bind fun call => call.upload.result) =
      some (.returned (.ok (some reference)))) :
    let fileId := reference.fileId
    let total := reference.parts
    total.toNat = partsFor bytes.size ∧
    ∀ lost : List UInt32, lost.Nodup → (∀ part ∈ lost, part < total) →
      ∃ reduced, store.removeParts fileId lost stored.files = (.ok (), reduced) ∧
      store.missingParts fileId total reduced =
        .ok ((Store.partNumbers total).filter (· ∈ lost)) ∧
      ∀ parts last, lost ⊆ parts →
        Depot.ResentAll store bytes fileId parts { stored with files := reduced } last →
        store.missingParts fileId total last.files = .ok [] ∧
        ∀ out number, store.Outside last.files out →
          (FileSystem.create out last.files).1 = .ok (.file number) →
          ∃ after, store.assemble fileId total out last.files = (.ok bytes.size, after) ∧
            after.read out = .ok bytes := by
  intro fileId total
  have complete : stored.Complete store bytes fileId total :=
    Depot.complete_of_reference rests tidy new afresh own run given
  refine ⟨complete.count, fun lost distinct below => ?_⟩
  obtain ⟨reduced, removed, missing, sound, left⟩ := complete.reduced distinct below
  refine ⟨reduced, removed, missing, fun parts last all resent => ?_⟩
  -- a part is stored because it was never lost, or because it has been sent again
  obtain ⟨sound, held⟩ := resent.holds ⟨complete.rests.idle, sound⟩ complete.count
    fun part here unsent => left part here fun gone => unsent (all gone)
  refine ⟨Store.missingParts_eq_nil complete.positive held, fun out number outside writable => ?_⟩
  have assembled := Store.assemble_eq sound complete.positive held outside writable
  rwa [joined_pieces complete.count] at assembled

namespace Store

variable {store : Store}

theorem tidy_empty (plain : ∀ name ∈ store.root.names, Plain name) (fileId : Int64) :
    store.Tidy FileSystem.empty fileId := by
  refine ⟨plain, fun name place there => ?_⟩
  rw [FileSystem.node?_empty] at there
  contradiction

end Store

/-- A part is sent again by some run, if it can be put and the uploader has nothing to wait for. -/
theorem Depot.exists_resent_part {store : Store} {job : UploadJob} {bytes : ByteArray}
    {name : String} {fileId : Int64} {part : UInt32} (slots : Nat) {id wait : Nat}
    {calls : List (Nat × SaveCall)} {waits : List (Nat × ResendWait)} {files after : FileSystem}
    (again : job.Again files bytes name ⟨fileId, part⟩) (new : calls.lookup id = none)
    (unused : waits.lookup wait = none)
    (put : store.deliver (wholeRequest bytes fileId part.toNat) files = (.ok (), after)) :
    ∃ calls' waits', (∀ other ≠ id, calls.lookup other = none → calls'.lookup other = none) ∧
      (∀ other ≠ wait, waits.lookup other = none → waits'.lookup other = none) ∧
      Resent store bytes fileId part ⟨.vacant slots [] calls waits, files, []⟩
        ⟨.vacant slots [] calls' waits', after, []⟩ := by
  obtain ⟨earlier, later, mid, last, events, more, own, answer, sent, waited, ended⟩ :=
    exists_resent slots again rfl .delivered
      (Store.writes_of_deliver (wholeRequest_some_bytes again.inside fileId) put) new unused
  have free : (Uploaders.vacant slots [id] (calls ++ [(id, ⟨0, mid⟩)]) waits).wait? wait = none :=
    unused
  have returned : ((Uploaders.vacant slots [id] (calls ++ [(id, ⟨0, mid⟩)]) waits).call? id).bind
      (fun call => call.upload.result) = some (.returned (.ok none)) := by
    rw [Uploaders.call?, Uploaders.vacant, Uploaders.lookup_snoc, new, if_pos rfl]
    exact answer
  refine ⟨_, _, fun other apart missing => ?_, fun other apart missing => ?_,
    .intro again new free sent ?_ waited own ?_⟩
  · rw [Uploaders.lookup_snoc, missing, if_neg apart, Option.none_or]
  · rw [Uploaders.lookup_snoc, missing, if_neg apart, Option.none_or]
  · exact Option.isSome_of_eq_some returned
  · simp [ended]

/-- A file of two parts loses the second one, and then both are sent again. -/
theorem two_parts_back_after_loss :
    let job := plainJob twoPartStream
    let store : Store := ⟨Path.ofString "/parts"⟩
    let out := Path.ofString "/out"
    ∃ acts stored events reduced last, runSteps? (Depot.step? store)
        ⟨.vacant 0 [] [] [], FileSystem.empty, []⟩ (.act (.save 0 0 job false) :: acts) =
        some (stored, events) ∧
      store.removeParts 7 [1] stored.files = (.ok (), reduced) ∧
      store.missingParts 7 2 reduced = .ok [1] ∧
      Depot.ResentAll store twoParts 7 [1, 0] { stored with files := reduced } last ∧
      ∃ after, store.assemble 7 2 out last.files = (.ok (partSize + 1), after) ∧
        after.read out = .ok twoParts := by
  intro job store out
  have puts : ((wholeRequests twoParts 7).forM store.deliver FileSystem.empty).1 = .ok () := by
    rw [wholeRequests_twoParts]
    decide +kernel
  obtain ⟨acts, saved, events, own, run, answer⟩ :=
    Depot.exists_stored 0 [] [] whole_twoParts puts (rfl : [].lookup 0 = none)
  rw [show (plainJob twoPartStream).freshId = 7 from rfl, wholeRequests_twoParts] at run
  have afresh : job.Afresh FileSystem.empty twoParts "a" :=
    ⟨whole_twoParts.serves, whole_twoParts.few, rfl⟩
  have named : store.root.names = [(Path.ofString "parts").bytes] := by decide +kernel
  have plain : ∀ name ∈ store.root.names, Store.Plain name := by
    intro name member
    rw [named, List.mem_singleton] at member
    exact member ▸ Store.plain_of_unread (by decide +kernel)
  obtain ⟨_, all_back⟩ := file_back_after_loss ⟨rfl, FileSystem.sound_empty⟩
    (Store.tidy_empty plain _) rfl afresh (fun act member => (own act member).1) run answer
  have total : (wholeReference twoParts job.freshId "a").parts = 2 := by
    rw [wholeReference, partsFor_twoParts]
    rfl
  rw [total] at all_back
  obtain ⟨reduced, removed, missing, back⟩ :=
    all_back [1] (List.nodup_singleton 1) (by simp)
  have again : ∀ (part : UInt32) (files : FileSystem), part.toNat < 2 →
      ({ job with resume := some ⟨7, part⟩ } : UploadJob).Again files twoParts "a" ⟨7, part⟩ := by
    intro part files below
    exact ⟨.stream serves_twoParts, whole_twoParts.within, whole_twoParts.few, rfl,
      partsFor_twoParts ▸ below⟩
  -- the writings succeed as they do when nothing comes between
  let full := store.afterAll FileSystem.empty
    [⟨7, 0, none, ⟨Array.replicate partSize 65⟩⟩, ⟨7, 1, none, ⟨#[65]⟩⟩]
  let less := (store.removeParts 7 [1] full).2
  let half := (store.deliver (wholeRequest twoParts 7 (1 : UInt32).toNat) less).2
  let whole := (store.deliver (wholeRequest twoParts 7 (0 : UInt32).toNat) half).2
  have possible : (store.deliver (wholeRequest twoParts 7 (1 : UInt32).toNat) less).1 = .ok () ∧
      (store.deliver (wholeRequest twoParts 7 (0 : UInt32).toNat) half).1 = .ok () ∧
      (FileSystem.create out whole).1 = .ok (.file 4) := by
    simp only [half, whole, wholeRequest_twoParts]
    decide +kernel
  obtain ⟨second, first, writable⟩ := possible
  obtain rfl : less = reduced := congrArg Prod.snd removed
  obtain ⟨calls, waits, new, unused, resent⟩ :=
    Depot.exists_resent_part 0 (again 1 less (by decide)) (rfl : [(0, _)].lookup 1 = none)
      (rfl : [].lookup 1 = none) (Prod.ext second rfl)
  obtain ⟨calls', waits', _, _, resent'⟩ := Depot.exists_resent_part 0 (again 0 half (by decide))
    (new 2 (by decide) rfl) (unused 2 (by decide) rfl) (Prod.ext first rfl)
  have all : Depot.ResentAll store twoParts 7 [1, 0] _ _ := .next resent (.next resent' (.none _))
  have beside : out.names = [(Path.ofString "out").bytes] := by decide +kernel
  have outside : store.Outside whole out := Store.outside_of_sibling named beside
    (by decide +kernel) ⟨by decide +kernel, by decide +kernel⟩ (by decide +kernel)
  obtain ⟨_, assembled⟩ := back [1, 0] _ (by simp) all
  have together := assembled out 4 outside writable
  rw [size_twoParts] at together
  exact ⟨acts, _, events, less, _, run, removed, missing, all, together⟩

end ChunkedUpload
