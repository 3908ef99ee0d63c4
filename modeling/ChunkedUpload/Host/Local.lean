import ChunkedUpload.Host.Snapshot

/-! One upload into a part store, from its beginning to the end of all that it set going. -/
namespace ChunkedUpload

structure LocalRun where
  /-- Nothing, if the source never answers. -/
  result : Option Result
  /-- The counts of the resends that were waited for. -/
  resends : PoolSummary
  reports : List (UInt64 × UInt64)
  files : FileSystem

namespace Store

/-- A provider of sessions with this store. -/
def provider : Provider :=
  Provider.make ⟨.ok endpoint, [], false, [], [], 0⟩ false

/-- A host with one uploader over the store. -/
def host (store : Store) (files : FileSystem) (limiter : Admission) : Host where
  all := ⟨[limiter], [⟨0, []⟩], [], []⟩
  files := files
  session := .store store
  provider := provider
  inFlight := []
  events := []
  delivered := []

/-- Carries out a job, then waits for the resends. -/
def run (store : Store) (files : FileSystem) (limiter : Admission) (job : UploadJob) : LocalRun :=
  let saved := (store.host files limiter).save 0 0 job false
  let ended := saved.await 1 0
  { result := ((ended.all.call? 0).bind fun call => call.upload.result)
    resends := ((ended.all.wait? 1).bind ResendWait.result).getD ⟨0, 0⟩
    reports := ended.reports.map Prod.snd
    files := ended.files }

end Store

end ChunkedUpload
