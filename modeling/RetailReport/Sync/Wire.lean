import RetailReport.Json.Encode
import RetailReport.Sync.Report

/-!
# Synchronisations as JSON

## Main definitions

* `SyncReport.toJson`, `SyncStats.toJson`: what was done.
* `SyncEvent.toJson`: what listeners are told; of rows, only how many there are.
-/

namespace RetailReport

open Json (Encode encode)

/-- A store that was not rebuilt as JSON. -/
def SyncFailure.toJson (f : SyncFailure) : Json :=
  .object
    [("schema", encode f.schema), ("cause", .string f.cause.code),
     ("message", .string f.message)]

/-- What a synchronisation has done as JSON. -/
def SyncReport.toJson (r : SyncReport) : Json :=
  .object
    [("rebuilt", encode r.rebuilt), ("coalesced", .int r.coalesced), ("version", .int r.version),
     ("success", .bool r.isSuccess), ("failed_keys", encode r.failedKeys),
     ("failures", .array (r.failures.map SyncFailure.toJson))]

instance : Encode SyncReport := ⟨SyncReport.toJson⟩

/-- What the synchronizer has done as JSON. -/
def SyncStats.toJson (s : SyncStats) : Json :=
  .object
    [("syncs", .int s.syncs), ("keys_rebuilt", .int s.keysRebuilt), ("failures", .int s.failures),
     ("coalesced", .int s.coalesced), ("retries", .int s.retries), ("exhausted", .int s.exhausted),
     ("queue_rejected", .int s.queueRejected), ("last_version", .int s.lastVersion)]

instance : Encode SyncStats := ⟨SyncStats.toJson⟩

/-- What listeners are told as JSON. -/
def SyncEvent.toJson : SyncEvent → Json
  | .beforeCommit batch =>
    .object
      [("before_commit", encode (batch.sliceIds.map SliceId.key)),
       ("rows", .int (RollupBatch.rowCount batch))]
  | .onCommitted key slices =>
    .object [("on_committed", .string key), ("slices", encode (slices.map SliceId.key))]
  | .onBatchComplete report => .object [("on_batch_complete", encode report.rebuilt)]

instance : Encode SyncEvent := ⟨SyncEvent.toJson⟩

end RetailReport
