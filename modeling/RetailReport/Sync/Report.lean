import RetailReport.Fact.Store
import RetailReport.Rollup.Kernel
import RetailReport.Rollup.Store

/-!
# What a synchronisation reports

A synchronisation rebuilds the slices of some stores.  Its report says for which it succeeded, and
why it failed for the others; while it runs, it tells its listeners which slices it commits.

## Main definitions

* `SyncCause`, `SyncFailure`, `SyncError`: why a store was not rebuilt, or a job not accepted.
* `SyncReport`, `SyncStats`: what was done.
* `SyncEvent`: what listeners are told.
-/

namespace RetailReport

/-- Why the slices of a store cannot be computed. -/
inductive SyncCause where
  /-- The fact store refuses. -/
  | factStore (error : FactStoreError)
  /-- The lines cannot be aggregated. -/
  | aggregation (error : AggregationError)
deriving DecidableEq, Repr

/-- The wording of a cause. -/
def SyncCause.message : SyncCause → String
  | .factStore e => "fact store: " ++ e.message
  | .aggregation e => "aggregation: " ++ e.message

/-- The name of a cause, whatever its wording. -/
def SyncCause.code : SyncCause → String
  | .factStore e => "FactStore." ++ e.code
  | .aggregation e => "Aggregation." ++ e.code

/-- A store that was not rebuilt. -/
structure SyncFailure where
  /-- The store. -/
  key : String
  /-- The rollup that could not be computed, if one is to blame. -/
  schema : Option String
  /-- Why it could not be computed. -/
  cause : SyncCause
deriving DecidableEq, Repr

/-- The wording of a failure. -/
def SyncFailure.message (f : SyncFailure) : String :=
  "Sync of key " ++ f.key ++ " failed (schema " ++ Text.quotedOption f.schema ++ "): " ++
    f.cause.message

/-- Why a job is not accepted. -/
inductive SyncError where
  /-- The queue is full. -/
  | queueFull (capacity : Nat)
  /-- The workers were stopped. -/
  | shutDown
deriving DecidableEq, Repr

/-- The wording of an error. -/
def SyncError.message : SyncError → String
  | .queueFull capacity =>
    "Sync queue is full (capacity " ++ String.ofList (Digits.decimal capacity) ++ ")"
  | .shutDown => "Sync workers are shut down"

/-- The name of an error, whatever its wording. -/
def SyncError.code : SyncError → String
  | .queueFull _ => "QueueFull"
  | .shutDown => "ShutDown"

/-- What a synchronisation has done. -/
structure SyncReport where
  /-- The stores that were rebuilt, ascending. -/
  rebuilt : List String := []
  /-- The stores that were not. -/
  failures : List SyncFailure := []
  /-- For how many stores the rebuild of another was waited for. -/
  coalesced : Nat := 0
  /-- The version of the rollup store after the last commit. -/
  version : Nat := 0
deriving DecidableEq, Repr, Inhabited

namespace SyncReport

/-- Whether all stores were rebuilt. -/
def isSuccess (r : SyncReport) : Bool := r.failures.isEmpty

/-- The stores that were not rebuilt. -/
def failedKeys (r : SyncReport) : List String := r.failures.map (·.key)

end SyncReport

/-- What becomes of one store: the version of its commit, or a failure. -/
abbrev KeyOutcome := Except SyncFailure Nat

/-- The report with the outcome for one more store. -/
def SyncReport.add (r : SyncReport) (key : String) (outcome : KeyOutcome) (coalesced : Bool) :
    SyncReport :=
  let r := if coalesced then { r with coalesced := r.coalesced + 1 } else r
  match outcome with
  | .ok version => { r with rebuilt := r.rebuilt ++ [key], version := max r.version version }
  | .error f => { r with failures := r.failures ++ [f] }

/-- What all synchronisations have done. -/
structure SyncStats where
  /-- How many synchronisations there were. -/
  syncs : Nat := 0
  /-- How many rebuilds succeeded. -/
  keysRebuilt : Nat := 0
  /-- How many rebuilds failed. -/
  failures : Nat := 0
  /-- How often the rebuild of another was waited for. -/
  coalesced : Nat := 0
  /-- How many retries were planned. -/
  retries : Nat := 0
  /-- How often no retry was left. -/
  exhausted : Nat := 0
  /-- How many jobs the queue had no room for. -/
  queueRejected : Nat := 0
  /-- The greatest version of a commit. -/
  lastVersion : Nat := 0
deriving DecidableEq, Repr, Inhabited

/-- What listeners are told. -/
inductive SyncEvent where
  /-- Slices are about to be committed. -/
  | beforeCommit (batch : RollupBatch)
  /-- The slices of a store have been committed. -/
  | onCommitted (key : String) (slices : List SliceId)
  /-- A synchronisation is finished. -/
  | onBatchComplete (report : SyncReport)
deriving DecidableEq, Repr

end RetailReport
