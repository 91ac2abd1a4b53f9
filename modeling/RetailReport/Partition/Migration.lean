import RetailReport.Partition.Store

/-!
# Bringing partitions up to date

A migration makes partitions follow the fact store.  For each partition it reads the number of its
mark, then the lines in the fact store, replaces or removes the partition, and at last clears the
mark under the number that it read.  Since the number is read before the lines, a change of the lines
in between has a later mark, which stays.

A pass goes over all partitions that have lines, are stored or are pending; those of a day that is
not over are passed over, unless the pass is to include them.

## Main definitions

* `MigratorConfig`, `MigrationReport`.
* `Migration.follow`, `Migration.migrateOne`: one partition.
* `Migration.pass`, `Migration.refresh`: all partitions, or some.
-/

namespace RetailReport

/-- How migrations are set up. -/
structure MigratorConfig where
  /-- How long to wait between two passes, in seconds. -/
  intervalSecs : Nat := 300
  /-- Whether a pass includes the business day. -/
  includeOpen : Bool := false
  /-- Whether lines of the business day are appended to its partitions at once. -/
  appendOnIngest : Bool := true
deriving DecidableEq, Repr, Inhabited

/-- What a migration has done. -/
structure MigrationReport where
  /-- How many partitions were written. -/
  written : Nat := 0
  /-- How many were found unchanged. -/
  unchanged : Nat := 0
  /-- How many were removed. -/
  removed : Nat := 0
  /-- How many were passed over because their day is not over. -/
  skippedOpen : Nat := 0
  /-- Which could not be brought up to date. -/
  failed : List PartitionId := []
deriving DecidableEq, Repr, Inhabited

namespace Migration

/-- What has become of a partition. -/
inductive Outcome where
  /-- It was written. -/
  | written
  /-- It was removed. -/
  | removed
  /-- Nothing was done. -/
  | kept
deriving DecidableEq, Repr

/-- What has become of a partition that lines were written to. -/
def Outcome.ofRef (r : PartitionRef) : Outcome := if r.written then .written else .kept

/-- Makes a partition follow the lines that belong to it. -/
def follow (s : PartitionStore) (id : PartitionId) (facts : List FactRecord) :
    Except PartitionError Outcome × PartitionStore :=
  if facts.isEmpty then
    let (removed, s) := s.removePartition id
    (removed.map fun existed => if existed then .removed else .kept, s)
  else
    let (ref, s) := if s.isClosed id.date then s.writePartition id facts else s.appendOpen id facts
    (ref.map Outcome.ofRef, s)

/-- The lines of a partition in the fact store. -/
def scan (facts : FactStore) (id : PartitionId) : Except PartitionError (List FactRecord) :=
  match facts.scanPartition id.storeId id.date with
  | .ok fs => .ok fs
  | .error e => .error (.factStore e)

/-- The report with one more partition. -/
def report (r : MigrationReport) (o : Outcome) (stored : Bool) : MigrationReport :=
  match o with
  | .removed => { r with removed := r.removed + 1 }
  | .written => { r with written := r.written + 1 }
  | .kept => if stored then { r with unchanged := r.unchanged + 1 } else r

/-- Brings one partition up to date. -/
def migrateOne (facts : FactStore) (step : PartitionStore × MigrationReport) (id : PartitionId) :
    PartitionStore × MigrationReport :=
  let (s, r) := step
  let mark := s.pendingMark? id
  let (outcome, s) := match scan facts id with
    | .ok fs => follow s id fs
    | .error e => (.error e, s)
  match outcome with
  | .ok o => ((s.clearPending id mark).2, report r o (s.entry? id).isSome)
  | .error _ => (s, { r with failed := r.failed ++ [id] })

/-- Brings some partitions up to date, of any day. -/
def refresh (facts : FactStore) (s : PartitionStore) (ids : KeySet PartitionId) :
    PartitionStore × MigrationReport :=
  ids.members.foldl (migrateOne facts) (s, {})

/-- The partitions that have lines. -/
def livePartitions (facts : FactStore) : Except FactStoreError (KeySet PartitionId) := do
  let stores ← facts.partitionKeys
  let ids ← stores.mapM fun store => do
    let dates ← facts.partitionDates store
    return dates.map (PartitionId.mk store)
  return KeySet.ofList ids.flatten

/-- The partitions that a pass goes over. -/
def targets (s : PartitionStore) (live : KeySet PartitionId) : KeySet PartitionId :=
  (live.union (KeySet.ofList (s.partitions.map (·.id)))).union (KeySet.ofList s.pending)

/-- Goes over one partition. -/
def visit (facts : FactStore) (includeOpen : Bool) (live : KeySet PartitionId)
    (step : PartitionStore × MigrationReport) (id : PartitionId) : PartitionStore × MigrationReport :=
  if live.contains id && !step.1.isClosed id.date && !includeOpen then
    (step.1, { step.2 with skippedOpen := step.2.skippedOpen + 1 })
  else migrateOne facts step id

/-- **Goes over all partitions.** -/
def pass (facts : FactStore) (s : PartitionStore) (includeOpen : Bool) :
    Except PartitionError MigrationReport × PartitionStore :=
  match livePartitions facts with
  | .error e => (.error (.factStore e), s)
  | .ok live =>
    let (s, r) := (targets s live).members.foldl (visit facts includeOpen live) (s, {})
    (.ok r, s)

end Migration

end RetailReport
