import RetailReport.Config.Basic
import RetailReport.Query.Answer

/-!
# The report service

The service puts all parts together.  Lines come in through it: they go into the fact store, their
partitions are marked as pending, the sync workers are notified, and the partitions of the business
day are brought up to date at once.  Requests go out through its router to one of the two engines.
The slice cache and the router listen to the synchronizer: the cache is told of slices before and
after they are committed, the router when a synchronisation is over.

The background work is part of the state: jobs wait in the queue of the workers until they are
drained.

## Main definitions

* `ReportService`, `ReportService.build`.
* `ReportService.start`, `ReportService.shutdown`, `ReportService.wait`.
* `ReportService.ingest`, `ReportService.purge`, `ReportService.notify`, `ReportService.syncNow`,
  `ReportService.migrate`: changes.
* `ReportService.query`, `ReportService.queryVia`, `ReportService.verify`: requests.
-/

namespace RetailReport

/-- The whole service. -/
structure ReportService where
  /-- How it is set up. -/
  config : ReportConfig
  /-- The plans of the rollups. -/
  plans : PlanTable
  /-- The fact store, the rollup store, the synchronizer and the workers. -/
  work : WorkSite
  /-- The slice cache. -/
  cache : SliceCache
  /-- The partition store. -/
  partitions : PartitionStore
  /-- The router. -/
  router : Router

namespace ReportService

/-- The fact store. -/
def facts (s : ReportService) : FactStore := s.work.site.facts

/-- The rollup store. -/
def rollups (s : ReportService) : RollupStore := s.work.site.rollups

/-- The synchronizer. -/
def synchronizer (s : ReportService) : Synchronizer := s.work.site.synchronizer

/-- The service with another fact store. -/
def withFacts (s : ReportService) (facts : FactStore) : ReportService :=
  { s with work := { s.work with site := { s.work.site with facts } } }

/-- The service with another rollup store. -/
def withRollups (s : ReportService) (rollups : RollupStore) : ReportService :=
  { s with work := { s.work with site := { s.work.site with rollups } } }

/-! ### Building -/

/-- Compiles the rollups in order; their names have to differ. -/
def compileAll (catalog : Catalog) (formulas : FormulaTable) (schemas : List RollupSchema) :
    Except SchemaError PlanTable :=
  schemas.foldlM
    (fun plans schema => do
      if plans.contains schema.name then throw (.duplicateSchema schema.name)
      let plan ← Compile.compile schema catalog formulas
      return plans.insert schema.name plan)
    .empty

/-- **Builds the service** on the folder of its partitions. -/
def build (config : ReportConfig) (formulas : FormulaTable) (folder : Folder) (today : Date) :
    Except ReportError ReportService :=
  match compileAll config.catalog formulas config.schemas with
  | .error e => .error (.schema e)
  | .ok plans =>
    let summaryPlan := config.partition.summarySchema.bind plans.get?
    match PartitionStore.open? folder config.partition.manifestFile today summaryPlan with
    | .error e => .error (.partition e)
    | .ok partitions =>
      .ok {
        config, plans, partitions
        work := {
          site := { facts := {}, rollups := {}, synchronizer := { plans := plans.values } }
          pool := { config := config.sync } }
        cache := .new config.cache
        router := { config := config.router } }

/-! ### Listeners -/

/-- Tells the cache and the router what the synchronizer has done. -/
def hear (s : ReportService) : SyncEvent → ReportService
  | .beforeCommit batch => { s with cache := s.cache.beforeCommit batch.sliceIds }
  | .onCommitted _ slices => { s with cache := s.cache.onCommitted slices }
  | .onBatchComplete report =>
    { s with router := s.router.onBatchComplete report.rebuilt s.facts.count s.partitions.healthy }

/-- The service after some work, with its listeners told of it. -/
def afterWork (s : ReportService) (work : WorkSite) (events : List SyncEvent) : ReportService :=
  events.foldl hear { s with work }

/-! ### Running -/

/-- **Starts the service**: rebuilds all rollups, chooses the engine, and starts the workers. -/
def start (s : ReportService) : Except ReportError Unit × ReportService :=
  let (_, events, site) := s.work.site.rebuildAll
  let s := s.afterWork { s.work with site } events
  match s.router.reevaluate true s.facts.count s.partitions.healthy with
  | (.error e, router) => (.error (.factStore e), { s with router })
  | (.ok _, router) =>
    (.ok (), { s with router, work := { s.work with pool := s.work.pool.start } })

/-- Stops the workers. -/
def shutdown (s : ReportService) : ReportService :=
  let (events, work) := s.work.stop
  s.afterWork work events

/-- Waits until the workers have nothing left to do, and tells whether that is so. -/
def wait (s : ReportService) (timeoutMs : Nat) : Bool × ReportService :=
  let (idle, events, work) := s.work.waitIdle timeoutMs
  (idle, s.afterWork work events)

/-! ### Changes -/

/-- Notifies the workers of a change of some stores; of none, there is nothing to notify. -/
def notify (s : ReportService) (keys : KeySet String) : Except ReportError Unit × ReportService :=
  if keys.isEmpty then (.ok (), s)
  else
    match s.work.notify keys with
    | (.ok (), work) => (.ok (), { s with work })
    | (.error e, work) => (.error (.sync e), { s with work })

/-- Marks partitions as pending. -/
def markPending (s : ReportService) (ids : KeySet PartitionId) : ReportService :=
  { s with partitions := (s.partitions.markPending ids.members).2 }

/-- Brings partitions up to date, if there are any. -/
def refreshPartitions (s : ReportService) (ids : KeySet PartitionId) : ReportService :=
  if ids.isEmpty then s else { s with partitions := (Migration.refresh s.facts s.partitions ids).1 }

/-- The partitions of days that are not over. -/
def openOnes (s : ReportService) (ids : KeySet PartitionId) : KeySet PartitionId :=
  ids.filter fun id _ => !s.partitions.isClosed id.date

/-- **Takes in lines**, and gives the stores that they belong to. -/
def ingest (s : ReportService) (records : List FactRecord) :
    Except ReportError (KeySet String) × ReportService :=
  let touched := KeySet.ofList (records.map (·.partition))
  match s.facts.append records with
  | .error e => (.error (.factStore e), s)
  | .ok (facts, keys) =>
    match ((s.withFacts facts).markPending touched).notify keys with
    | (.error e, s) => (.error e, s)
    | (.ok (), s) =>
      (.ok keys, if s.config.migrator.appendOnIngest then s.refreshPartitions (s.openOnes touched) else s)

/-- The partitions of a store: those of the days on which it has lines, and those that are
stored. -/
def partitionsOf (s : ReportService) (storeId : String) (dates : List Date) : KeySet PartitionId :=
  (KeySet.ofList (dates.map fun d => (⟨storeId, d⟩ : PartitionId))).union
    (KeySet.ofList ((s.partitions.partitions.map (·.id)).filter (·.storeId = storeId)))

/-- **Removes all lines of a store**, and tells how many. -/
def purge (s : ReportService) (storeId : String) : Except ReportError Nat × ReportService :=
  match s.facts.partitionDates storeId with
  | .error e => (.error (.factStore e), s)
  | .ok dates =>
    let touched := s.partitionsOf storeId dates
    let (facts, removed) := s.facts.purge storeId
    if removed = 0 then (.ok 0, (s.withFacts facts).refreshPartitions touched)
    else
      match ((s.withFacts facts).markPending touched).notify (KeySet.ofList [storeId]) with
      | (.error e, s) => (.error e, s)
      | (.ok (), s) => (.ok removed, s.refreshPartitions touched)

/-- Synchronises some stores at once, past the workers. -/
def syncNow (s : ReportService) (keys : KeySet String) : SyncReport × ReportService :=
  let (report, events, site) := (s.work.recordMutation keys).site.sync keys
  (report, s.afterWork { s.work with site } events)

/-- Brings all partitions up to date. -/
def migrate (s : ReportService) : Except ReportError MigrationReport × ReportService :=
  match Migration.pass s.facts s.partitions s.config.migrator.includeOpen with
  | (.ok report, partitions) => (.ok report, { s with partitions })
  | (.error e, partitions) => (.error (.partition e), { s with partitions })

/-! ### Requests -/

/-- The way to the engines. -/
def engines : EngineAccess ReportService where
  isHealthy s engine :=
    match engine with
    | .rollup => s.rollups.healthy
    | .partition => s.partitions.healthy
  execute s engine r :=
    match engine with
    | .rollup =>
      let (answer, cache) := RollupEngine.execute s.plans s.rollups s.cache r false
      (answer, { s with cache })
    | .partition => (PartitionEngine.execute s.plans s.partitions r false, s)

/-- Answers a request by the engine of the router's choice. -/
def query (s : ReportService) (r : MetricRequest) : Except ReportError RoutedResult × ReportService :=
  let (outcome, router, s) := s.router.query engines s r
  (outcome, { s with router })

/-- Answers a request by a given engine. -/
def queryVia (s : ReportService) (engine : Engine) (r : MetricRequest) :
    Except ReportError AggregateResult × ReportService := Router.queryVia engines s engine r

/-- Answers a request by both engines, which have to agree. -/
def verify (s : ReportService) (r : MetricRequest) :
    Except ReportError AggregateResult × ReportService :=
  let (outcome, router, s) := s.router.verify engines s r s.config.router.verifyTolerance
  (outcome, { s with router })

/-! ### The router -/

/-- What whoever runs the service sees. -/
def status (s : ReportService) : RouterStatus := s.router.status engines s

/-- Lets the router choose the engine afresh. -/
def refresh (s : ReportService) : Except ReportError Engine × ReportService :=
  match s.router.reevaluate true s.facts.count s.partitions.healthy with
  | (.ok engine, router) => (.ok engine, { s with router })
  | (.error e, router) => (.error (.factStore e), { s with router })

/-- Forces an engine. -/
def force (s : ReportService) (engine : Engine) : Except ReportError Unit × ReportService :=
  let (outcome, router) := s.router.force engine (engines.isHealthy s engine)
  (outcome, { s with router })

/-! ### Measurements -/

/-- What has been counted, in a fixed order; what has not happened is left out. -/
def measurements (s : ReportService) : List (String × Nat) :=
  let sync := s.synchronizer.stats
  let cache := s.cache.stats
  [("sync_keys/rebuilt", sync.keysRebuilt), ("sync_keys/failed", sync.failures),
   ("sync_keys/coalesced", sync.coalesced), ("sync_retry/scheduled", sync.retries),
   ("sync_retry/exhausted", sync.exhausted), ("query/ROLLUP/ok", s.router.rollupTally.ok),
   ("query/ROLLUP/error", s.router.rollupTally.error),
   ("query/PARTITION/ok", s.router.partitionTally.ok),
   ("query/PARTITION/error", s.router.partitionTally.error), ("cache/hit", cache.hits),
   ("cache/miss", cache.misses), ("cache/null_hit", cache.nullHits),
   ("cache/bloom_reject", cache.filterRejects),
   ("partition_writes/written", s.partitions.writtenCount),
   ("partition_writes/unchanged", s.partitions.unchangedCount), ("degraded", s.router.degraded),
   ("sync_latency_count", sync.keysRebuilt + sync.failures)].filter fun (_, n) => n ≠ 0

end ReportService

end RetailReport
