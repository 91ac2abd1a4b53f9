import RetailReport.Cache.Basic
import RetailReport.Config.Fault
import RetailReport.Fact.Wire
import RetailReport.Partition.Migration
import RetailReport.Query.Router
import RetailReport.Rollup.Wire
import RetailReport.Sync.Workers

/-!
# Configurations

A configuration has a section for each part of the service, the catalog of the fields that lines
carry, and the declarations of the rollups.  Whatever it does not say has a default.

## Main definitions

* `HttpConfig`, `PartitionConfig`, `ReportConfig`.
* `ReportConfig.check`: whether the values can be used.
* `ReportConfig.decodeIn`, `ReportConfig.toJson`: configurations as JSON.
-/

namespace RetailReport

open Json (Shape need)

/-! ### Sections -/

/-- How the HTTP interface is set up. -/
structure HttpConfig where
  /-- The host to listen on. -/
  host : String := "0.0.0.0"
  /-- The port to listen on. -/
  port : Nat := 8090
  /-- Whether there is an HTTP interface. -/
  enabled : Bool := true
deriving DecidableEq, Repr, Inhabited

/-- The address to listen on. -/
def HttpConfig.bindAddress (c : HttpConfig) : String :=
  c.host ++ ":" ++ String.ofList (Digits.decimal c.port)

/-- Where partitions are kept. -/
structure PartitionConfig where
  /-- The folder. -/
  root : String := "./data/partitions"
  /-- The path of the manifest in the folder. -/
  manifestFile : String := "manifest.json"
  /-- The rollup by which summaries are computed, if they are kept. -/
  summarySchema : Option String := none
deriving DecidableEq, Repr, Inhabited

/-- How the whole service is set up. -/
structure ReportConfig where
  /-- The HTTP interface. -/
  http : HttpConfig := {}
  /-- The router. -/
  router : RouterConfig := {}
  /-- The slice cache. -/
  cache : CacheConfig := {}
  /-- The sync workers. -/
  sync : WorkerConfig := {}
  /-- The partition store. -/
  partition : PartitionConfig := {}
  /-- The migrations. -/
  migrator : MigratorConfig := {}
  /-- The fields that lines carry. -/
  catalog : Catalog := {}
  /-- The rollups. -/
  schemas : List RollupSchema := []
deriving Repr, Inhabited

namespace ReportConfig

/-- Whether all values of a configuration can be used. -/
def check (c : ReportConfig) : Except ConfigFault Unit := do
  if c.sync.workerCount = 0 then throw .noWorkers
  if c.sync.queueCapacity = 0 then throw .noQueue
  if !(0.0 ≤ c.cache.jitterRatio && c.cache.jitterRatio < 1.0) then throw .jitterRange
  match c.partition.summarySchema with
  | some name => if !c.schemas.any (·.name = name) then throw (.undeclaredSummary name)
  | none => pure ()

end ReportConfig

/-! ### Reading -/

/-- The values of the HTTP interface. -/
def HttpConfig.shape : Shape HttpConfig :=
  [Shape.field "host" Json.text fun v c => { c with host := v },
   Shape.field "port" Json.word16 fun v c => { c with port := v },
   Shape.field "enabled" Json.flag fun v c => { c with enabled := v }]

/-- The values of the router. -/
def RouterConfig.shape : Shape RouterConfig :=
  [Shape.field "switch_threshold" Json.word64 fun v c => { c with switchThreshold := v },
   Shape.field "refresh_interval_secs" Json.word64 fun v c => { c with refreshIntervalSecs := v },
   Shape.field "verify_tolerance" Json.number fun v c => { c with verifyTolerance := v }]

/-- The values of the slice cache. -/
def CacheConfig.shape : Shape CacheConfig :=
  [Shape.field "ttl_ms" Json.word64 fun v c => { c with ttlMs := v },
   Shape.field "null_ttl_ms" Json.word64 fun v c => { c with nullTtlMs := v },
   Shape.field "lock_wait_ms" Json.word64 fun v c => { c with lockWaitMs := v },
   Shape.field "jitter_ratio" Json.number fun v c => { c with jitterRatio := v },
   Shape.field "bloom_enabled" Json.flag fun v c => { c with filterEnabled := v },
   Shape.field "bloom_capacity" Json.word64 fun v c => { c with filterCapacity := v },
   Shape.field "bloom_fpp" Json.number fun v c => { c with filterErrorRate := v }]

/-- The values of the sync workers. -/
def WorkerConfig.shape : Shape WorkerConfig :=
  [Shape.field "worker_count" Json.word64 fun v c => { c with workerCount := v },
   Shape.field "queue_capacity" Json.word64 fun v c => { c with queueCapacity := v },
   Shape.field "max_retries" Json.word32 fun v c => { c with maxRetries := v },
   Shape.field "retry_base_ms" Json.word64 fun v c => { c with retryBaseMs := v },
   Shape.field "retry_max_ms" Json.word64 fun v c => { c with retryMaxMs := v }]

/-- The values of the partition store. -/
def PartitionConfig.shape : Shape PartitionConfig :=
  [Shape.field "root" Json.text fun v c => { c with root := v },
   Shape.field "manifest_file" Json.text fun v c => { c with manifestFile := v },
   Shape.field "summary_schema" (Json.optional Json.text) fun v c => { c with summarySchema := v }]

/-- The values of the migrations. -/
def MigratorConfig.shape : Shape MigratorConfig :=
  [Shape.field "interval_secs" Json.word64 fun v c => { c with intervalSecs := v },
   Shape.field "include_open" Json.flag fun v c => { c with includeOpen := v },
   Shape.field "append_on_ingest" Json.flag fun v c => { c with appendOnIngest := v }]

namespace ReportConfig

/-- The sections. -/
def shape (dialect : Json.Dialect) : Shape ReportConfig :=
  [Shape.field "http" (HttpConfig.shape.readIn dialect {}) fun v c => { c with http := v },
   Shape.field "router" (RouterConfig.shape.readIn dialect {}) fun v c => { c with router := v },
   Shape.field "cache" (CacheConfig.shape.readIn dialect {}) fun v c => { c with cache := v },
   Shape.field "sync" (WorkerConfig.shape.readIn dialect {}) fun v c => { c with sync := v },
   Shape.field "partition" (PartitionConfig.shape.readIn dialect {}) fun v c =>
     { c with partition := v },
   Shape.field "migrator" (MigratorConfig.shape.readIn dialect {}) fun v c =>
     { c with migrator := v },
   Shape.field "catalog" (Catalog.decodeIn dialect) fun v c => { c with catalog := v },
   Shape.field "schemas" (Json.list (RollupSchema.decodeIn dialect)) fun v c =>
     { c with schemas := v }]

/-- Reads a configuration; its values may not be usable. -/
def decodeIn (dialect : Json.Dialect) : Json.Decoder ReportConfig := fun j =>
  (shape dialect).readIn dialect {} j

/-- Reads a configuration in JSON; its values may not be usable. -/
def decode : Json.Decoder ReportConfig := decodeIn .json

end ReportConfig

/-! ### Writing -/

/-- The values of the HTTP interface as JSON. -/
def HttpConfig.toJson (c : HttpConfig) : Json :=
  .object [("host", .string c.host), ("port", .int c.port), ("enabled", .bool c.enabled)]

/-- The values of the router as JSON. -/
def RouterConfig.toJson (c : RouterConfig) : Json :=
  .object
    [("switch_threshold", .int c.switchThreshold),
     ("refresh_interval_secs", .int c.refreshIntervalSecs),
     ("verify_tolerance", .float c.verifyTolerance)]

/-- The values of the slice cache as JSON. -/
def CacheConfig.toJson (c : CacheConfig) : Json :=
  .object
    [("ttl_ms", .int c.ttlMs), ("null_ttl_ms", .int c.nullTtlMs),
     ("lock_wait_ms", .int c.lockWaitMs), ("jitter_ratio", .float c.jitterRatio),
     ("bloom_enabled", .bool c.filterEnabled), ("bloom_capacity", .int c.filterCapacity),
     ("bloom_fpp", .float c.filterErrorRate)]

/-- The values of the sync workers as JSON. -/
def WorkerConfig.toJson (c : WorkerConfig) : Json :=
  .object
    [("worker_count", .int c.workerCount), ("queue_capacity", .int c.queueCapacity),
     ("max_retries", .int c.maxRetries), ("retry_base_ms", .int c.retryBaseMs),
     ("retry_max_ms", .int c.retryMaxMs)]

/-- The values of the partition store as JSON. -/
def PartitionConfig.toJson (c : PartitionConfig) : Json :=
  .object
    [("root", .string c.root), ("manifest_file", .string c.manifestFile),
     ("summary_schema", match c.summarySchema with
       | some name => .string name
       | none => .null)]

/-- The values of the migrations as JSON. -/
def MigratorConfig.toJson (c : MigratorConfig) : Json :=
  .object
    [("interval_secs", .int c.intervalSecs), ("include_open", .bool c.includeOpen),
     ("append_on_ingest", .bool c.appendOnIngest)]

/-- A configuration as JSON. -/
def ReportConfig.toJson (c : ReportConfig) : Json :=
  .object
    [("http", c.http.toJson), ("router", c.router.toJson), ("cache", c.cache.toJson),
     ("sync", c.sync.toJson), ("partition", c.partition.toJson), ("migrator", c.migrator.toJson),
     ("catalog", c.catalog.toJson), ("schemas", .array (c.schemas.map RollupSchema.toJson))]

end RetailReport
