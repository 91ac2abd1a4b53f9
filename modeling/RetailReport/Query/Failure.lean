import RetailReport.Config.Fault
import RetailReport.Query.Difference
import RetailReport.Query.Validity
import RetailReport.Rollup.Compile
import RetailReport.Sync.Report

/-!
# Failures of the service

All errors that a caller of the service can meet, with the status that the HTTP interface gives them:
400 for requests that no engine can answer, 408 for answers that are no longer wanted, 409 for
engines that disagree, 503 for engines and workers that do not work, and 500 for everything else.

## Main definitions

* `ReportError`, `ReportError.message`, `ReportError.code`, `ReportError.status`.
-/

namespace RetailReport

/-- Why an engine does not work. -/
inductive Outage where
  /-- It is not healthy. -/
  | unhealthy
  /-- It has failed. -/
  | failed (error : EngineError)
  /-- Something else. -/
  | stated (text : String)
deriving DecidableEq, Repr

/-- The wording of an outage. -/
def Outage.message : Outage → String
  | .unhealthy => "engine is unhealthy"
  | .failed e => e.message
  | .stated text => text

/-- What can go wrong. -/
inductive ReportError where
  /-- A schema makes no sense. -/
  | schema (error : SchemaError)
  /-- A job is not accepted. -/
  | sync (error : SyncError)
  /-- A partition cannot be written or read. -/
  | partition (error : PartitionError)
  /-- An engine refuses a request. -/
  | engine (error : EngineError)
  /-- The fact store refuses. -/
  | factStore (error : FactStoreError)
  /-- There is no configuration. -/
  | config (error : ConfigError)
  /-- An engine does not work. -/
  | engineUnavailable (engine : Engine) (reason : Outage)
  /-- The engines disagree. -/
  | inconsistent (schema : String) (difference : Difference)
deriving DecidableEq, Repr

namespace ReportError

/-- The wording of an error. -/
def message : ReportError → String
  | .schema e => "Schema error: " ++ e.message
  | .sync e => "Sync error: " ++ e.message
  | .partition e => "Partition error: " ++ e.message
  | .engine e => "Engine error: " ++ e.message
  | .factStore e => "Fact store error: " ++ e.message
  | .config e => "Config error: " ++ e.message
  | .engineUnavailable e reason => "Engine " ++ e.name ++ " unavailable: " ++ reason.message
  | .inconsistent name difference =>
    "Inconsistent aggregation for schema " ++ name ++ ": " ++ difference.message

/-- The name of an error, whatever its wording. -/
def code : ReportError → String
  | .schema e => "Schema." ++ e.code
  | .sync e => "Sync." ++ e.code
  | .partition e => "Partition." ++ e.code
  | .engine e => "Engine." ++ e.code
  | .factStore e => "FactStore." ++ e.code
  | .config e => "Config." ++ e.code
  | .engineUnavailable _ _ => "EngineUnavailable"
  | .inconsistent _ _ => "InconsistentAggregation"

/-- Whether files or their formats are to blame. -/
def isExternal : ReportError → Bool
  | .partition e => e.isExternal
  | .engine e => e.isExternal
  | .config e => e.isExternal
  | _ => false

/-- The HTTP status of an error. -/
def status : ReportError → Nat
  | .engine .cancelled => 408
  | .engine e => if e.isRequestError then 400 else 500
  | .engineUnavailable _ _ | .sync _ => 503
  | .inconsistent _ _ => 409
  | _ => 500

end ReportError

end RetailReport
