import RetailReport.Partition.Manifest
import RetailReport.Query.Request
import RetailReport.Rollup.Plan

/-!
# Valid requests

A request is checked against the plan of its rollup before any engine sees it, so that both engines
refuse the same requests for the same reason.  The checks come in a fixed order, and the first one
that fails counts: the dimensions one by one, the filters, the days, the fields, and last, if the
rollup has to be grouped again by fewer dimensions, whether all fields that are needed can be merged.

## Main definitions

* `RequestFault`: what is wrong with a request.
* `MetricRequest.check`: the first thing that is wrong with a request.
* `EngineError`: why an engine gives no answer.
-/

namespace RetailReport

/-! ### Faults -/

/-- What is wrong with a request. -/
inductive RequestFault where
  /-- A dimension is asked for that the rollup is not grouped by. -/
  | notGrouped (dimension : Dimension) (schema : String)
  /-- A dimension is asked for twice. -/
  | repeatedDimension (dimension : Dimension)
  /-- A dimension is restricted that the rollup is not grouped by. -/
  | notFilterable (schema : String) (dimension : Dimension)
  /-- The last day comes before the first. -/
  | emptyDateRange (first last : Date)
  /-- A field is asked for that the rollup does not have. -/
  | unknownField (schema field : String)
  /-- A field is needed that cannot be grouped again. -/
  | notMergeable (field : String) (agg : AggFunc) (schema : String)
  /-- The rows cannot be grouped as the request wants. -/
  | aggregation (error : AggregationError)
  /-- Something else. -/
  | stated (text : String)
deriving DecidableEq, Repr

/-- The wording of a fault. -/
def RequestFault.message : RequestFault → String
  | .notGrouped d schema => "dimension " ++ d.name ++ " is not grouped by schema " ++ schema
  | .repeatedDimension d => "dimension " ++ d.name ++ " requested twice"
  | .notFilterable schema d => "schema " ++ schema ++ " cannot filter on " ++ d.name
  | .emptyDateRange first last => "empty date range " ++ first.render ++ " .. " ++ last.render
  | .unknownField schema field => "schema " ++ schema ++ " has no field " ++ field
  | .notMergeable field agg schema =>
    "field " ++ field ++ " (" ++ agg.word ++ ") cannot be rolled up from schema " ++ schema
  | .aggregation e => e.message
  | .stated text => text

/-! ### Checks -/

namespace MetricRequest

/-- Checks dimensions one by one; `seen` are those before. -/
def checkDimensions (plan : RebuildPlan) (seen : List Dimension) :
    List Dimension → Except RequestFault Unit
  | [] => .ok ()
  | d :: rest =>
    if !plan.groupBy.contains d then .error (.notGrouped d plan.name)
    else if seen.contains d then .error (.repeatedDimension d)
    else checkDimensions plan (d :: seen) rest

/-- The dimensions that a filter restricts. -/
def filteredDimensions (q : QueryFilter) : List Dimension :=
  (if q.stores.isSome then [Dimension.storeId] else []) ++
    (if q.dateRange.isSome then [Dimension.date] else []) ++
    (if q.channels.isSome then [Dimension.channel] else [])

/-- Checks that the rollup is grouped by what a filter restricts. -/
def checkFilter (plan : RebuildPlan) (q : QueryFilter) : Except RequestFault Unit :=
  match (filteredDimensions q).find? fun d => !plan.groupBy.contains d with
  | some d => .error (.notFilterable plan.name d)
  | none => .ok ()

/-- Checks that the first day does not come after the last. -/
def checkDates (q : QueryFilter) : Except RequestFault Unit :=
  match q.dateRange with
  | some (first, last) => if last < first then .error (.emptyDateRange first last) else .ok ()
  | none => .ok ()

/-- Checks that the rollup has the fields of a projection. -/
def checkFields (plan : RebuildPlan) (projection : List String) : Except RequestFault Unit :=
  match projection.find? fun f => !plan.hasOutput f with
  | some f => .error (.unknownField plan.name f)
  | none => .ok ()

/-- Checks that all fields that a request needs can be merged, if it has fewer dimensions than the
rollup. -/
def checkMergeable (plan : RebuildPlan) (r : MetricRequest) : Except RequestFault Unit :=
  if r.dimensions.length < plan.groupBy.length then
    let required := plan.requiredFields r.fields
    match plan.fields.find? fun f => !f.agg.isMergeable && required.contains f.name with
    | some f => .error (.notMergeable f.name f.agg plan.name)
    | none => .ok ()
  else .ok ()

/-- **Checks a request** against the plan of its rollup. -/
def check (plan : RebuildPlan) (r : MetricRequest) : Except RequestFault Unit := do
  checkDimensions plan [] r.dimensions
  checkFilter plan r.filter
  checkDates r.filter
  checkFields plan r.fields
  checkMergeable plan r

end MetricRequest

/-! ### Engines without an answer -/

/-- Why an engine gives no answer. -/
inductive EngineError where
  /-- There is no rollup of this name. -/
  | unknownSchema (schema : String)
  /-- The request is not valid. -/
  | invalidRequest (fault : RequestFault)
  /-- The partitions cannot be read. -/
  | partition (error : PartitionError)
  /-- The rows cannot be computed. -/
  | aggregation (error : AggregationError)
  /-- The answer is no longer wanted. -/
  | cancelled
  /-- The engine is out of order. -/
  | unavailable (reason : String)
deriving DecidableEq, Repr

namespace EngineError

/-- The wording of an error. -/
def message : EngineError → String
  | .unknownSchema schema => "Unknown schema: " ++ schema
  | .invalidRequest fault => "Invalid request: " ++ fault.message
  | .partition e => "Partition engine error: " ++ e.message
  | .aggregation e => "Aggregation error: " ++ e.message
  | .cancelled => "Query cancelled"
  | .unavailable reason => "Engine unavailable: " ++ reason

/-- The name of an error, whatever its wording. -/
def code : EngineError → String
  | .unknownSchema _ => "UnknownSchema"
  | .invalidRequest _ => "InvalidRequest"
  | .partition e => "Partition." ++ e.code
  | .aggregation e => "Aggregation." ++ e.code
  | .cancelled => "Cancelled"
  | .unavailable _ => "Unavailable"

/-- Whether files or their formats are to blame. -/
def isExternal : EngineError → Bool
  | .partition e => e.isExternal
  | _ => false

/-- Whether the request itself is to blame, so that no other engine can answer it. -/
def isRequestError : EngineError → Bool
  | .unknownSchema _ | .invalidRequest _ => true
  | _ => false

/-- An error of an aggregation: a request that asks for the wrong fields or dimensions is not valid. -/
def ofAggregation : AggregationError → EngineError
  | .notMergeable field agg => .invalidRequest (.aggregation (.notMergeable field agg))
  | .unsupportedDimension d => .invalidRequest (.aggregation (.unsupportedDimension d))
  | e => .aggregation e

/-- An error of the partition store, which may be one of an aggregation. -/
def ofPartition : PartitionError → EngineError
  | .cancelled => .cancelled
  | .aggregation e => ofAggregation e
  | e => .partition e

end EngineError

end RetailReport
