import RetailReport.Cache.Basic
import RetailReport.Partition.Store
import RetailReport.Query.Validity

/-!
# The answers of the two engines

The rollup engine reads the slices that a request may be about, through the slice cache, keeps the
rows that its filter asks for, and groups them again by its dimensions.  The partition engine leaves
the work to the partition store.  Both check the request first.

Days are compared in their written form, as the rows hold them.

## Main definitions

* `PlanTable`: the plans by name.
* `RowFilter.asksFor`: which rows of a rollup a request is about.
* `RollupEngine.execute`, `PartitionEngine.execute`: the answers.
-/

namespace RetailReport

/-- The slices that have been read. -/
abbrev SliceCache := Cache (List RollupRow)

/-- The plans of all rollups by name. -/
abbrev PlanTable := SortedMap String RebuildPlan

namespace PlanTable

/-- A list of plans by name. -/
def ofPlans (plans : List RebuildPlan) : PlanTable :=
  SortedMap.ofList (plans.map fun p => (p.name, p))

/-- The plan for a request, if the request is valid. -/
def checkedPlan (plans : PlanTable) (r : MetricRequest) : Except EngineError RebuildPlan :=
  match plans.get? r.schema with
  | none => .error (.unknownSchema r.schema)
  | some plan =>
    match r.check plan with
    | .ok () => .ok plan
    | .error fault => .error (.invalidRequest fault)

end PlanTable

/-! ### Rows that a request is about -/

namespace RowFilter

/-- Whether a row passes the part of a filter that restricts one dimension.  There is nothing to
pass if the dimension is not restricted or the rollup is not grouped by it. -/
def passes (groupBy : List Dimension) (key : GroupKey) (d : Dimension)
    (restriction : Option (String → Bool)) : Bool :=
  match groupBy.idxOf? d, restriction with
  | some i, some test => key[i]?.any test
  | _, _ => true

/-- Whether a written day is between two others, as texts. -/
def inRange (range : Date × Date) (day : String) : Bool :=
  decide (range.1.render ≤ day) && decide (day ≤ range.2.render)

/-- Whether a request is about a row. -/
def asksFor (groupBy : List Dimension) (q : QueryFilter) (row : RollupRow) : Bool :=
  passes groupBy row.key .storeId (q.stores.map fun s => s.contains) &&
    passes groupBy row.key .channel (q.channels.map fun s => s.contains) &&
    passes groupBy row.key .date (q.dateRange.map inRange)

end RowFilter

/-! ### The rollup engine -/

namespace RollupEngine

/-- The scopes of the slices that a request may be about. -/
def scopes (plan : RebuildPlan) (store : RollupStore) (q : QueryFilter) : List String :=
  if plan.isStoreScoped then
    match q.stores with
    | some stores => stores.members
    | none => store.scopes plan.name
  else [globalScope]

/-- Loads a slice from the rollup store. -/
def loader (store : RollupStore) (id : SliceId) : Cache.Loader Empty (List RollupRow) Unit :=
  fun cache => (⟨.ok (store.get? id), ()⟩, cache)

/-- The rows of a slice, by way of the cache. -/
def slice (store : RollupStore) (cache : SliceCache) (id : SliceId) :
    Option (List RollupRow) × SliceCache :=
  let (reply, cache) := cache.get id.key cache.config.ttlMs (loader store id)
  (reply.outcome.toOption.join, cache)

/-- The rows of several slices, one after the other. -/
def slices (store : RollupStore) (schema : String) (cancelled : Bool) :
    List String → SliceCache → Except EngineError (List RollupRow) × SliceCache
  | [], cache => (.ok [], cache)
  | scope :: rest, cache =>
    if cancelled then (.error .cancelled, cache)
    else
      let (rows, cache) := slice store cache ⟨schema, scope⟩
      let (more, cache) := slices store schema cancelled rest cache
      (more.map fun more => rows.getD [] ++ more, cache)

/-- The result for the rows of the slices. -/
def answer (plan : RebuildPlan) (r : MetricRequest) (rows : List RollupRow) :
    Except EngineError AggregateResult :=
  let asked := rows.filter (RowFilter.asksFor plan.groupBy r.filter)
  match plan.regroup asked r.dimensions r.fields with
  | .ok rows => .ok (.ofRows (RebuildPlan.projectRows rows r.fields) .rollup)
  | .error e => .error (EngineError.ofAggregation e)

/-- **Answers a request** from the rollup store. -/
def execute (plans : PlanTable) (store : RollupStore) (cache : SliceCache) (r : MetricRequest)
    (cancelled : Bool) : Except EngineError AggregateResult × SliceCache :=
  match plans.checkedPlan r with
  | .error e => (.error e, cache)
  | .ok plan =>
    let (rows, cache) := slices store plan.name cancelled (scopes plan store r.filter) cache
    (rows.bind (answer plan r), cache)

end RollupEngine

/-! ### The partition engine -/

/-- **Answers a request** from the partition store. -/
def PartitionEngine.execute (plans : PlanTable) (store : PartitionStore) (r : MetricRequest)
    (cancelled : Bool) : Except EngineError AggregateResult := do
  let plan ← plans.checkedPlan r
  if !store.healthy then throw (.unavailable "partition store unhealthy")
  match store.query r plan cancelled with
  | .ok result => return result
  | .error e => throw (EngineError.ofPartition e)

end RetailReport
