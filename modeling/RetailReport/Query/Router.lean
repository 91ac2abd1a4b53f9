import RetailReport.Query.Failure

/-!
# The query router

The router decides which engine answers a request.  It prefers the partition engine once the fact
store has grown to a threshold, as long as that engine is healthy; whoever runs the service may force
an engine until the next refresh.  If the partition engine fails for another reason than the request
itself, this one request falls back on the rollup engine.

The router does not know the engines themselves.  It reaches them through an `EngineAccess` to
whatever holds them, since answering a request may change what an engine has cached.

## Main definitions

* `RouterConfig`, `Router`, `RouterStatus`.
* `EngineAccess`: the health and the answers of the engines.
* `Router.reevaluate`, `Router.force`: the choice of the engine.
* `Router.query`, `Router.queryVia`, `Router.verify`: requests.
-/

namespace RetailReport

/-- How the router is set up. -/
structure RouterConfig where
  /-- The number of lines from which on the partition engine is preferred. -/
  switchThreshold : Nat := 1000000
  /-- How often the choice is reconsidered, in seconds; never, if zero. -/
  refreshIntervalSecs : Nat := 60
  /-- The tolerance at which the engines are compared. -/
  verifyTolerance : Float := 1e-6
deriving Repr, Inhabited

/-- How often an engine has answered and failed. -/
structure EngineTally where
  /-- How often it has answered. -/
  ok : Nat := 0
  /-- How often it has failed. -/
  error : Nat := 0
deriving DecidableEq, Repr, Inhabited

/-- The choice of the engine, and what has been asked. -/
structure Router where
  /-- How the router is set up. -/
  config : RouterConfig
  /-- The engine that answers requests. -/
  engine : Engine := .rollup
  /-- The engine that is forced, if one is. -/
  forced : Option Engine := none
  /-- The number of lines when the choice was made. -/
  recordCount : Nat := 0
  /-- Whether a choice has been made at all. -/
  refreshed : Bool := false
  /-- How many requests were routed. -/
  queries : Nat := 0
  /-- How many of them fell back on the rollup engine. -/
  degraded : Nat := 0
  /-- How often the engines disagreed. -/
  inconsistencies : Nat := 0
  /-- How the rollup engine has done on routed requests. -/
  rollupTally : EngineTally := {}
  /-- How the partition engine has done on routed requests. -/
  partitionTally : EngineTally := {}
deriving Repr, Inhabited

/-- What whoever runs the service sees of the router and the engines. -/
structure RouterStatus where
  /-- The engine that answers requests. -/
  engine : Engine
  /-- The engine that is forced, if one is. -/
  forced : Option Engine
  /-- The number of lines when the choice was made. -/
  recordCount : Nat
  /-- The number of lines from which on the partition engine is preferred. -/
  switchThreshold : Nat
  /-- Whether the rollup engine is healthy. -/
  rollupHealthy : Bool
  /-- Whether the partition engine is healthy. -/
  partitionHealthy : Bool
  /-- Whether a choice has been made at all. -/
  refreshed : Bool
  /-- How many requests were routed. -/
  queries : Nat
  /-- How many of them fell back on the rollup engine. -/
  degraded : Nat
  /-- How often the engines disagreed. -/
  inconsistencies : Nat
deriving DecidableEq, Repr

/-- A result, with the way by which it came. -/
structure RoutedResult where
  /-- The result. -/
  result : AggregateResult
  /-- The engine that has answered. -/
  engineUsed : Engine
  /-- Whether it stood in for the other one. -/
  degraded : Bool
deriving DecidableEq, Repr

/-- The way to the engines that some state holds. -/
structure EngineAccess (σ : Type) where
  /-- Whether an engine is healthy. -/
  isHealthy : σ → Engine → Bool
  /-- The answer of an engine, and the state after it. -/
  execute : σ → Engine → MetricRequest → Except EngineError AggregateResult × σ

namespace Router

variable {σ : Type}

/-! ### The choice of the engine -/

/-- The engine for a number of lines. -/
def automatic (config : RouterConfig) (recordCount : Nat) (partitionHealthy : Bool) : Engine :=
  if config.switchThreshold ≤ recordCount && partitionHealthy then .partition else .rollup

/-- Makes the choice again, and keeps to a forced engine unless `clearForce` is set.  If the lines
cannot be counted, nothing changes. -/
def reevaluate (r : Router) (clearForce : Bool) (count : Except FactStoreError Nat)
    (partitionHealthy : Bool) : Except FactStoreError Engine × Router :=
  match count with
  | .error e => (.error e, r)
  | .ok recordCount =>
    let forced := if clearForce then none else r.forced
    let engine := forced.getD (automatic r.config recordCount partitionHealthy)
    (.ok engine, { r with engine, forced, recordCount, refreshed := true })

/-- Makes the choice again after a synchronisation that has rebuilt some stores. -/
def onBatchComplete (r : Router) (rebuilt : List String) (count : Except FactStoreError Nat)
    (partitionHealthy : Bool) : Router :=
  if rebuilt.isEmpty then r else (r.reevaluate false count partitionHealthy).2

/-- Forces an engine that is healthy. -/
def force (r : Router) (engine : Engine) (healthy : Bool) : Except ReportError Unit × Router :=
  if healthy then (.ok (), { r with engine, forced := some engine })
  else (.error (.engineUnavailable engine .unhealthy), r)

/-! ### Requests -/

/-- Counts an answer or a failure of an engine. -/
def tally (r : Router) (engine : Engine) (ok : Bool) : Router :=
  let count (t : EngineTally) : EngineTally :=
    if ok then { t with ok := t.ok + 1 } else { t with error := t.error + 1 }
  match engine with
  | .rollup => { r with rollupTally := count r.rollupTally }
  | .partition => { r with partitionTally := count r.partitionTally }

/-- Takes the answer of an engine, the last one that is asked. -/
def conclude (r : Router) (engine : Engine) (degraded : Bool)
    (answer : Except EngineError AggregateResult) : Except ReportError RoutedResult × Router :=
  match answer with
  | .ok result => (.ok ⟨result, engine, degraded⟩, r.tally engine true)
  | .error e =>
    (.error (if !degraded && e.isRequestError then .engine e
        else .engineUnavailable engine (.failed e)),
      r.tally engine false)

/-- Whether the rollup engine is to stand in for an engine that has given some answer. -/
def fallsBack (engine : Engine) (answer : Except EngineError AggregateResult) : Bool :=
  match engine, answer with
  | .partition, .error e => !e.isRequestError
  | _, _ => false

/-- **Routes a request** to the chosen engine. -/
def query (r : Router) (access : EngineAccess σ) (s : σ) (request : MetricRequest) :
    Except ReportError RoutedResult × Router × σ :=
  let engine := r.engine
  let r := { r with queries := r.queries + 1 }
  let (answer, s) := access.execute s engine request
  if fallsBack engine answer then
    let r := { r with degraded := r.degraded + 1 }.tally .partition false
    let (answer, s) := access.execute s .rollup request
    let (outcome, r) := r.conclude .rollup true answer
    (outcome, r, s)
  else
    let (outcome, r) := r.conclude engine false answer
    (outcome, r, s)

/-- Sends a request to a given engine. -/
def queryVia (access : EngineAccess σ) (s : σ) (engine : Engine) (request : MetricRequest) :
    Except ReportError AggregateResult × σ :=
  match access.execute s engine request with
  | (.ok result, s) => (.ok result, s)
  | (.error e, s) => (.error (.engine e), s)

/-- **Sends a request to both engines** and compares their results. -/
def verify (r : Router) (access : EngineAccess σ) (s : σ) (request : MetricRequest)
    (tolerance : Float) : Except ReportError AggregateResult × Router × σ :=
  match queryVia access s .rollup request with
  | (.error e, s) => (.error e, r, s)
  | (.ok rollup, s) =>
    match queryVia access s .partition request with
    | (.error e, s) => (.error e, r, s)
    | (.ok partition, s) =>
      match rollup.difference? partition tolerance with
      | none => (.ok rollup, r, s)
      | some d =>
        (.error (.inconsistent request.schema d),
          { r with inconsistencies := r.inconsistencies + 1 }, s)

/-! ### Status -/

/-- What whoever runs the service sees. -/
def status (r : Router) (access : EngineAccess σ) (s : σ) : RouterStatus where
  engine := r.engine
  forced := r.forced
  recordCount := r.recordCount
  switchThreshold := r.config.switchThreshold
  rollupHealthy := access.isHealthy s .rollup
  partitionHealthy := access.isHealthy s .partition
  refreshed := r.refreshed
  queries := r.queries
  degraded := r.degraded
  inconsistencies := r.inconsistencies

end Router

end RetailReport
