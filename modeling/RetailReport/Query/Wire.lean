import RetailReport.Fact.Wire
import RetailReport.Query.Request
import RetailReport.Rollup.Wire

/-!
# Requests and results as JSON

## Main definitions

* `QueryFilter.decode`, `MetricRequest.decode`: requests; all parts but the rollup may be missing.
* `MetricRequest.toJson`, `AggregateResult.toJson`.
-/

namespace RetailReport

open Json (Encode encode Shape need)

/-- Reads a first and a last day. -/
def decodeDateRange : Json.Decoder (Date × Date)
  | .array [first, last] => do
    let first ← Date.decode first
    let last ← Date.decode last
    return (first, last)
  | _ => .error .form

namespace QueryFilter

/-- The parts of a filter. -/
def shape : Shape QueryFilter :=
  [Shape.field "stores" (Json.optional Json.textSet) fun v q => { q with stores := v },
   Shape.field "date_range" (Json.optional decodeDateRange) fun v q => { q with dateRange := v },
   Shape.field "channels" (Json.optional Json.textSet) fun v q => { q with channels := v }]

/-- Reads a filter. -/
def decode : Json.Decoder QueryFilter := fun j => shape.read {} j

/-- A filter as JSON. -/
def toJson (q : QueryFilter) : Json :=
  .object
    [("stores", encode q.stores),
     ("date_range", match q.dateRange with
       | some (first, last) => .array [.string first.render, .string last.render]
       | none => .null),
     ("channels", encode q.channels)]

end QueryFilter

/-- Reads what tells a request apart. -/
def RequestId.decode : Json.Decoder RequestId
  | .string s =>
    match RequestId.parse? s with
    | some id => .ok id
    | none => .error .form
  | _ => .error .form

namespace MetricRequest

/-- The parts of a request that have been read so far. -/
structure Draft where
  requestId : Option RequestId := none
  schema : Option String := none
  dimensions : List Dimension := []
  filter : QueryFilter := {}
  fields : List String := []
  timeoutMs : Option Nat := none

/-- The parts of a request. -/
def shape : Shape Draft :=
  [Shape.field "request_id" RequestId.decode fun v d => { d with requestId := some v },
   Shape.field "schema" Json.text fun v d => { d with schema := some v },
   Shape.field "dimensions" (Json.list Dimension.decode) fun v d => { d with dimensions := v },
   Shape.field "filter" QueryFilter.decode fun v d => { d with filter := v },
   Shape.field "fields" (Json.list Json.text) fun v d => { d with fields := v },
   Shape.field "timeout_ms" (Json.optional Json.word64) fun v d => { d with timeoutMs := v }]

/-- Reads a request. -/
def decode : Json.Decoder MetricRequest := fun j => do
  let d ← shape.read {} j
  return {
    requestId := d.requestId
    schema := ← need d.schema
    dimensions := d.dimensions
    filter := d.filter
    fields := d.fields
    timeoutMs := d.timeoutMs }

/-- A request as JSON, without what tells it apart. -/
def toJson (r : MetricRequest) : Json :=
  .object
    [("schema", .string r.schema), ("dimensions", .array (r.dimensions.map Dimension.toJson)),
     ("filter", r.filter.toJson), ("fields", .array (r.fields.map .string)),
     ("timeout_ms", match r.timeoutMs with
       | some ms => .int ms
       | none => .null)]

end MetricRequest

/-- An engine as JSON. -/
def Engine.toJson (e : Engine) : Json := .string e.name

instance : Encode Engine := ⟨Engine.toJson⟩

/-- Reads the name of an engine, in upper case only. -/
def Engine.decode : Json.Decoder Engine := Json.choice (Engine.all.map fun e => (e.name, e))

/-- A result as JSON; a reason that there is none of is left out. -/
def AggregateResult.toJson (r : AggregateResult) : Json :=
  .object <|
    [("rows", .array (r.rows.map AggregateRow.toJson)), ("engine", r.engine.toJson)] ++
    match r.reason with
    | some reason => [("reason", .string reason.name)]
    | none => []

end RetailReport
