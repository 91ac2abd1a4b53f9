import RetailReport.Rollup.Compile
import RetailReport.Rollup.Regroup

/-!
# Executing plans

A plan computes the rows of its rollup from lines, or from finer rows of the same rollup.  Derived
fields are computed last, from the values of the finished group.

## Main definitions

* `RebuildPlan.finalize`: the derived fields of a group.
* `RebuildPlan.aggregate`, `RebuildPlan.execute`: rows from lines.
* `RebuildPlan.regroup`: rows from finer rows.
* `RebuildPlan.requiredFields`, `RebuildPlan.project`: the fields that an answer needs and shows.
-/

namespace RetailReport.RebuildPlan

/-- The name of the rollup. -/
def name (p : RebuildPlan) : String := p.schema.name

/-- The dimensions of the rollup. -/
def groupBy (p : RebuildPlan) : List Dimension := p.schema.groupBy

/-- The aggregated fields. -/
def fields (p : RebuildPlan) : List FieldSpec := p.schema.fields

/-- Whether the rollup can be rebuilt store by store. -/
def isStoreScoped (p : RebuildPlan) : Bool := p.schema.isStoreScoped

/-- The names of all fields. -/
def outputNames (p : RebuildPlan) : List String :=
  p.fields.map (·.name) ++ p.derived.map (·.name)

/-- Whether there is a field of a given name. -/
def hasOutput (p : RebuildPlan) (name : String) : Bool := p.outputNames.contains name

/-- The same plan for other dimensions. -/
def withDimensions (p : RebuildPlan) (dimensions : List Dimension) : RebuildPlan :=
  { p with dimensions }

/-! ### Derived fields -/

/-- Computes one derived field. -/
def derive (p : RebuildPlan) (values : Values) (d : DerivedField) :
    Except AggregationError Values :=
  let fault (e : FormulaError) : AggregationError := .formula d.name d.formula e
  match p.formulas.get? d.formula with
  | none => .error (fault (.custom "formula not registered"))
  | some formula =>
    match formula.evaluate (d.inputs.map fun i => values.getD i .null) with
    | .ok v => .ok (values.insert d.name v)
    | .error e => .error (fault e)

/-- Computes the derived fields of a group from its other values. -/
def finalize (p : RebuildPlan) (values : Values) : Except AggregationError Values :=
  p.derived.foldlM p.derive values

/-- Computes the derived fields of each row. -/
def finalizeRows (p : RebuildPlan) (rows : List AggregateRow) :
    Except AggregationError (List AggregateRow) :=
  rows.mapM fun row => do
    let values ← p.finalize row.values
    return { row with values }

/-! ### Rows from lines -/

/-- The rows of a list of lines, for the dimensions of the plan. -/
def aggregate (p : RebuildPlan) (facts : List FactRecord)
    (keys : Option (KeySet GroupKey) := none) : Except AggregationError (List AggregateRow) := do
  let rows ← Kernel.aggregate p.dimensions p.fields facts keys
  p.finalizeRows rows

/-- The rows of the rollup for a list of lines. -/
def execute (p : RebuildPlan) (facts : List FactRecord)
    (keys : Option (KeySet GroupKey) := none) : Except AggregationError (List RollupRow) := do
  let rows ← p.aggregate facts keys
  return rows.map fun row => { schema := p.name, key := row.key, values := row.values }

/-! ### Rows from finer rows -/

/-- The aggregated fields that the fields of a projection depend on; all if it is empty.  Since each
derived field comes after those that it refers to, one pass from the last one to the first
suffices. -/
def requiredFields (p : RebuildPlan) (projection : List String) : KeySet String :=
  if projection.isEmpty then KeySet.ofList (p.fields.map (·.name))
  else
    p.derived.foldr
      (fun d needed =>
        if needed.contains d.name then d.inputs.foldl KeySet.add (needed.erase d.name) else needed)
      (KeySet.ofList projection)

/-- Rows of the rollup grouped again by `dimensions`, with the derived fields computed afresh. -/
def regroup (p : RebuildPlan) (rows : List RollupRow) (dimensions : List Dimension)
    (projection : List String) : Except AggregationError (List AggregateRow) := do
  let merged ← Regroup.regroup p.fields p.groupBy dimensions
    (rows.map fun r => (r.key, r.values)) (p.requiredFields projection)
  p.finalizeRows merged

/-! ### Projections -/

/-- The values that a projection shows; all if it is empty. -/
def project (values : Values) (projection : List String) : Values :=
  if projection.isEmpty then values else values.filter fun name _ => projection.contains name

/-- The rows with the values that a projection shows. -/
def projectRows (rows : List AggregateRow) (projection : List String) : List AggregateRow :=
  rows.map fun row => { row with values := project row.values projection }

end RetailReport.RebuildPlan
