import RetailReport.Rollup.Formula
import RetailReport.Rollup.Schema

/-!
# Compiling rollup schemas

A schema is compiled into a `RebuildPlan` if it makes sense: it groups by something and by nothing
twice, its names are distinct, its fields refer to amounts that lines carry and treat the amounts of
orders as such, and its derived fields refer to formulas and fields that exist and not, directly or
indirectly, to themselves.  A plan lists the derived fields so that each one comes after those that
it refers to.

## Main definitions

* `SchemaError`: why a schema is refused.
* `Compile.evaluationOrder`: the derived fields in an order in which they can be computed.
* `RebuildPlan`, `Compile.compile`.
-/

namespace RetailReport

/-- Why a schema is refused.  Each cause but one begins with the name of the schema. -/
inductive SchemaError where
  /-- It groups by nothing. -/
  | emptyGroupBy (schema : String)
  /-- It groups by a dimension twice. -/
  | duplicateDimension (schema : String) (dimension : Dimension)
  /-- Two of its fields have the same name. -/
  | duplicateName (schema name : String)
  /-- Two schemas have the same name. -/
  | duplicateSchema (schema : String)
  /-- A field refers to an amount that no line carries. -/
  | unknownSource (schema field source : String)
  /-- A field of lines refers to something of orders, or the other way round. -/
  | orderLevelMismatch (schema field reason : String)
  /-- A field does something else than counting with ids. -/
  | typeMismatch (schema field : String) (agg : AggFunc)
  /-- A derived field refers to a formula that does not exist. -/
  | unknownFormula (schema field formula : String)
  /-- A derived field has the wrong number of inputs for its formula. -/
  | arityMismatch (schema field : String) (expected got : Nat)
  /-- A derived field refers to a field that does not exist. -/
  | undefinedReference (schema field reference : String)
  /-- Derived fields refer to themselves, or to fields that do. -/
  | cyclicDependency (schema : String) (fields : List String)
deriving DecidableEq, Repr

namespace SchemaError

open Digits in
/-- The wording of an error. -/
def message : SchemaError → String
  | .emptyGroupBy s => "Schema " ++ s ++ ": group_by must not be empty"
  | .duplicateDimension s d => "Schema " ++ s ++ ": dimension " ++ d.word ++ " listed twice"
  | .duplicateName s n => "Schema " ++ s ++ ": duplicate field name " ++ n
  | .duplicateSchema s => "Schema " ++ s ++ " registered twice"
  | .unknownSource s f source =>
    "Schema " ++ s ++ ": field " ++ f ++ " references unknown fact field " ++ source
  | .orderLevelMismatch s f reason => "Schema " ++ s ++ ": field " ++ f ++ " " ++ reason
  | .typeMismatch s f agg =>
    "Schema " ++ s ++ ": field " ++ f ++ " cannot apply " ++ agg.word ++ " to a textual source"
  | .unknownFormula s f formula =>
    "Schema " ++ s ++ ": derived field " ++ f ++ " uses unknown formula " ++ formula
  | .arityMismatch s f expected got =>
    "Schema " ++ s ++ ": derived field " ++ f ++ " expects " ++ String.ofList (decimal expected) ++
      " inputs, got " ++ String.ofList (decimal got)
  | .undefinedReference s f reference =>
    "Schema " ++ s ++ ": derived field " ++ f ++ " references undefined name " ++ reference
  | .cyclicDependency s fields =>
    "Schema " ++ s ++ ": cyclic dependency among derived fields " ++ Text.quotedList fields

/-- The name of an error, whatever its wording. -/
def code : SchemaError → String
  | .emptyGroupBy _ => "EmptyGroupBy"
  | .duplicateDimension _ _ => "DuplicateDimension"
  | .duplicateName _ _ => "DuplicateName"
  | .duplicateSchema _ => "DuplicateSchema"
  | .unknownSource _ _ _ => "UnknownSource"
  | .orderLevelMismatch _ _ _ => "OrderLevelMismatch"
  | .typeMismatch _ _ _ => "TypeMismatch"
  | .unknownFormula _ _ _ => "UnknownFormula"
  | .arityMismatch _ _ _ _ => "ArityMismatch"
  | .undefinedReference _ _ _ => "UndefinedReference"
  | .cyclicDependency _ _ => "CyclicDependency"

end SchemaError

/-- A schema that makes sense, with the formulas that it refers to. -/
structure RebuildPlan where
  /-- The schema. -/
  schema : RollupSchema
  /-- What lines are grouped by: the dimensions of the schema, unless others are asked for. -/
  dimensions : List Dimension
  /-- The derived fields, each one after those that it refers to. -/
  derived : List DerivedField
  /-- The formulas by name. -/
  formulas : FormulaTable
deriving Inhabited

namespace Compile

/-! ### The order of derived fields -/

/-- A derived field that may have to wait for others. -/
structure WaitingField where
  /-- The field. -/
  field : DerivedField
  /-- How many derived fields among its inputs have not been placed yet, repeated ones counted once. -/
  missing : Nat
deriving DecidableEq, Repr

namespace WaitingField

/-- A field of which no input has been placed yet. -/
def ofField (fields : List DerivedField) (d : DerivedField) : WaitingField where
  field := d
  missing := fields.countP fun e => d.inputs.contains e.name

/-- Counts an input less if it is the field that has just been placed. -/
def countDown (placed : DerivedField) (w : WaitingField) : WaitingField :=
  if w.field.inputs.contains placed.name then { w with missing := w.missing - 1 } else w

end WaitingField

/-- Places the fields of a queue, and behind it each field whose last missing input has been placed.
`placed` are the fields placed before, and `waiting` all fields with their counts. -/
def placeAll : (fuel : Nat) → (queue : List DerivedField) → (waiting : List WaitingField) →
    (placed : List DerivedField) → List DerivedField
  | 0, _, _, placed => placed
  | _ + 1, [], _, placed => placed
  | fuel + 1, d :: queue, waiting, placed =>
    let waiting := waiting.map (WaitingField.countDown d)
    let freed := waiting.filter fun w => w.field.inputs.contains d.name && w.missing == 0
    placeAll fuel (queue ++ freed.map (·.field)) waiting (placed ++ [d])

/-- The derived fields that can be computed, each one after those that it refers to: first those
that refer to no other, in their order, then those that become computable by them, and so on. -/
def evaluationOrder (fields : List DerivedField) : List DerivedField :=
  let waiting := fields.map (WaitingField.ofField fields)
  placeAll fields.length ((waiting.filter fun w => w.missing == 0).map (·.field)) waiting []

/-- The derived fields in an order in which they can be computed, if there is one. -/
def sortDerived (schema : String) (fields : List DerivedField) :
    Except SchemaError (List DerivedField) :=
  let order := evaluationOrder fields
  if order.length = fields.length then .ok order
  else
    let placed := order.map (·.name)
    .error (.cyclicDependency schema
      ((fields.map (·.name)).filter fun name => !placed.contains name))

/-! ### The checks -/

/-- Checks that no dimension is listed twice; `seen` are those before. -/
def checkDimensions (schema : String) (seen : List Dimension) :
    List Dimension → Except SchemaError Unit
  | [] => .ok ()
  | d :: rest =>
    if seen.contains d then .error (.duplicateDimension schema d)
    else checkDimensions schema (d :: seen) rest

/-- Checks that the source of a field exists and fits the field. -/
def checkField (schema : String) (catalog : Catalog) (f : FieldSpec) : Except SchemaError Unit :=
  if f.source.isTextual && !(f.agg == .count || f.agg == .countDistinct) then
    .error (.typeMismatch schema f.name f.agg)
  else
    match f.source with
    | .field source =>
      match catalog.level? source, f.isOrderLevel with
      | none, _ => .error (.unknownSource schema f.name source)
      | some .item, true =>
        .error (.orderLevelMismatch schema f.name
          "is order-level but references an item-level fact field")
      | some .order, false =>
        .error (.orderLevelMismatch schema f.name
          "references an order-level fact field and must be declared order-level")
      | some .item, false | some .order, true => .ok ()
    | .recordId =>
      if f.isOrderLevel then
        .error (.orderLevelMismatch schema f.name "is order-level but counts line record ids")
      else .ok ()
    | .constant _ | .orderId => .ok ()

/-- Checks that the formula of a derived field exists and takes as many inputs as the field has. -/
def checkFormula (schema : String) (formulas : FormulaTable) (d : DerivedField) :
    Except SchemaError Unit :=
  match formulas.get? d.formula with
  | none => .error (.unknownFormula schema d.name d.formula)
  | some formula =>
    match formula.arity with
    | some expected =>
      if expected ≠ d.inputs.length then
        .error (.arityMismatch schema d.name expected d.inputs.length)
      else .ok ()
    | none => .ok ()

/-- Checks one thing after the other, and first of each that its name is a new one; `seen` are the
names before, and the result all names. -/
def checkNamed {α : Type} (schema : String) (name : α → String)
    (check : α → Except SchemaError Unit) (seen : List String) :
    List α → Except SchemaError (List String)
  | [] => .ok seen
  | a :: rest =>
    if seen.contains (name a) then .error (.duplicateName schema (name a))
    else do
      check a
      checkNamed schema name check (name a :: seen) rest

/-- Checks the fields one by one. -/
def checkFields (schema : String) (catalog : Catalog) (seen : List String)
    (fields : List FieldSpec) : Except SchemaError (List String) :=
  checkNamed schema (·.name) (checkField schema catalog) seen fields

/-- Checks the name and the formula of each derived field. -/
def checkDerived (schema : String) (formulas : FormulaTable) (seen : List String)
    (derived : List DerivedField) : Except SchemaError (List String) :=
  checkNamed schema (·.name) (checkFormula schema formulas) seen derived

/-- Checks that the inputs of the derived fields are among `names`. -/
def checkInputs (schema : String) (names : List String) : List DerivedField → Except SchemaError Unit
  | [] => .ok ()
  | d :: rest =>
    match d.inputs.find? fun i => !names.contains i with
    | some i => .error (.undefinedReference schema d.name i)
    | none => checkInputs schema names rest

/-- **The plan of a schema**, or the first reason why it makes no sense. -/
def compile (schema : RollupSchema) (catalog : Catalog) (formulas : FormulaTable) :
    Except SchemaError RebuildPlan := do
  if schema.groupBy.isEmpty then throw (.emptyGroupBy schema.name)
  checkDimensions schema.name [] schema.groupBy
  let names ← checkFields schema.name catalog [] schema.fields
  let names ← checkDerived schema.name formulas names schema.derivedFields
  checkInputs schema.name names schema.derivedFields
  let derived ← sortDerived schema.name schema.derivedFields
  return { schema, dimensions := schema.groupBy, derived, formulas }

end Compile

end RetailReport
