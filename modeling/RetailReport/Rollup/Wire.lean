import RetailReport.Json.Decode
import RetailReport.Json.Encode
import RetailReport.Json.Writer
import RetailReport.Rollup.Schema
import RetailReport.Rollup.Metric

/-!
# Schemas, values and rows as JSON

## Main definitions

* `RollupSchema.decodeIn`, `RollupSchema.toJson`: declarations.
* `Metric.decode`, `Metric.toJson`: values, as an object with a type and a value.
* `AggregateRow.decode`, `AggregateRow.toJson`: rows.
-/

namespace RetailReport

open Json (Encode Shape need)

/-! ### Declarations -/

/-- Reads a dimension. -/
def Dimension.decodeIn (dialect : Json.Dialect) : Json.Decoder Dimension :=
  Json.choiceIn dialect (Dimension.all.map fun d => (d.code, d))

/-- Reads a dimension in JSON. -/
def Dimension.decode : Json.Decoder Dimension := Dimension.decodeIn .json

/-- A dimension as JSON. -/
def Dimension.toJson (d : Dimension) : Json := .string d.code

instance : Encode Dimension := ⟨Dimension.toJson⟩

/-- Reads an aggregation. -/
def AggFunc.decodeIn (dialect : Json.Dialect) : Json.Decoder AggFunc :=
  Json.choiceIn dialect (AggFunc.all.map fun a => (a.code, a))

/-- Reads an aggregation in JSON. -/
def AggFunc.decode : Json.Decoder AggFunc := AggFunc.decodeIn .json

namespace SourceExpr

/-- Reads a source that is given by its name only. -/
def decodeName (dialect : Json.Dialect) : Json.Decoder SourceExpr :=
  Json.choiceIn dialect [("order_id", .orderId), ("record_id", .recordId)]

/-- Reads a source that is given by a name and a value. -/
def decodeNamed (dialect : Json.Dialect) (name : String) (j : Json) : Except Refusal SourceExpr :=
  if name = "field" then (Json.text j).map .field
  else if name = "constant" then (Json.amount j).map .constant
  else decodeName dialect (.object [(name, j)])

/-- Reads a source. -/
def decodeIn (dialect : Json.Dialect) : Json.Decoder SourceExpr
  | .object ((name, j) :: rest) => do
    let source ← decodeNamed dialect name j
    if rest.isEmpty then return source else throw .form
  | j => decodeName dialect j

/-- A source as JSON. -/
def toJson : SourceExpr → Json
  | .field name => .object [("field", .string name)]
  | .constant a => .object [("constant", .string a.render)]
  | .orderId => .string "order_id"
  | .recordId => .string "record_id"

end SourceExpr

namespace FieldSpec

/-- The parts of a field that have been read so far. -/
structure Draft where
  name : Option String := none
  source : Option SourceExpr := none
  agg : Option AggFunc := none
  isOrderLevel : Bool := false

/-- The parts of a field. -/
def shape (dialect : Json.Dialect) : Shape Draft :=
  [Shape.field "name" Json.text fun v d => { d with name := some v },
   Shape.field "source" (SourceExpr.decodeIn dialect) fun v d => { d with source := some v },
   Shape.field "agg" (AggFunc.decodeIn dialect) fun v d => { d with agg := some v },
   Shape.field "is_order_level" Json.flag fun v d => { d with isOrderLevel := v }]

/-- Reads a field. -/
def decodeIn (dialect : Json.Dialect) : Json.Decoder FieldSpec := fun j => do
  let d ← (shape dialect).readIn dialect {} j
  return {
    name := ← need d.name
    source := ← need d.source
    agg := ← need d.agg
    isOrderLevel := d.isOrderLevel }

/-- Reads a field in JSON. -/
def decode : Json.Decoder FieldSpec := decodeIn .json

/-- A field as JSON. -/
def toJson (f : FieldSpec) : Json :=
  .object
    [("name", .string f.name), ("source", f.source.toJson), ("agg", .string f.agg.code),
     ("is_order_level", .bool f.isOrderLevel)]

end FieldSpec

namespace DerivedField

/-- The parts of a derived field that have been read so far. -/
structure Draft where
  name : Option String := none
  formula : Option String := none
  inputs : List String := []

/-- The parts of a derived field. -/
def shape : Shape Draft :=
  [Shape.field "name" Json.text fun v d => { d with name := some v },
   Shape.field "formula" Json.text fun v d => { d with formula := some v },
   Shape.field "inputs" (Json.list Json.text) fun v d => { d with inputs := v }]

/-- Reads a derived field. -/
def decodeIn (dialect : Json.Dialect) : Json.Decoder DerivedField := fun j => do
  let d ← shape.readIn dialect {} j
  return { name := ← need d.name, formula := ← need d.formula, inputs := d.inputs }

/-- A derived field as JSON. -/
def toJson (d : DerivedField) : Json :=
  .object
    [("name", .string d.name), ("formula", .string d.formula),
     ("inputs", .array (d.inputs.map .string))]

end DerivedField

namespace RollupSchema

/-- The parts of a schema that have been read so far. -/
structure Draft where
  name : Option String := none
  version : Nat := 1
  groupBy : Option (List Dimension) := none
  fields : List FieldSpec := []
  derivedFields : List DerivedField := []

/-- The parts of a schema. -/
def shape (dialect : Json.Dialect) : Shape Draft :=
  [Shape.field "name" Json.text fun v d => { d with name := some v },
   Shape.field "version" Json.word32 fun v d => { d with version := v },
   Shape.field "group_by" (Json.list (Dimension.decodeIn dialect)) fun v d =>
     { d with groupBy := some v },
   Shape.field "fields" (Json.list (FieldSpec.decodeIn dialect)) fun v d => { d with fields := v },
   Shape.field "derived_fields" (Json.list (DerivedField.decodeIn dialect)) fun v d =>
     { d with derivedFields := v }]

/-- Reads a schema. -/
def decodeIn (dialect : Json.Dialect) : Json.Decoder RollupSchema := fun j => do
  let d ← (shape dialect).readIn dialect {} j
  return {
    name := ← need d.name
    version := d.version
    groupBy := ← need d.groupBy
    fields := d.fields
    derivedFields := d.derivedFields }

/-- Reads a schema in JSON. -/
def decode : Json.Decoder RollupSchema := decodeIn .json

/-- A schema as JSON. -/
def toJson (s : RollupSchema) : Json :=
  .object
    [("name", .string s.name), ("version", .int s.version),
     ("group_by", .array (s.groupBy.map Dimension.toJson)),
     ("fields", .array (s.fields.map FieldSpec.toJson)),
     ("derived_fields", .array (s.derivedFields.map DerivedField.toJson))]

instance : Encode RollupSchema := ⟨toJson⟩

end RollupSchema

/-! ### Values -/

namespace Metric

/-- The type of a value. -/
inductive Kind where
  | amount | count | ratio | null
deriving DecidableEq, Repr

/-- The types by name. -/
def Kind.all : List (String × Kind) :=
  [("amount", .amount), ("count", .count), ("ratio", .ratio), ("null", .null)]

/-- Reads the type of a value. -/
def decodeKind : Json.Decoder Kind := Json.choice Kind.all

/-- Reads a value of a known type. -/
def decodeOf : Kind → Json.Decoder Metric
  | .amount, j => (Json.amount j).map .amount
  | .count, j => (Json.word64 j).map .count
  | .ratio, j => (Json.number j).map fun x => .ratio x
  | .null, .null => .ok .null
  | .null, _ => .error .form

/-- What has been read of a value: its type, what it was given as before its type was known, and the
value itself. -/
structure Draft where
  kind : Option Kind := none
  content : Option Json := none
  value : Option Metric := none

/-- Reads the members of a value in any order; each of the two may occur once. -/
def readMembers (d : Draft) : List (String × Json) → Except Refusal Draft
  | [] => .ok d
  | (_, .unnamed _) :: _ => .error .form
  | (name, j) :: rest =>
    if name = "type" then
      if d.kind.isSome then .error .form
      else do
        let kind ← decodeKind j
        match d.content with
        | some content =>
          let value ← decodeOf kind content
          readMembers { d with kind := some kind, value := some value } rest
        | none => readMembers { d with kind := some kind } rest
    else if name = "value" then
      if d.content.isSome then .error .form
      else do
        match d.kind with
        | some kind =>
          let value ← decodeOf kind j
          readMembers { d with content := some j, value := some value } rest
        | none => if j.isSound then readMembers { d with content := some j } rest else throw .form
    else if j.isWhole then readMembers d rest
    else .error .form

/-- Reads a value from an object, or from a list of its type, which must be a string, and the value
itself; only the value of type `null` may be left out of an object. -/
def decode : Json.Decoder Metric
  | .object members => do
    let d ← readMembers {} members
    match d.kind, d.value with
    | some _, some value => return value
    | some .null, none => return .null
    | _, _ => throw .form
  | .array (.string kind :: j :: rest) => do
    let value ← match Kind.all.lookup kind with
      | some kind => decodeOf kind j
      | none => throw .form
    if rest.isEmpty then return value else throw .form
  | _ => .error .form

/-- A value as JSON. -/
def toJson : Metric → Json
  | .amount a => .object [("type", .string "amount"), ("value", .string a.render)]
  | .count n => .object [("type", .string "count"), ("value", .int n)]
  | .ratio x => .object [("type", .string "ratio"), ("value", .float x)]
  | .null => .object [("type", .string "null")]

instance : Encode Metric := ⟨toJson⟩

end Metric

/-! ### Rows -/

namespace AggregateRow

/-- The parts of a row that have been read so far. -/
structure Draft where
  key : Option GroupKey := none
  values : Option Values := none

/-- The parts of a row. -/
def shape : Shape Draft :=
  [Shape.field "key" (Json.list Json.text) fun v d => { d with key := some v },
   Shape.field "values" (Json.table Metric.decode) fun v d => { d with values := some v }]

/-- Reads a row. -/
def decode : Json.Decoder AggregateRow := fun j => do
  let d ← shape.read {} j
  return { key := ← need d.key, values := ← need d.values }

/-- A row as JSON. -/
def toJson (r : AggregateRow) : Json :=
  .object
    [("key", .array (r.key.map .string)),
     ("values", .object (r.values.toList.map fun (name, v) => (name, v.toJson)))]

instance : Encode AggregateRow := ⟨toJson⟩

end AggregateRow

/-- A row of a rollup as JSON. -/
def RollupRow.toJson (r : RollupRow) : Json :=
  .object
    [("schema", .string r.schema), ("key", .array (r.key.map .string)),
     ("values", .object (r.values.toList.map fun (name, v) => (name, v.toJson)))]

instance : Encode RollupRow := ⟨RollupRow.toJson⟩

end RetailReport
