import RetailReport.Fact.Record

/-!
# Rollup schemas

A `RollupSchema` declares a table of totals: the dimensions that lines are grouped by, the fields
that are aggregated over each group, and fields that are derived from those by a formula.

## Main definitions

* `Dimension`, `Dimension.extract`: what lines are grouped by.
* `AggFunc`, `AggFunc.isMergeable`: how the values of a group become one value.
* `SourceExpr`, `FieldSpec`, `DerivedField`, `RollupSchema`.
-/

namespace RetailReport

/-- What lines can be grouped by. -/
inductive Dimension where
  /-- The store. -/
  | storeId
  /-- The channel. -/
  | channel
  /-- The day, as `YYYY-MM-DD`. -/
  | date
  /-- The month, as `YYYY-MM`. -/
  | month
  /-- The hour of the day, as `00` to `23`. -/
  | hour
deriving DecidableEq, Repr, Inhabited

namespace Dimension

/-- The name of a dimension in messages about requests. -/
def name : Dimension → String
  | .storeId => "store_id"
  | .channel => "channel"
  | .date => "date"
  | .month => "month"
  | .hour => "hour"

/-- The word for a dimension in messages about schemas. -/
def word : Dimension → String
  | .storeId => "StoreId"
  | .channel => "Channel"
  | .date => "Date"
  | .month => "Month"
  | .hour => "Hour"

/-- The code of a dimension in declarations and requests. -/
def code : Dimension → String
  | .storeId => "STORE_ID"
  | .channel => "CHANNEL"
  | .date => "DATE"
  | .month => "MONTH"
  | .hour => "HOUR"

/-- All dimensions. -/
def all : List Dimension := [.storeId, .channel, .date, .month, .hour]

/-- The value of a dimension on a line. -/
def extract (d : Dimension) (f : FactRecord) : String :=
  match d with
  | .storeId => f.storeId
  | .channel => f.channel
  | .date => f.timestamp.date.render
  | .month => f.timestamp.date.renderMonth
  | .hour => f.timestamp.renderHour

end Dimension

/-- How the values of a group become one value. -/
inductive AggFunc where
  /-- Their sum. -/
  | sum
  /-- Their number. -/
  | count
  /-- The number of different ones. -/
  | countDistinct
  /-- The greatest. -/
  | max
  /-- The least. -/
  | min
  /-- The one of the first line of the first order. -/
  | first
deriving DecidableEq, Repr, Inhabited

namespace AggFunc

/-- Whether the values of several groups determine the value of the groups together. -/
def isMergeable : AggFunc → Bool
  | .sum | .count | .max | .min => true
  | .countDistinct | .first => false

/-- The word for a function in messages. -/
def word : AggFunc → String
  | .sum => "Sum"
  | .count => "Count"
  | .countDistinct => "CountDistinct"
  | .max => "Max"
  | .min => "Min"
  | .first => "First"

/-- The code of a function in declarations. -/
def code : AggFunc → String
  | .sum => "SUM"
  | .count => "COUNT"
  | .countDistinct => "COUNT_DISTINCT"
  | .max => "MAX"
  | .min => "MIN"
  | .first => "FIRST"

/-- All functions. -/
def all : List AggFunc := [.sum, .count, .countDistinct, .max, .min, .first]

end AggFunc

/-- Where the values of a field come from. -/
inductive SourceExpr where
  /-- An amount that lines carry under a name. -/
  | field (name : String)
  /-- The same amount for every line. -/
  | constant (amount : Amount)
  /-- The id of the order. -/
  | orderId
  /-- The id of the line. -/
  | recordId
deriving DecidableEq, Repr, Inhabited

/-- Whether the values are texts, which can only be counted. -/
def SourceExpr.isTextual : SourceExpr → Bool
  | .orderId | .recordId => true
  | .field _ | .constant _ => false

/-- A field of a rollup. -/
structure FieldSpec where
  /-- The name of the field. -/
  name : String
  /-- Where its values come from. -/
  source : SourceExpr
  /-- How they are aggregated. -/
  agg : AggFunc
  /-- Whether there is one value for each order, the greatest of its lines. -/
  isOrderLevel : Bool := false
deriving DecidableEq, Repr, Inhabited

/-- A field that a formula computes from other fields of the same group. -/
structure DerivedField where
  /-- The name of the field. -/
  name : String
  /-- The name of the formula. -/
  formula : String
  /-- The names of the fields that the formula is applied to. -/
  inputs : List String := []
deriving DecidableEq, Repr, Inhabited

/-- The declaration of a rollup. -/
structure RollupSchema where
  /-- The name of the rollup. -/
  name : String
  /-- The version of the declaration. -/
  version : Nat := 1
  /-- What lines are grouped by. -/
  groupBy : List Dimension
  /-- The aggregated fields. -/
  fields : List FieldSpec := []
  /-- The derived fields. -/
  derivedFields : List DerivedField := []
deriving DecidableEq, Repr, Inhabited

/-- Whether each group belongs to one store, so that the rollup can be rebuilt store by store. -/
def RollupSchema.isStoreScoped (s : RollupSchema) : Bool := s.groupBy.contains .storeId

end RetailReport
