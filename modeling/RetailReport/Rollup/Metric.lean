import RetailReport.Amount.Text
import RetailReport.Binary64
import RetailReport.SortedMap

/-!
# Values and rows of a report

A `Metric` is the value of one field of one group.  Amounts and counts are exact; ratios are floats
and are only derived after aggregation.

## Main definitions

* `Metric`, `Metric.approxEq`: values and their comparison up to a tolerance of ratios.
* `GroupKey`, `AggregateRow`, `RollupRow`: groups and their values.
-/

namespace RetailReport

/-- The value of a field of a group. -/
inductive Metric where
  /-- An amount of money. -/
  | amount (value : Amount)
  /-- A number of things. -/
  | count (value : Nat)
  /-- A ratio. -/
  | ratio (value : Binary64)
  /-- No value. -/
  | null
deriving DecidableEq, Repr, Inhabited

/-- The greatest count that a group can have. -/
def maxCount : Nat := 18446744073709551615

/-- A whole number as a float. -/
def floatOfInt (i : Int) : Float :=
  if i < 0 then -(UInt64.ofNat i.natAbs).toFloat else (UInt64.ofNat i.natAbs).toFloat

/-- An amount as a float. -/
def Amount.toFloat (a : Amount) : Float := floatOfInt a.raw / 10000.0

/-- The amount nearest to a float, halves going away from zero, if it is in range. -/
def Amount.ofFloat? (x : Float) : Option Amount :=
  if !x.isFinite then none
  else
    let scaled := (x * 10000.0).round
    if scaled < -9223372036854775808.0 || 9223372036854775808.0 < scaled then none
    else some (Amount.clamp scaled.toInt64.toInt)

namespace Metric

/-- The value as a floating point number; none if there is no value. -/
def number? : Metric → Option Binary64
  | .amount a => some a.toFloat
  | .count n => some (UInt64.ofNat n).toFloat
  | .ratio x => some x
  | .null => none

/-- The value if it is an amount. -/
def amount? : Metric → Option Amount
  | .amount a => some a
  | _ => none

/-- The value if it is a count. -/
def count? : Metric → Option Nat
  | .count n => some n
  | _ => none

/-- Whether there is no value. -/
def isNull : Metric → Bool
  | .null => true
  | _ => false

/-- Whether two values agree: ratios up to a tolerance relative to the greater of them and one, all
other values exactly. -/
def approxEq (tolerance : Float) : Metric → Metric → Bool
  | .amount a, .amount b => a == b
  | .count a, .count b => a == b
  | .null, .null => true
  | .ratio a, .ratio b =>
    if a.isUndefined || b.isUndefined then a.isUndefined && b.isUndefined
    else
      let (a, b) := (a.toFloat, b.toFloat)
      let greater (x y : Float) : Float := if x < y then y else x
      let size := greater (greater a.abs b.abs) 1.0
      (a - b).abs ≤ tolerance * size
  | _, _ => false

/-- The value as messages show it. -/
def render : Metric → String
  | .amount a => a.render
  | .count n => String.ofList (Digits.decimal n)
  | .ratio x => Binary64.fixed 6 x
  | .null => "null"

end Metric

/-- The values of the dimensions of a group, in the order of the dimensions. -/
abbrev GroupKey := List String

namespace GroupKey

/-- The values at some positions. -/
def project (key : GroupKey) (positions : List Nat) : GroupKey :=
  positions.map fun i => key.getD i ""

/-- The key as messages show it. -/
def render (key : GroupKey) : String := "(" ++ String.intercalate ", " key ++ ")"

end GroupKey

/-- The values of a group by name. -/
abbrev Values := SortedMap String Metric

/-- A group of a report and its values. -/
structure AggregateRow where
  /-- The group. -/
  key : GroupKey
  /-- The values of its fields. -/
  values : Values
deriving DecidableEq, Repr, Inhabited

/-- A group of a rollup and its values. -/
structure RollupRow where
  /-- The name of the rollup. -/
  schema : String
  /-- The group. -/
  key : GroupKey
  /-- The values of its fields. -/
  values : Values
deriving DecidableEq, Repr, Inhabited

end RetailReport
