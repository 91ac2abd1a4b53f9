import RetailReport.Query.Request

/-!
# Comparing results

Two results for the same request are compared group by group and field by field, up to a tolerance of
ratios.  A field that only the first result has is compared with the missing value.

## Main definitions

* `Difference`: where two results differ.
* `AggregateResult.difference?`: the first difference.
-/

namespace RetailReport

/-- Where two results differ. -/
inductive Difference where
  /-- They have different numbers of groups. -/
  | groupCounts (left : Engine) (leftCount : Nat) (right : Engine) (rightCount : Nat)
  /-- A group is missing. -/
  | missingGroup (key : GroupKey) (engine : Engine)
  /-- A field has different values. -/
  | values (key : GroupKey) (field : String) (left : Engine) (leftValue : Metric) (right : Engine)
      (rightValue : Metric)
  /-- Only the second result has a field. -/
  | extraField (key : GroupKey) (field : String) (engine : Engine)
  /-- Something else. -/
  | stated (text : String)
deriving DecidableEq, Repr

/-- The wording of a difference. -/
def Difference.message : Difference → String
  | .groupCounts left n right m =>
    left.name ++ " has " ++ String.ofList (Digits.decimal n) ++ " groups, " ++ right.name ++
      " has " ++ String.ofList (Digits.decimal m) ++ " groups"
  | .missingGroup key engine => "group " ++ key.render ++ " missing from " ++ engine.name
  | .values key field left v right w =>
    "group " ++ key.render ++ " field " ++ field ++ ": " ++ left.name ++ " = " ++ v.render ++ ", " ++
      right.name ++ " = " ++ w.render
  | .extraField key field engine =>
    "group " ++ key.render ++ " field " ++ field ++ " only in " ++ engine.name
  | .stated text => text

namespace AggregateResult

/-- The values of each group; the last of repeated groups counts. -/
def byKey (r : AggregateResult) : SortedMap GroupKey Values :=
  SortedMap.ofList (r.rows.map fun row => (row.key, row.values))

/-- The first difference between two groups of one key. -/
def groupDifference? (key : GroupKey) (left right : Engine) (tolerance : Float) (v w : Values) :
    Option Difference :=
  match v.toList.find? fun (field, x) => !x.approxEq tolerance (w.getD field .null) with
  | some (field, x) => some (.values key field left x right (w.getD field .null))
  | none =>
    (w.keys.find? fun field => !v.contains field).map fun field => .extraField key field right

/-- **The first difference between two results.** -/
def difference? (left right : AggregateResult) (tolerance : Float) : Option Difference :=
  let v := left.byKey
  let w := right.byKey
  if v.size ≠ w.size then some (.groupCounts left.engine v.size right.engine w.size)
  else
    v.toList.findSome? fun (key, values) =>
      match w.get? key with
      | none => some (.missingGroup key right.engine)
      | some others => groupDifference? key left.engine right.engine tolerance values others

end AggregateResult

end RetailReport
