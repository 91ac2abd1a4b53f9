import RetailReport.Rollup.Kernel

/-!
# Regrouping

Rows that are grouped by some dimensions can be grouped again by fewer of them, or by the same ones
in another order.  With the same dimensions every field is carried over; with fewer, only fields
whose values can be merged are, and it is an error to ask for another one.

## Main definitions

* `Regroup.mergeValue`: the value of two groups together.
* `Regroup.regroup`: the rows of the new groups, in ascending order of their keys.
-/

namespace RetailReport.Regroup

/-- The position of each dimension of `target` in `source`. -/
def positions (source target : List Dimension) : Except AggregationError (List Nat) :=
  target.mapM fun d =>
    match source.idxOf? d with
    | some i => .ok i
    | none => .error (.unsupportedDimension d)

/-- Whether two lists have the same dimensions. -/
def sameDimensions (source target : List Dimension) : Bool :=
  source.all target.contains && target.all source.contains

/-- The fields that are carried over, if none that is required has to be left behind. -/
def carried (fields : List FieldSpec) (identity : Bool) (required : KeySet String) :
    Except AggregationError (List FieldSpec) :=
  if identity then .ok fields
  else
    match fields.find? fun f => !f.agg.isMergeable && required.contains f.name with
    | some f => .error (.notMergeable f.name f.agg)
    | none => .ok (fields.filter fun f => f.agg.isMergeable)

/-- One of two values that may be missing, or what `both` makes of them. -/
def mergeAmounts (both : Amount → Amount → Except AggregationError Amount) (a b : Metric) :
    Except AggregationError Metric :=
  match a.amount?, b.amount? with
  | some x, some y => (both x y).map .amount
  | some x, none => .ok (.amount x)
  | none, some y => .ok (.amount y)
  | none, none => .ok .null

/-- The value of a field for two groups together. -/
def mergeValue (field : FieldSpec) (current next : Metric) : Except AggregationError Metric :=
  match field.agg with
  | .sum =>
    mergeAmounts (fun x y =>
      match x.add? y with
      | some total => .ok total
      | none => .error (.overflow field.name)) current next
  | .count | .countDistinct =>
    let total := current.count?.getD 0 + next.count?.getD 0
    if total ≤ maxCount then .ok (.count total) else .error (.overflow field.name)
  | .max => mergeAmounts (fun x y => .ok (x.max y)) current next
  | .min => mergeAmounts (fun x y => .ok (x.min y)) current next
  | .first => .ok current

/-- The value of a field of a row, which may lack it. -/
def valueOf (values : Values) (field : FieldSpec) : Metric := values.getD field.name .null

/-- The carried values of the first row of a group. -/
def initial (fields : List FieldSpec) (values : Values) : Values :=
  SortedMap.ofList (fields.map fun f => (f.name, valueOf values f))

/-- The values of a group with those of one more row, field by field. -/
def mergeRow (fields : List FieldSpec) (group values : Values) : Except AggregationError Values :=
  fields.foldlM (fun acc f => do
    let merged ← mergeValue f (valueOf acc f) (valueOf values f)
    return acc.insert f.name merged) group

/-- Takes one more row in. -/
def addRow (fields : List FieldSpec) (at_ : List Nat) (groups : SortedMap GroupKey Values)
    (row : GroupKey × Values) : Except AggregationError (SortedMap GroupKey Values) :=
  let key := GroupKey.project row.1 at_
  match groups.get? key with
  | some group => (mergeRow fields group row.2).map (groups.insert key)
  | none => .ok (groups.insert key (initial fields row.2))

/-- **Rows grouped again by other dimensions**, in ascending order of their keys. -/
def regroup (fields : List FieldSpec) (source target : List Dimension)
    (rows : List (GroupKey × Values)) (required : KeySet String) :
    Except AggregationError (List AggregateRow) := do
  let at_ ← positions source target
  let kept ← carried fields (sameDimensions source target) required
  let groups ← rows.foldlM (addRow kept at_) .empty
  return groups.toList.map fun (key, values) => { key, values }

end RetailReport.Regroup
