import RetailReport.Rollup.Formula
import RetailReport.Rollup.Schema

/-!
# Aggregation in two phases

The lines of a group are first gathered order by order and then over the orders of the group, in
ascending order of their ids.  So a field of orders counts once for each order, however many lines
repeat it: the value of an order is the greatest that one of its lines carries.

Sums are exact, and an overflow of any partial sum is an error.  Within an order lines are added in
the order in which they come; orders are added in the order of their ids.

## Main definitions

* `lineValue?`: the value of a field on a line.
* `OrderPartial`, `OrderPartial.accumulate`: one order, line by line.
* `GroupTotal`, `GroupTotal.absorb`, `GroupTotal.finish`: one group, order by order.
* `Kernel.aggregate`: the groups of a list of lines, in ascending order of their keys.
-/

namespace RetailReport

/-- Why lines or rows cannot be aggregated. -/
inductive AggregationError where
  /-- A sum of a field is out of range. -/
  | overflow (field : String)
  /-- The formula of a derived field has no value. -/
  | formula (field formula : String) (source : FormulaError)
  /-- A field is asked for whose values over several groups do not determine its value over all. -/
  | notMergeable (field : String) (agg : AggFunc)
  /-- A dimension is asked for that rows are not grouped by. -/
  | unsupportedDimension (dimension : Dimension)
deriving DecidableEq, Repr

/-- The wording of an error. -/
def AggregationError.message : AggregationError → String
  | .overflow field => "Arithmetic overflow while aggregating field " ++ field
  | .formula field name source =>
    "Formula " ++ name ++ " failed for derived field " ++ field ++ ": " ++ source.message
  | .notMergeable field agg =>
    "Field " ++ field ++ " (" ++ agg.word ++ ") cannot be merged across groups"
  | .unsupportedDimension d => "Dimension " ++ d.word ++ " is not part of the source grouping"

/-- The name of an error, whatever its wording. -/
def AggregationError.code : AggregationError → String
  | .overflow _ => "Overflow"
  | .formula _ _ _ => "Formula"
  | .notMergeable _ _ => "NotMergeable"
  | .unsupportedDimension d => "UnsupportedDimension." ++ d.word

/-! ### Values of lines -/

/-- The value of a field on a line. -/
inductive LineValue where
  /-- An amount. -/
  | amount (value : Amount)
  /-- An id. -/
  | text (value : String)
deriving DecidableEq, Repr

/-- The value if it is an amount. -/
def LineValue.amount? : LineValue → Option Amount
  | .amount a => some a
  | .text _ => none

/-- What tells the values of one field apart. -/
def LineValue.distinctKey : LineValue → String
  | .amount a => String.ofList (Digits.signed a.raw)
  | .text s => s

/-- The value of a field on a line, if the line has one. -/
def lineValue? (field : FieldSpec) (f : FactRecord) : Option LineValue :=
  match field.source with
  | .field name =>
    (if field.isOrderLevel then f.orderField? name else f.itemField? name).map .amount
  | .constant a => some (.amount a)
  | .orderId => some (.text f.orderId)
  | .recordId => some (.text f.recordId)

/-! ### One order -/

/-- What the lines of one order give for a field. -/
inductive OrderPartial where
  /-- A sum or an extreme value, if a line has a value. -/
  | amount (value : Option Amount)
  /-- A number of values. -/
  | count (value : Nat)
  /-- The different values. -/
  | distinct (values : KeySet String)
  /-- The id of the line with the least id, and its value if it has one. -/
  | first (line : Option (String × Option Amount))
deriving DecidableEq, Repr

namespace OrderPartial

/-- What no line gives for a field. -/
def empty (field : FieldSpec) : OrderPartial :=
  match field.agg with
  | .count => .count 0
  | .countDistinct => .distinct .empty
  | .first => if field.isOrderLevel then .amount none else .first none
  | .sum | .max | .min => .amount none

/-- One more amount beside those of an order: summed or compared as the field says, and compared for
the greatest if it is a field of orders. -/
def combine (field : FieldSpec) (current next : Amount) : Except AggregationError Amount :=
  if field.isOrderLevel then .ok (current.max next)
  else
    match field.agg with
    | .sum =>
      match current.add? next with
      | some total => .ok total
      | none => .error (.overflow field.name)
    | .min => .ok (current.min next)
    | _ => .ok (current.max next)

/-- Takes one more line of the order in. -/
def accumulate (field : FieldSpec) (p : OrderPartial) (f : FactRecord) :
    Except AggregationError OrderPartial :=
  let value := lineValue? field f
  match p with
  | .count n =>
    .ok (.count (if value.isNone then n else if field.isOrderLevel then 1 else n + 1))
  | .distinct set =>
    match value with
    | some v => .ok (.distinct (set.add v.distinctKey))
    | none => .ok (.distinct set)
  | .first line =>
    let replaces := match line with
      | some (id, _) => decide (f.recordId < id)
      | none => true
    .ok (.first (if replaces then some (f.recordId, value.bind LineValue.amount?) else line))
  | .amount current =>
    match value.bind LineValue.amount?, current with
    | none, _ => .ok (.amount current)
    | some a, none => .ok (.amount (some a))
    | some a, some c => (combine field c a).map fun total => .amount (some total)

/-- The amount that an order has for a field, if it has one. -/
def amount? : OrderPartial → Option Amount
  | .amount a => a
  | .first line => line.bind Prod.snd
  | .count _ | .distinct _ => none

end OrderPartial

/-! ### One group -/

/-- What the orders of one group give for a field. -/
inductive GroupTotal where
  /-- A sum. -/
  | sum (total : Amount)
  /-- A number of values. -/
  | count (total : Nat)
  /-- The different values. -/
  | distinct (values : KeySet String)
  /-- An extreme value, if an order has a value. -/
  | extreme (value : Option Amount)
  /-- The value of the first order, if there was an order and it has one. -/
  | first (order : Option (Option Amount))
deriving DecidableEq, Repr

namespace GroupTotal

/-- What no order gives for a field. -/
def empty (field : FieldSpec) : GroupTotal :=
  match field.agg with
  | .sum => .sum Amount.zero
  | .count => .count 0
  | .countDistinct => .distinct .empty
  | .max | .min => .extreme none
  | .first => .first none

/-- Takes one more order of the group in.  Orders come in ascending order of their ids. -/
def absorb (field : FieldSpec) (t : GroupTotal) (p : OrderPartial) :
    Except AggregationError GroupTotal :=
  match t with
  | .sum total =>
    match p.amount? with
    | none => .ok t
    | some a =>
      match total.add? a with
      | some total => .ok (.sum total)
      | none => .error (.overflow field.name)
  | .count total =>
    match p with
    | .count n =>
      if total + n ≤ maxCount then .ok (.count (total + n)) else .error (.overflow field.name)
    | _ => .ok t
  | .distinct set =>
    match p with
    | .distinct values => .ok (.distinct (set.union values))
    | _ => .ok t
  | .extreme current =>
    match p.amount?, current with
    | none, _ => .ok t
    | some a, none => .ok (.extreme (some a))
    | some a, some c =>
      .ok (.extreme (some (if field.agg = .min then c.min a else c.max a)))
  | .first order => .ok (.first (if order.isNone then some p.amount? else order))

/-- The value of the field for the group. -/
def finish : GroupTotal → Metric
  | .sum total => .amount total
  | .count total => .count total
  | .distinct values => .count values.size
  | .extreme (some a) => .amount a
  | .extreme none => .null
  | .first (some (some a)) => .amount a
  | .first _ => .null

end GroupTotal

/-! ### All groups -/

/-- The group of a line. -/
def groupKey (dimensions : List Dimension) (f : FactRecord) : GroupKey :=
  dimensions.map fun d => d.extract f

namespace Kernel

/-- The partial results of the fields of a rollup for one order. -/
abbrev OrderPartials := List OrderPartial

/-- The orders of each group. -/
abbrev Gathered := SortedMap GroupKey (SortedMap String OrderPartials)

/-- Takes one more line into the partial results of its order, field by field. -/
def accumulateAll (fields : List FieldSpec) (ps : OrderPartials) (f : FactRecord) :
    Except AggregationError OrderPartials :=
  match fields, ps with
  | field :: fields, p :: ps => do
    let p ← p.accumulate field f
    let ps ← accumulateAll fields ps f
    return p :: ps
  | _, _ => .ok []

/-- Takes one more line in, unless only other groups are asked for. -/
def gatherLine (dimensions : List Dimension) (fields : List FieldSpec)
    (keys : Option (KeySet GroupKey)) (g : Gathered) (f : FactRecord) :
    Except AggregationError Gathered :=
  let key := groupKey dimensions f
  if keys.any fun wanted => !wanted.contains key then .ok g
  else do
    let orders := g.getD key .empty
    let ps := orders.getD f.orderId (fields.map .empty)
    let ps ← accumulateAll fields ps f
    return g.insert key (orders.insert f.orderId ps)

/-- The first phase: all lines, order by order. -/
def gather (dimensions : List Dimension) (fields : List FieldSpec) (facts : List FactRecord)
    (keys : Option (KeySet GroupKey)) : Except AggregationError Gathered :=
  facts.foldlM (gatherLine dimensions fields keys) .empty

/-- Takes one more order into the totals of its group, field by field. -/
def absorbAll (fields : List FieldSpec) (ts : List GroupTotal) (ps : OrderPartials) :
    Except AggregationError (List GroupTotal) :=
  match fields, ts, ps with
  | field :: fields, t :: ts, p :: ps => do
    let t ← t.absorb field p
    let ts ← absorbAll fields ts ps
    return t :: ts
  | _, _, _ => .ok []

/-- The second phase for one group: its orders in ascending order of their ids. -/
def summarize (fields : List FieldSpec) (orders : SortedMap String OrderPartials) :
    Except AggregationError Values := do
  let totals ← orders.values.foldlM (absorbAll fields) (fields.map .empty)
  return SortedMap.ofList ((fields.zip totals).map fun (field, t) => (field.name, t.finish))

/-- **The groups of a list of lines and their values**, in ascending order of the keys; only the
groups of `keys`, if they are given. -/
def aggregate (dimensions : List Dimension) (fields : List FieldSpec) (facts : List FactRecord)
    (keys : Option (KeySet GroupKey)) : Except AggregationError (List AggregateRow) := do
  let gathered ← gather dimensions fields facts keys
  gathered.toList.mapM fun (key, orders) => do
    let values ← summarize fields orders
    return { key, values }

end Kernel

end RetailReport
