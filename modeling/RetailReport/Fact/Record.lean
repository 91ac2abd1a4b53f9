import RetailReport.Amount.Basic
import RetailReport.Calendar.Timestamp
import RetailReport.SortedMap

/-!
# Order lines

A `FactRecord` is one line of an order.  Its item fields belong to the line and add up over the
lines of an order; its order fields, such as a delivery fee, belong to the order as a whole and are
repeated on each of its lines.

## Main definitions

* `FactRecord`.
* `Catalog`: the names of the fields that lines carry, and whose they are.
-/

namespace RetailReport

/-- One line of an order. -/
structure FactRecord where
  /-- What tells the line apart from all others. -/
  recordId : String
  /-- The order that the line belongs to. -/
  orderId : String
  /-- The store that took the order. -/
  storeId : String
  /-- When the order was placed, in local time. -/
  timestamp : Timestamp
  /-- The way by which the order came. -/
  channel : String
  /-- Amounts of the line. -/
  itemFields : SortedMap String Amount := .empty
  /-- Amounts of the order, repeated on each of its lines. -/
  orderFields : SortedMap String Amount := .empty
deriving DecidableEq, Repr, Inhabited

namespace FactRecord

/-- The business day of the line. -/
def date (f : FactRecord) : Date := f.timestamp.date

/-- An amount of the line. -/
def itemField? (f : FactRecord) (name : String) : Option Amount := f.itemFields.get? name

/-- An amount of the order. -/
def orderField? (f : FactRecord) (name : String) : Option Amount := f.orderFields.get? name

end FactRecord

/-- Whose amount a field holds. -/
inductive FieldLevel where
  /-- That of a line. -/
  | item
  /-- That of an order. -/
  | order
deriving DecidableEq, Repr

/-- The names of the fields that lines carry. -/
structure Catalog where
  /-- Names of amounts of a line. -/
  itemFields : KeySet String := .empty
  /-- Names of amounts of an order. -/
  orderFields : KeySet String := .empty
deriving DecidableEq, Repr, Inhabited

namespace Catalog

/-- The catalog of the fields that occur on given lines. -/
def ofRecords (facts : List FactRecord) : Catalog :=
  facts.foldl
    (fun c f =>
      { itemFields := c.itemFields.union (f.itemFields.mapValues fun _ _ => ())
        orderFields := c.orderFields.union (f.orderFields.mapValues fun _ _ => ()) })
    {}

/-- Whose amount a name stands for; a name that occurs at both levels is one of orders. -/
def level? (c : Catalog) (name : String) : Option FieldLevel :=
  if c.orderFields.contains name then some .order
  else if c.itemFields.contains name then some .item
  else none

end Catalog

end RetailReport
