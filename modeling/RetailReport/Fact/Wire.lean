import RetailReport.Calendar.Reader
import RetailReport.Fact.Record
import RetailReport.Json.Decode
import RetailReport.Json.Encode
import RetailReport.Json.Writer

/-!
# Order lines as JSON

The JSON form of a line has all seven fields in a fixed order, amounts in their written form and the
fields of each map in ascending order of their names, so that equal lines have equal texts.  When a
line is read, the two maps may be missing.

## Main definitions

* `FactRecord.toJson`, `FactRecord.text`: the JSON form and its text.
* `FactRecord.decode`, `Catalog.decode`, `Date.decode`, `Timestamp.decode`: the decoders.
-/

namespace RetailReport

open Json (Encode encode Shape need)

instance : Encode Date := ⟨fun d => .string d.render⟩

/-- Reads a date. -/
def Date.decode : Json.Decoder Date
  | .string s =>
    match Date.parse? s with
    | some d => .ok d
    | none => .error .form
  | _ => .error .form

/-- Reads a moment. -/
def Timestamp.decode : Json.Decoder Timestamp
  | .string s =>
    match Timestamp.parse? s with
    | some t => .ok t
    | none => .error .form
  | _ => .error .form

/-- Amounts by name as JSON. -/
def amountsToJson (m : SortedMap String Amount) : Json :=
  .object (m.toList.map fun e => (e.1, .string e.2.render))

namespace FactRecord

/-- A line as JSON. -/
def toJson (f : FactRecord) : Json :=
  .object
    [("record_id", .string f.recordId), ("order_id", .string f.orderId),
     ("store_id", .string f.storeId), ("timestamp", .string f.timestamp.render),
     ("channel", .string f.channel), ("item_fields", amountsToJson f.itemFields),
     ("order_fields", amountsToJson f.orderFields)]

instance : Encode FactRecord := ⟨toJson⟩

/-- The canonical text of a line. -/
def text (f : FactRecord) : String := f.toJson.render

/-- The fields of a line that have been read so far. -/
structure Draft where
  recordId : Option String := none
  orderId : Option String := none
  storeId : Option String := none
  timestamp : Option Timestamp := none
  channel : Option String := none
  itemFields : SortedMap String Amount := .empty
  orderFields : SortedMap String Amount := .empty

/-- The fields of a line as JSON. -/
def shape : Shape Draft :=
  [Shape.field "record_id" Json.text fun v d => { d with recordId := some v },
   Shape.field "order_id" Json.text fun v d => { d with orderId := some v },
   Shape.field "store_id" Json.text fun v d => { d with storeId := some v },
   Shape.field "timestamp" Timestamp.decode fun v d => { d with timestamp := some v },
   Shape.field "channel" Json.text fun v d => { d with channel := some v },
   Shape.field "item_fields" (Json.table Json.amount) fun v d => { d with itemFields := v },
   Shape.field "order_fields" (Json.table Json.amount) fun v d => { d with orderFields := v }]

/-- Reads a line. -/
def decode : Json.Decoder FactRecord := fun j => do
  let d ← shape.read {} j
  return {
    recordId := ← need d.recordId
    orderId := ← need d.orderId
    storeId := ← need d.storeId
    timestamp := ← need d.timestamp
    channel := ← need d.channel
    itemFields := d.itemFields
    orderFields := d.orderFields }

end FactRecord

namespace Catalog

/-- The fields of a catalog as JSON; either may be missing. -/
def shape : Shape Catalog :=
  [Shape.field "item_fields" Json.textSet fun v c => { c with itemFields := v },
   Shape.field "order_fields" Json.textSet fun v c => { c with orderFields := v }]

/-- Reads a catalog. -/
def decodeIn (dialect : Json.Dialect) : Json.Decoder Catalog := fun j => shape.readIn dialect {} j

/-- Reads a catalog in JSON. -/
def decode : Json.Decoder Catalog := decodeIn .json

/-- A catalog as JSON. -/
def toJson (c : Catalog) : Json :=
  .object [("item_fields", encode c.itemFields), ("order_fields", encode c.orderFields)]

instance : Encode Catalog := ⟨toJson⟩

end Catalog

end RetailReport
