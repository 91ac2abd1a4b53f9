import RetailReport.Digest.Crc32
import RetailReport.Fact.Wire

/-!
# Lines as tables

A partition is kept as a table with one row for each line: five columns that every line has, and one
column for each amount that occurs, those of lines before those of orders and each in ascending order
of the names.  Moments are kept as nanoseconds since 1970-01-01 in a signed 64-bit word.

Tables are read by position: the names of the columns come from whoever reads.

Lines are told apart as a whole by their content hash, which covers their canonical texts.

## Main definitions

* `canonicalSort`, `contentHash`: lines in ascending order of their ids, and their hash.
* `AmountColumn`, `columnsOf`, `FactTable`.
* `FactTable.encode`, `FactTable.decode`: from lines to tables and back.
-/

namespace RetailReport

open Digits

/-! ### The content hash -/

/-- Lines in ascending order of their ids; lines with one id keep their order. -/
def canonicalSort (facts : List FactRecord) : List FactRecord :=
  facts.mergeSort fun a b => !decide (b.recordId < a.recordId)

/-- The bytes that the content hash covers: the text of each line, and a line end behind each. -/
def hashedBytes (facts : List FactRecord) : List UInt8 :=
  facts.flatMap fun f => f.text.toUTF8.toList ++ [0x0A]

/-- The hash of lines in their order: a check value and their number. -/
def contentHash (facts : List FactRecord) : String :=
  Crc32.render (Crc32.ofBytes (hashedBytes facts)) ++ "-" ++ String.ofList (decimal facts.length)

/-! ### Columns -/

/-- A column of amounts. -/
structure AmountColumn where
  /-- Whose amounts they are. -/
  level : FieldLevel
  /-- Their name. -/
  name : String
deriving DecidableEq, Repr

/-- The name of a column. -/
def AmountColumn.title (c : AmountColumn) : String :=
  match c.level with
  | .item => "item:" ++ c.name
  | .order => "order:" ++ c.name

/-- The columns of amounts that occur on lines. -/
def columnsOf (facts : List FactRecord) : List AmountColumn :=
  let catalog := Catalog.ofRecords facts
  catalog.itemFields.members.map (AmountColumn.mk .item) ++
    catalog.orderFields.members.map (AmountColumn.mk .order)

/-- The columns that every table begins with. -/
def baseTitles : List String := ["record_id", "order_id", "store_id", "channel", "timestamp"]

/-- The amount of a line in a column, if there is one. -/
def FactRecord.amountIn? (f : FactRecord) (c : AmountColumn) : Option Amount :=
  match c.level with
  | .item => f.itemField? c.name
  | .order => f.orderField? c.name

/-- Sets the amount of a line in a column. -/
def FactRecord.setAmount (f : FactRecord) (c : AmountColumn) (a : Amount) : FactRecord :=
  match c.level with
  | .item => { f with itemFields := f.itemFields.insert c.name a }
  | .order => { f with orderFields := f.orderFields.insert c.name a }

/-! ### Tables -/

/-- A row of a table. -/
structure TableRow where
  /-- The id of the line. -/
  recordId : String
  /-- The order. -/
  orderId : String
  /-- The store. -/
  storeId : String
  /-- The channel. -/
  channel : String
  /-- Nanoseconds since 1970-01-01. -/
  nanos : Int
  /-- The amounts, column by column. -/
  amounts : List (Option Amount)
deriving DecidableEq, Repr

/-- A table of lines. -/
structure FactTable where
  /-- The columns of amounts that it was written with. -/
  columns : List AmountColumn
  /-- The rows. -/
  rows : List TableRow
deriving DecidableEq, Repr

/-- Why lines and tables cannot be turned into each other. -/
inductive TableError where
  /-- A moment does not fit a 64-bit count of nanoseconds. -/
  | momentOutOfRange (moment : Timestamp) (recordId : String)
  /-- A table has another number of columns than it is read with. -/
  | columnCount (expected found : Nat)
  /-- There is no table. -/
  | unreadable
deriving DecidableEq, Repr

/-- The wording of an error. -/
def TableError.message : TableError → String
  | .momentOutOfRange t id => "Timestamp " ++ t.renderSpaced ++ " of " ++ id ++ " out of range"
  | .columnCount expected found =>
    "Column count mismatch: schema " ++ String.ofList (decimal expected) ++ ", chunk " ++
      String.ofList (decimal found)
  | .unreadable => "not a table"

namespace FactTable

/-- Whether a count of nanoseconds fits a signed 64-bit word. -/
def fitsWord (n : Int) : Bool := -9223372036854775808 ≤ n && n ≤ 9223372036854775807

/-- A line as a row. -/
def encodeRow (columns : List AmountColumn) (f : FactRecord) : Except TableError TableRow :=
  let nanos := f.timestamp.nanos
  if fitsWord nanos then
    .ok {
      recordId := f.recordId
      orderId := f.orderId
      storeId := f.storeId
      channel := f.channel
      nanos
      amounts := columns.map f.amountIn? }
  else .error (.momentOutOfRange f.timestamp f.recordId)

/-- Lines as a table with given columns. -/
def encode (columns : List AmountColumn) (facts : List FactRecord) : Except TableError FactTable := do
  let rows ← facts.mapM (encodeRow columns)
  return { columns, rows }

/-- A row as a line. -/
def decodeRow (columns : List AmountColumn) (r : TableRow) : Except TableError FactRecord :=
  match Timestamp.ofNanos? r.nanos with
  | none => .error .unreadable
  | some timestamp =>
    let line : FactRecord :=
      { recordId := r.recordId, orderId := r.orderId, storeId := r.storeId, timestamp,
        channel := r.channel }
    .ok ((columns.zip r.amounts).foldl
      (fun f (c, a) => match a with
        | some a => f.setAmount c a
        | none => f) line)

/-- A table as lines, its columns named by the reader. -/
def decode (columns : List AmountColumn) (t : FactTable) : Except TableError (List FactRecord) :=
  if columns.length = t.columns.length then t.rows.mapM (decodeRow columns)
  else
    .error (.columnCount (baseTitles.length + columns.length)
      (baseTitles.length + t.columns.length))

/-- A table as lines. -/
def lines (t : FactTable) : Except TableError (List FactRecord) := t.decode t.columns

/-- The table of lines with the columns that occur on them. -/
def ofLines (facts : List FactRecord) : Except TableError FactTable := encode (columnsOf facts) facts

/-- The number of cells of a table, its titles included. -/
def cellCount (t : FactTable) : Nat :=
  (baseTitles.length + t.columns.length) * (t.rows.length + 1)

end FactTable

end RetailReport
