import RetailReport.Fact.Record

/-!
# The fact store

The fact store holds the lines of all stores in the order in which they were appended.  A batch is
appended as a whole or not at all; it is refused if a line lacks an id, repeats the id of another
line, or disagrees with another line of its order about store, channel or moment.  Beside the lines
the store keeps their ids, the header that the lines of each order share, their number, and a version
that every change of the lines advances.

While the store is marked unavailable, appending and reading are refused; purging is not.

## Main definitions

* `FactStore`, `FactStoreError`, `OrderHeader`.
* `FactStore.append`, `FactStore.purge`, `FactStore.purgePartition`: the changes.
* `FactStore.scanKeys`, `FactStore.scanAll`, `FactStore.scanPartition`, …: what can be read.
-/

namespace RetailReport

/-- Why the fact store refuses. -/
inductive FactStoreError where
  /-- It is marked unavailable. -/
  | unavailable (reason : String)
  /-- A line has the id of another line. -/
  | duplicateRecord (recordId : String)
  /-- A line cannot be stored. -/
  | invalidRecord (recordId reason : String)
deriving DecidableEq, Repr

/-- The wording of an error. -/
def FactStoreError.message : FactStoreError → String
  | .unavailable reason => "Fact store unavailable: " ++ reason
  | .duplicateRecord id => "Duplicate record id: " ++ id
  | .invalidRecord id reason => "Invalid record " ++ id ++ ": " ++ reason

/-- The name of an error, whatever its wording. -/
def FactStoreError.code : FactStoreError → String
  | .unavailable _ => "Unavailable"
  | .duplicateRecord _ => "DuplicateRecord"
  | .invalidRecord _ _ => "InvalidRecord"

/-- What all lines of an order share. -/
structure OrderHeader where
  /-- The store that took the order. -/
  storeId : String
  /-- The way by which the order came. -/
  channel : String
  /-- When it was placed. -/
  timestamp : Timestamp
deriving DecidableEq, Repr

/-- The header that a line carries. -/
def FactRecord.header (f : FactRecord) : OrderHeader := ⟨f.storeId, f.channel, f.timestamp⟩

/-- The lines of all stores, and what is known about them. -/
structure FactStore where
  /-- The lines of each store that has any, in the order of appending. -/
  byStore : SortedMap String (List FactRecord) := .empty
  /-- The ids of the lines. -/
  recordIds : KeySet String := .empty
  /-- The header of each order. -/
  orders : SortedMap String OrderHeader := .empty
  /-- How many lines there are. -/
  recordCount : Nat := 0
  /-- Advanced by every change of the lines. -/
  version : Nat := 0
  /-- Whether the store can be read and appended to. -/
  available : Bool := true
deriving Repr, Inhabited

/-- All lines, with the version that they were read at. -/
structure FactSnapshot where
  /-- The version of the store. -/
  version : Nat
  /-- The lines, by store. -/
  records : List FactRecord
deriving DecidableEq, Repr

namespace FactStore

/-- Refuses if the store is marked unavailable. -/
def check (s : FactStore) : Except FactStoreError Unit :=
  if s.available then .ok () else .error (.unavailable "memory fact store marked unavailable")

/-- Marks the store available or unavailable. -/
def setAvailable (s : FactStore) (available : Bool) : FactStore := { s with available }

/-! ### Appending -/

/-- What the lines of a batch have brought in up to some line. -/
structure Batch where
  /-- The ids of the lines. -/
  ids : KeySet String := .empty
  /-- The headers of the orders that the store does not know. -/
  orders : SortedMap String OrderHeader := .empty

/-- Takes the next line of a batch in, or says why it cannot be stored. -/
def acceptLine (s : FactStore) (b : Batch) (f : FactRecord) : Except FactStoreError Batch :=
  if f.recordId.isEmpty || f.orderId.isEmpty then
    .error (.invalidRecord f.recordId "record_id and order_id are required")
  else if f.storeId.isEmpty then
    .error (.invalidRecord f.recordId "store_id is required")
  else if s.recordIds.contains f.recordId || b.ids.contains f.recordId then
    .error (.duplicateRecord f.recordId)
  else
    let ids := b.ids.add f.recordId
    match (s.orders.get? f.orderId).or (b.orders.get? f.orderId) with
    | some known =>
      if known = f.header then .ok { b with ids }
      else .error (.invalidRecord f.recordId
        ("order " ++ f.orderId ++ " lines disagree on store, channel or timestamp"))
    | none => .ok { ids, orders := b.orders.insert f.orderId f.header }

/-- Checks all lines of a batch, the first one first. -/
def acceptLines (s : FactStore) (facts : List FactRecord) : Except FactStoreError Batch :=
  facts.foldlM s.acceptLine {}

/-- Puts a line behind those of its store. -/
def addLine (m : SortedMap String (List FactRecord)) (f : FactRecord) :
    SortedMap String (List FactRecord) :=
  m.insert f.storeId (m.getD f.storeId [] ++ [f])

/-- Appends a batch as a whole, and gives the stores that it has lines of. -/
def append (s : FactStore) (facts : List FactRecord) :
    Except FactStoreError (FactStore × KeySet String) := do
  s.check
  let batch ← s.acceptLines facts
  return ({ s with
    byStore := facts.foldl addLine s.byStore
    recordIds := s.recordIds.union batch.ids
    orders := s.orders.union batch.orders
    recordCount := s.recordCount + facts.length
    version := s.version + 1 }, KeySet.ofList (facts.map (·.storeId)))

/-! ### Purging -/

/-- A set without the ids of some lines. -/
def withoutIds (ids : KeySet String) (facts : List FactRecord) : KeySet String :=
  facts.foldl (fun ids f => ids.erase f.recordId) ids

/-- Removes all lines of a store, and tells how many. -/
def purge (s : FactStore) (storeId : String) : FactStore × Nat :=
  let removed := s.byStore.getD storeId []
  ({ s with
    byStore := s.byStore.erase storeId
    recordIds := withoutIds s.recordIds removed
    orders := s.orders.filter fun _ h => h.storeId != storeId
    recordCount := s.recordCount - removed.length
    version := if removed.isEmpty then s.version else s.version + 1 }, removed.length)

/-- Removes the lines of a store on one day, and tells how many.  All lines of an order are of one
day, so its header goes with them. -/
def purgePartition (s : FactStore) (storeId : String) (date : Date) : FactStore × Nat :=
  match s.byStore.get? storeId with
  | none => (s, 0)
  | some facts =>
    let removed := facts.filter fun f => f.date = date
    let kept := facts.filter fun f => f.date ≠ date
    ({ s with
      byStore := if kept.isEmpty then s.byStore.erase storeId else s.byStore.insert storeId kept
      recordIds := withoutIds s.recordIds removed
      orders := s.orders.filter fun _ h => h.storeId != storeId || h.timestamp.date ≠ date
      recordCount := s.recordCount - removed.length
      version := if removed.isEmpty then s.version else s.version + 1 }, removed.length)

/-! ### Reading -/

/-- The lines of a store. -/
def linesOf (s : FactStore) (storeId : String) : List FactRecord := s.byStore.getD storeId []

/-- The lines of a store on one day. -/
def partitionOf (s : FactStore) (storeId : String) (date : Date) : List FactRecord :=
  (s.linesOf storeId).filter fun f => f.date = date

/-- All lines, by store. -/
def lines (s : FactStore) : List FactRecord := s.byStore.values.flatten

/-- How many lines there are. -/
def count (s : FactStore) : Except FactStoreError Nat := do
  s.check
  return s.recordCount

/-- The stores that have lines. -/
def partitionKeys (s : FactStore) : Except FactStoreError (List String) := do
  s.check
  return s.byStore.keys

/-- The lines of several stores, by store. -/
def scanKeys (s : FactStore) (keys : KeySet String) : Except FactStoreError (List FactRecord) := do
  s.check
  return keys.members.flatMap s.linesOf

/-- All lines, with the version that they are read at. -/
def scanAll (s : FactStore) : Except FactStoreError FactSnapshot := do
  s.check
  return ⟨s.version, s.lines⟩

/-- The days on which a store has lines, ascending. -/
def partitionDates (s : FactStore) (storeId : String) : Except FactStoreError (List Date) := do
  s.check
  return (KeySet.ofList ((s.linesOf storeId).map (·.date))).members

/-- The lines of a store on one day. -/
def scanPartition (s : FactStore) (storeId : String) (date : Date) :
    Except FactStoreError (List FactRecord) := do
  s.check
  return s.partitionOf storeId date

end FactStore

end RetailReport
