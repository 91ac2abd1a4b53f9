import RetailReport.Fact.Store
import RetailReport.Partition.Folder
import RetailReport.Rollup.Kernel
import RetailReport.Rollup.Wire

/-!
# The manifest of the partitions

The lines of a store on one day are a partition.  The manifest says for each stored partition in
which file it is, what its content hash and its number of lines are, and, if summaries are kept, the
rows of its summary.  It is a JSON text with the partitions in ascending order.

## Main definitions

* `PartitionId`, `PartitionEntry`, `PartitionError`.
* `Manifest`, `Manifest.text`, `Manifest.ofText?`.
-/

namespace RetailReport

-- Powers are those of the core library.
attribute [local instance (high)] instPowNat

open Json (Shape need)

/-! ### Partitions -/

/-- The lines of a store on one day. -/
structure PartitionId where
  /-- The store. -/
  storeId : String
  /-- The day. -/
  date : Date
deriving DecidableEq, Repr, Inhabited

namespace PartitionId

instance : LT PartitionId :=
  ⟨fun a b => a.storeId < b.storeId ∨ a.storeId = b.storeId ∧ a.date < b.date⟩

instance : KeyOrder PartitionId :=
  KeyOrder.byKeys (·.storeId) (·.date) (fun _ _ => Iff.rfl) fun {a b} h h' => by
    cases a; cases b; cases h; cases h'; rfl

/-- A partition as messages show it. -/
def render (id : PartitionId) : String := id.storeId ++ "@" ++ id.date.render

/-- Whether a line belongs to a partition. -/
def holds (id : PartitionId) (f : FactRecord) : Bool := f.storeId = id.storeId && f.date = id.date

/-- The parts of a partition that have been read so far. -/
structure Draft where
  storeId : Option String := none
  date : Option Date := none

/-- The parts of a partition. -/
def shape : Shape Draft :=
  [Shape.field "store_id" Json.text fun v d => { d with storeId := some v },
   Shape.field "date" Date.decode fun v d => { d with date := some v }]

/-- Reads a partition. -/
def decode : Json.Decoder PartitionId := fun j => do
  let d ← shape.read {} j
  return { storeId := ← need d.storeId, date := ← need d.date }

end PartitionId

/-- The partition that a line belongs to. -/
def FactRecord.partition (f : FactRecord) : PartitionId := ⟨f.storeId, f.date⟩

/-- Why partitions cannot be written or read. -/
inductive PartitionError where
  /-- A file cannot be used. -/
  | io (cause : FolderError)
  /-- Lines and tables cannot be turned into each other. -/
  | table (cause : TableError)
  /-- The manifest cannot be read. -/
  | manifest
  /-- The day of a partition is over, so it is no longer appended to. -/
  | closedPartition (id : PartitionId)
  /-- A line belongs to another partition. -/
  | invalidFacts (partition : PartitionId) (recordId : String)
  /-- The answer is no longer wanted. -/
  | cancelled
  /-- Partitions that are asked for lag behind the fact store. -/
  | incomplete (pending : Nat)
  /-- The fact store refuses. -/
  | factStore (cause : FactStoreError)
  /-- The lines cannot be aggregated. -/
  | aggregation (cause : AggregationError)
deriving DecidableEq, Repr

/-- The wording of an error. -/
def PartitionError.message : PartitionError → String
  | .io e => "IO error: " ++ e.message
  | .table e => "Parquet error: " ++ e.message
  | .manifest => "Manifest error: not a manifest"
  | .closedPartition id => "Partition " ++ id.render ++ " is closed; rewrite it with write_partition"
  | .invalidFacts p id => "Fact " ++ id ++ " does not belong to partition " ++ p.render
  | .cancelled => "Partition scan cancelled"
  | .incomplete n =>
    String.ofList (Digits.decimal n) ++ " partitions in range have not caught up with the fact store"
  | .factStore e => "Fact store error: " ++ e.message
  | .aggregation e => "Partition aggregation failed: " ++ e.message

/-- The name of an error, whatever its wording. -/
def PartitionError.code : PartitionError → String
  | .io _ => "Io"
  | .table _ => "Parquet"
  | .manifest => "Manifest"
  | .closedPartition _ => "ClosedPartition"
  | .invalidFacts _ _ => "InvalidFacts"
  | .cancelled => "Cancelled"
  | .incomplete _ => "Incomplete"
  | .factStore e => "FactStore." ++ e.code
  | .aggregation e => "Aggregation." ++ e.code

/-- Whether files or their formats are to blame, so that the cause is known to the system only. -/
def PartitionError.isExternal : PartitionError → Bool
  | .io _ | .table .unreadable | .manifest => true
  | _ => false

/-! ### Entries -/

/-- What the manifest says of a partition. -/
structure PartitionEntry where
  /-- The partition. -/
  id : PartitionId
  /-- The file that holds it. -/
  file : String
  /-- The content hash of its lines. -/
  contentHash : String
  /-- The number of its lines. -/
  rowCount : Nat
  /-- The size of the file. -/
  fileSize : Nat
  /-- When it was written, in seconds since 1970-01-01. -/
  writtenAt : Int
  /-- The rows of its summary, if there is one. -/
  summary : Option (List AggregateRow) := none
deriving DecidableEq, Repr

namespace PartitionEntry

/-- The parts of an entry that have been read so far. -/
structure Draft where
  storeId : Option String := none
  date : Option Date := none
  file : Option String := none
  contentHash : Option String := none
  rowCount : Option Nat := none
  fileSize : Option Nat := none
  writtenAt : Option Int := none
  summary : Option (List AggregateRow) := none

/-- The parts of an entry. -/
def shape : Shape Draft :=
  [Shape.field "store_id" Json.text fun v d => { d with storeId := some v },
   Shape.field "date" Date.decode fun v d => { d with date := some v },
   Shape.field "file" Json.text fun v d => { d with file := some v },
   Shape.field "content_hash" Json.text fun v d => { d with contentHash := some v },
   Shape.field "row_count" Json.word64 fun v d => { d with rowCount := some v },
   Shape.field "file_size" Json.word64 fun v d => { d with fileSize := some v },
   Shape.field "written_at" Json.signed64 fun v d => { d with writtenAt := some v },
   Shape.field "summary" (Json.optional (Json.list AggregateRow.decode)) fun v d =>
     { d with summary := v }]

/-- Reads an entry. -/
def decode : Json.Decoder PartitionEntry := fun j => do
  let d ← shape.read {} j
  return {
    id := ⟨← need d.storeId, ← need d.date⟩
    file := ← need d.file
    contentHash := ← need d.contentHash
    rowCount := ← need d.rowCount
    fileSize := ← need d.fileSize
    writtenAt := ← need d.writtenAt
    summary := d.summary }

/-- An entry as JSON; a summary that there is none of is left out. -/
def toJson (e : PartitionEntry) : Json :=
  .object <|
    [("store_id", .string e.id.storeId), ("date", .string e.id.date.render),
     ("file", .string e.file), ("content_hash", .string e.contentHash),
     ("row_count", .int e.rowCount), ("file_size", .int e.fileSize),
     ("written_at", .int e.writtenAt)] ++
    match e.summary with
    | some rows => [("summary", .array (rows.map AggregateRow.toJson))]
    | none => []

end PartitionEntry

/-! ### The manifest -/

/-- The stored partitions and what is said of each. -/
abbrev Manifest := SortedMap PartitionId PartitionEntry

namespace Manifest

/-- The version of the form in which manifests are written. -/
def formVersion : Nat := 1

/-- The manifest of a list of entries. -/
def ofEntries (entries : List PartitionEntry) : Manifest :=
  SortedMap.ofList (entries.map fun e => (e.id, e))

/-- The number of lines of all partitions, as a count of 64 bits. -/
def rowCount (m : Manifest) : Nat := (m.values.map (·.rowCount)).foldl (· + ·) 0 % 2 ^ (64 : Nat)

/-- The parts of a manifest that have been read so far. -/
structure Draft where
  version : Option Nat := none
  entries : Option (List PartitionEntry) := none

/-- The parts of a manifest. -/
def shape : Shape Draft :=
  [Shape.field "version" Json.word32 fun v d => { d with version := some v },
   Shape.field "entries" (Json.list PartitionEntry.decode) fun v d => { d with entries := some v }]

/-- Reads a manifest; any version will do. -/
def decode : Json.Decoder Manifest := fun j => do
  let d ← shape.read {} j
  let _ ← need d.version
  return ofEntries (← need d.entries)

/-- A manifest as JSON. -/
def toJson (m : Manifest) : Json :=
  .object
    [("version", .int formVersion), ("entries", .array (m.values.map PartitionEntry.toJson))]

/-- The text of a manifest, line by line. -/
def text (m : Manifest) : String := m.toJson.pretty

/-- The manifest of a text. -/
def ofText? (text : String) : Option Manifest :=
  match Json.decodeText decode text with
  | .ok m => some m
  | .error _ => none

end Manifest

end RetailReport
