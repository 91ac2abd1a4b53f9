import RetailReport.Partition.Manifest
import RetailReport.Query.Request
import RetailReport.Rollup.Plan

/-!
# The partition store

The partition store keeps the lines of each store and day in a file of its own and answers requests
from those files.  A partition is always replaced as a whole: its lines are sorted by id, written to
a new file whose name contains their content hash, and then the manifest is saved; if that fails, the
manifest stays as it was and the new file is discarded.  Writing what is already stored does nothing,
and writing nothing removes the partition.  Days before the business day are closed: they can be
replaced, but no longer appended to.

Whoever changes lines marks their partitions as pending.  Marks are numbered, and a mark is cleared
only under the number that it still has, so a change that comes in while a partition is brought up to
date keeps it pending.  A request that touches a pending partition is refused.

## Main definitions

* `PartitionStore`, `PartitionStore.open?`.
* `PartitionStore.writePartition`, `PartitionStore.appendOpen`, `PartitionStore.removePartition`.
* `PartitionStore.markPending`, `PartitionStore.pendingMark?`, `PartitionStore.clearPending`.
* `PartitionStore.readPartition`, `PartitionStore.query`.
-/

namespace RetailReport

/-- A partition that was written, or found unchanged. -/
structure PartitionRef where
  /-- The partition. -/
  id : PartitionId
  /-- Its file, as the manifest has it. -/
  path : String
  /-- The content hash of its lines. -/
  contentHash : String
  /-- The number of its lines. -/
  rowCount : Nat
  /-- Whether anything was written. -/
  written : Bool
deriving DecidableEq, Repr

/-- The stored partitions and what is known of them. -/
structure PartitionStore where
  /-- The files. -/
  folder : Folder
  /-- The path of the manifest. -/
  manifestPath : FolderPath
  /-- The manifest. -/
  manifest : Manifest
  /-- The business day. -/
  today : Date
  /-- The plan by which summaries are computed, if they are kept. -/
  summaryPlan : Option RebuildPlan := none
  /-- Whether the store is in order. -/
  healthy : Bool := true
  /-- The partitions that lag behind the fact store, with the numbers of their marks. -/
  marks : SortedMap PartitionId Nat := .empty
  /-- How often partitions were marked. -/
  markCount : Nat := 0
  /-- How many partitions were written. -/
  writtenCount : Nat := 0
  /-- How many partitions were found unchanged. -/
  unchangedCount : Nat := 0

namespace PartitionStore

/-! ### Opening -/

/-- The manifest of a folder; without a file it is empty. -/
def loadManifest (folder : Folder) (path : FolderPath) : Except PartitionError Manifest :=
  if folder.contains path then
    match folder.read path with
    | .ok (.text content) =>
      match Manifest.ofText? content with
      | some m => .ok m
      | none => .error .manifest
    | .ok _ => .error (.io .notText)
    | .error e => .error (.io e)
  else .ok .empty

/-- Opens the store of a folder: creates its home if that is gone, loads the manifest, and removes the
files that an interrupted write may have left behind. -/
def open? (folder : Folder) (manifestFile : String) (today : Date)
    (summaryPlan : Option RebuildPlan) : Except PartitionError PartitionStore :=
  let manifestPath := FolderPath.ofText manifestFile
  match folder.makeDirs FolderPath.home with
  | (.error e, _) => .error (.io e)
  | (.ok (), folder) => do
    let manifest ← loadManifest folder manifestPath
    return { folder := folder.withoutExtension "tmp", manifestPath, manifest, today, summaryPlan }

/-! ### Files -/

/-- A store id as the name of a directory: what is not an ASCII letter, digit, hyphen or underscore
becomes an underscore. -/
def directoryName (storeId : String) : String :=
  storeId.map fun c => if c.isAlphanum || c == '-' || c == '_' then c else '_'

/-- The file of a partition with a given content hash. -/
def fileName (id : PartitionId) (contentHash : String) : String :=
  directoryName id.storeId ++ "/" ++ id.date.render ++ "-" ++ contentHash ++ ".parquet"

/-- Whether a day is over. -/
def isClosed (s : PartitionStore) (date : Date) : Bool := decide (date < s.today)

/-- The lines of a file. -/
def readFile (s : PartitionStore) (file : String) : Except PartitionError (List FactRecord) :=
  match s.folder.node (FolderPath.ofText file) with
  | .ok (.table t) =>
    match t.lines with
    | .ok facts => .ok facts
    | .error e => .error (.table e)
  | .ok _ => .error (.table .unreadable)
  | .error e => .error (.io e)

/-- Writes lines to a file, by way of another file that then takes its place; gives the folder and
the size of the file.  What was done before a failure stays done. -/
def writeFile (folder : Folder) (file : String) (facts : List FactRecord) :
    Except PartitionError Nat × Folder :=
  let path := FolderPath.ofText file
  match folder.makeParents path with
  | (.error e, folder) => (.error (.io e), folder)
  | (.ok (), folder) =>
    match FactTable.ofLines facts with
    | .error e => (.error (.table e), folder)
    | .ok t =>
      let draft := FolderPath.extended path ".tmp"
      match folder.write draft (.table t) with
      | .error e => (.error (.io e), folder)
      | .ok folder =>
        match folder.rename draft path with
        | .error e => (.error (.io e), folder)
        | .ok folder => (.ok t.cellCount, folder)

/-- Saves a manifest, by way of another file that then takes its place. -/
def saveManifest (folder : Folder) (path : FolderPath) (manifest : Manifest) :
    Except FolderError Unit × Folder :=
  match folder.makeParents path with
  | (.error e, folder) => (.error e, folder)
  | (.ok (), folder) =>
    let draft := FolderPath.withExtension path "tmp"
    match folder.write draft (.text manifest.text) with
    | .error e => (.error e, folder)
    | .ok folder =>
      match folder.rename draft path with
      | .error e => (.error e, folder)
      | .ok folder => (.ok (), folder)

/-- The store without a file. -/
def discardFile (s : PartitionStore) (file : String) : PartitionStore :=
  { s with folder := s.folder.discardFile (FolderPath.ofText file) }

/-! ### Writing -/

/-- The rows of the summary of some lines, if summaries are kept and they have one. -/
def summaryOf (s : PartitionStore) (facts : List FactRecord) : Option (List AggregateRow) :=
  s.summaryPlan.bind fun plan => (plan.aggregate facts).toOption

/-- Saves another manifest, or keeps the present one. -/
def exchangeManifest (s : PartitionStore) (manifest : Manifest) :
    Except PartitionError Unit × PartitionStore :=
  match saveManifest s.folder s.manifestPath manifest with
  | (.ok (), folder) => (.ok (), { s with folder, manifest })
  | (.error e, folder) => (.error (.io e), { s with folder })

/-- Puts an entry into the manifest whose file has just been written.  Then the file of the entry
before it is discarded or, if the manifest cannot be saved, the new file, unless they are one. -/
def enter (s : PartitionStore) (entry : PartitionEntry) :
    Except PartitionError Unit × PartitionStore :=
  let previous := (s.manifest.get? entry.id).map (·.file)
  match s.exchangeManifest (s.manifest.insert entry.id entry) with
  | (.ok (), s) =>
    (.ok (), match previous with
      | some file => if file = entry.file then s else s.discardFile file
      | none => s)
  | (.error e, s) =>
    (.error e, if previous = some entry.file then s else s.discardFile entry.file)

/-- Takes a partition out of the store. -/
def drop (s : PartitionStore) (id : PartitionId) (contentHash : String) :
    Except PartitionError PartitionRef × PartitionStore :=
  match s.manifest.get? id with
  | none => (.ok ⟨id, fileName id contentHash, contentHash, 0, false⟩, s)
  | some entry =>
    match s.exchangeManifest (s.manifest.erase id) with
    | (.error e, s) => (.error e, s)
    | (.ok (), s) => (.ok ⟨id, entry.file, contentHash, 0, true⟩, s.discardFile entry.file)

/-- The entry of a partition if it already holds lines with a given hash and its file is there. -/
def unchanged? (s : PartitionStore) (id : PartitionId) (contentHash : String) :
    Option PartitionEntry :=
  (s.manifest.get? id).filter fun e =>
    e.contentHash = contentHash && s.folder.contains (FolderPath.ofText e.file)

/-- Writes lines to a new file and enters it into the manifest. -/
def install (s : PartitionStore) (id : PartitionId) (facts : List FactRecord) (contentHash : String) :
    Except PartitionError PartitionRef × PartitionStore :=
  let file := fileName id contentHash
  match writeFile s.folder file facts with
  | (.error e, folder) => (.error e, { s with folder })
  | (.ok fileSize, folder) =>
    let entry : PartitionEntry :=
      { id, file, contentHash, rowCount := facts.length, fileSize,
        writtenAt := s.today.dayNumber * 86400, summary := s.summaryOf facts }
    match { s with folder }.enter entry with
    | (.error e, s) => (.error e, s)
    | (.ok (), s) =>
      (.ok ⟨id, file, contentHash, facts.length, true⟩,
        { s with writtenCount := s.writtenCount + 1 })

/-- Replaces the lines of a partition. -/
def replace (s : PartitionStore) (id : PartitionId) (facts : List FactRecord) :
    Except PartitionError PartitionRef × PartitionStore :=
  let facts := canonicalSort facts
  let hash := contentHash facts
  if facts.isEmpty then s.drop id hash
  else
    match s.unchanged? id hash with
    | some e =>
      (.ok ⟨id, e.file, hash, e.rowCount, false⟩, { s with unchangedCount := s.unchangedCount + 1 })
    | none => s.install id facts hash

/-- Refuses lines that belong to another partition. -/
def checkFacts (id : PartitionId) (facts : List FactRecord) : Except PartitionError Unit :=
  match facts.find? fun f => !id.holds f with
  | some f => .error (.invalidFacts id f.recordId)
  | none => .ok ()

/-- **Replaces a partition** by some lines; by none at all, it is removed. -/
def writePartition (s : PartitionStore) (id : PartitionId) (facts : List FactRecord) :
    Except PartitionError PartitionRef × PartitionStore :=
  match checkFacts id facts with
  | .error e => (.error e, s)
  | .ok () => s.replace id facts

/-- The lines of a list whose ids are not taken, neither before nor earlier in the list. -/
def newFacts (taken : KeySet String) : List FactRecord → List FactRecord
  | [] => []
  | f :: rest =>
    if taken.contains f.recordId then newFacts taken rest
    else f :: newFacts (taken.add f.recordId) rest

/-- The lines that are stored for a partition; none if it is not stored. -/
def storedFacts (s : PartitionStore) (id : PartitionId) : Except PartitionError (List FactRecord) :=
  match s.manifest.get? id with
  | some e => s.readFile e.file
  | none => .ok []

/-- **Appends lines to a partition** whose day is not over; lines with ids that are already stored
are passed over. -/
def appendOpen (s : PartitionStore) (id : PartitionId) (facts : List FactRecord) :
    Except PartitionError PartitionRef × PartitionStore :=
  if s.isClosed id.date then (.error (.closedPartition id), s)
  else
    match checkFacts id facts with
    | .error e => (.error e, s)
    | .ok () =>
      match s.storedFacts id with
      | .error e => (.error e, s)
      | .ok stored =>
        s.replace id (stored ++ newFacts (KeySet.ofList (stored.map (·.recordId))) facts)

/-- **Removes a partition**, and tells whether it was stored. -/
def removePartition (s : PartitionStore) (id : PartitionId) :
    Except PartitionError Bool × PartitionStore :=
  let existed := s.manifest.contains id
  match s.replace id [] with
  | (.ok _, s) => (.ok existed, s)
  | (.error e, s) => (.error e, s)

/-! ### Pending partitions -/

/-- Marks partitions as pending, and gives the number of the mark. -/
def markPending (s : PartitionStore) (ids : List PartitionId) : Nat × PartitionStore :=
  let mark := s.markCount + 1
  (mark, { s with
    markCount := mark
    marks := ids.foldl (fun m id => m.insert id mark) s.marks })

/-- The number of the mark of a partition, if it is pending. -/
def pendingMark? (s : PartitionStore) (id : PartitionId) : Option Nat := s.marks.get? id

/-- Clears the mark of a partition if it still has the given number, and tells whether it had. -/
def clearPending (s : PartitionStore) (id : PartitionId) (mark : Option Nat) : Bool × PartitionStore :=
  if mark.isSome ∧ s.marks.get? id = mark then (true, { s with marks := s.marks.erase id })
  else (false, s)

/-- The pending partitions, ascending. -/
def pending (s : PartitionStore) : List PartitionId := s.marks.keys

/-! ### Reading -/

/-- The lines of a partition, if it is stored. -/
def readPartition (s : PartitionStore) (id : PartitionId) :
    Except PartitionError (Option (List FactRecord)) :=
  match s.manifest.get? id with
  | some e => (s.readFile e.file).map some
  | none => .ok none

/-- The entries of the manifest, ascending. -/
def partitions (s : PartitionStore) : List PartitionEntry := s.manifest.values

/-- The entry of a partition, if it is stored. -/
def entry? (s : PartitionStore) (id : PartitionId) : Option PartitionEntry := s.manifest.get? id

/-- The summary of a partition, if there is one. -/
def summary? (s : PartitionStore) (id : PartitionId) : Option (List AggregateRow) :=
  (s.entry? id).bind (·.summary)

/-- How many files with tables there are. -/
def fileCount (s : PartitionStore) : Nat := s.folder.countExtension "parquet"

/-- How many pending partitions a filter asks for. -/
def pendingIn (s : PartitionStore) (q : QueryFilter) : Nat :=
  s.pending.countP fun id => q.matchesPartition id.storeId id.date

/-- The lines that a filter asks for, from the partitions that it asks for, in ascending order. -/
def collect (s : PartitionStore) (q : QueryFilter) (cancelled : Bool) :
    List PartitionEntry → Except PartitionError (List FactRecord)
  | [] => .ok []
  | e :: rest => do
    if cancelled then throw .cancelled
    let facts ← s.readFile e.file
    let more ← s.collect q cancelled rest
    return facts.filter (fun f => q.matchesChannel f.channel) ++ more

/-- **Answers a request** from the lines of the partitions that it asks for. -/
def query (s : PartitionStore) (r : MetricRequest) (plan : RebuildPlan) (cancelled : Bool) :
    Except PartitionError AggregateResult := do
  let pending := s.pendingIn r.filter
  if 0 < pending then throw (.incomplete pending)
  let entries := s.partitions.filter fun e => r.filter.matchesPartition e.id.storeId e.id.date
  if entries.isEmpty then return .empty .partition .partitionMissing
  let facts ← s.collect r.filter (cancelled || r.isOver) entries
  match (plan.withDimensions r.dimensions).aggregate facts with
  | .ok rows => return .ofRows (RebuildPlan.projectRows rows r.fields) .partition
  | .error e => throw (.aggregation e)

end PartitionStore

end RetailReport
