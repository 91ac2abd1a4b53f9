import RetailReport.Partition.Migration

/-!
# Stored partitions and migrations as JSON

## Main definitions

* `PartitionRef.toJson`, `PartitionEntry.outline`: stored partitions.
* `MigrationReport.toJson`: what a migration has done.
-/

namespace RetailReport

open Json (Encode encode)

instance : Encode PartitionId := ⟨fun id => .string id.render⟩

/-- A partition that was written, or found unchanged, as JSON; its file only if that is in the home. -/
def PartitionRef.toJson (r : PartitionRef) : Json :=
  .object
    [("id", .string r.id.render), ("path", .string (FolderPath.tidied r.path)),
     ("content_hash", .string r.contentHash), ("row_count", .int r.rowCount),
     ("written", .bool r.written)]

instance : Encode PartitionRef := ⟨PartitionRef.toJson⟩

/-- What JSON tells of a stored partition: of the size of its file, only whether there is any. -/
def PartitionEntry.outline (e : PartitionEntry) : Json :=
  .object
    [("id", .string e.id.render), ("file", .string e.file), ("content_hash", .string e.contentHash),
     ("row_count", .int e.rowCount), ("sized", .bool (0 < e.fileSize)),
     ("summary", encode e.summary)]

instance : Encode PartitionEntry := ⟨PartitionEntry.outline⟩

/-- What a migration has done as JSON. -/
def MigrationReport.toJson (r : MigrationReport) : Json :=
  .object
    [("written", .int r.written), ("unchanged", .int r.unchanged), ("removed", .int r.removed),
     ("skipped_open", .int r.skippedOpen),
     ("failed", encode r.failed)]

instance : Encode MigrationReport := ⟨MigrationReport.toJson⟩

end RetailReport
