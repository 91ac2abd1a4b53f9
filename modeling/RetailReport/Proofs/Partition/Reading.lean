import RetailReport.Partition.Manifest
import RetailReport.Proofs.Amount.Reading
import RetailReport.Proofs.Json.Decoding

/-!
# Reading written manifests

A manifest is saved as a text and read again when the store is opened.  Everything in it comes back
from the text but the least amount, which is refused as out of range; and one such value in one
summary makes the whole manifest unreadable.

Ratios are left out, since floats need not come back from their texts.

## Main definitions

* `Amount.least`, `Metric.IsExact`, `AggregateRow.IsExact`, `PartitionEntry.Fits`.
* `AggregateRow.IsReadable`, `PartitionEntry.IsReadable`, `Manifest.IsReadable`: there is no least
  amount.

## Main results

* `Metric.comesBack`, `AggregateRow.comesBack`, `PartitionEntry.comesBack`.
* `Manifest.ofText?_text`: **what a manifest's text says**.
-/

namespace RetailReport

-- Powers are those of the core library.
attribute [local instance (high)] instPowNat

open Json (ComesBack Plain)

/-! ### Values -/

/-- The least amount. -/
def Amount.least : Amount := ⟨Amount.minRaw, by decide, by decide⟩

theorem Amount.raw_eq_minRaw_iff {a : Amount} : a.raw = minRaw ↔ a = least :=
  ⟨fun h => ext h, fun h => h ▸ rfl⟩

/-- A number of 64 bits comes back. -/
theorem Json.word64_natCast {n : Nat} (h : n ≤ maxCount) : Json.word64 (.int n) = .ok n := by
  have hrange : (0 : Int) ≤ n ∧ (n : Int) ≤ ((2 ^ (64 : Nat) - 1 : Nat) : Int) :=
    ⟨Int.natCast_nonneg n, Int.ofNat_le.2 h⟩
  rw [Json.word64, Json.natural, if_pos hrange, Int.toNat_natCast]

/-- What is read of a written amount. -/
theorem Amount.comesBack (a : Amount) :
    ComesBack Json.amount (fun a => .string a.render) (· ≠ least) a := by
  intro b
  show Json.amount (.string a.render) = .ok b ↔ _
  unfold Json.amount
  simp only [parse_render, raw_eq_minRaw_iff]
  by_cases h : a = least
  · simp [h]
  · simp [h]

namespace Metric

/-- Whether a value is an amount, a count of 64 bits, or nothing. -/
def IsExact : Metric → Prop
  | .amount _ | .null => True
  | .count n => n ≤ maxCount
  | .ratio _ => False

instance : DecidablePred IsExact := fun m => by
  cases m <;> unfold IsExact <;> infer_instance

/-- Whether a value comes back from its text. -/
def IsReadable (m : Metric) : Prop := m ≠ .amount Amount.least

instance : DecidablePred IsReadable := fun m => inferInstanceAs (Decidable (m ≠ _))

theorem decodeKind_of_lookup {name : String} {kind : Kind} (h : Kind.all.lookup name = some kind) :
    decodeKind (.string name) = .ok kind := by
  unfold decodeKind Json.choice Json.choiceIn
  simp only [h]

/-- A value with its type in front is decoded as one of that type. -/
theorem decode_tagged {name : String} {kind : Kind} {j : Json}
    (hkind : Kind.all.lookup name = some kind) (hnamed : ∀ value, j ≠ .unnamed value) :
    decode (.object [("type", .string name), ("value", j)]) = decodeOf kind j := by
  have htype : readMembers {} [("type", .string name), ("value", j)] =
      readMembers { kind := some kind } [("value", j)] := by
    rw [readMembers.eq_def]
    simp only [decodeKind_of_lookup hkind]
    rfl
  have hvalue : readMembers { kind := some kind } [("value", j)] =
      (decodeOf kind j).map fun value =>
        { kind := some kind, content := some j, value := some value } := by
    cases j with
    | unnamed value => exact absurd rfl (hnamed value)
    | _ =>
      simp only [readMembers, if_true]
      rw [if_neg (by decide)]
      rfl
  unfold decode
  simp only [htype, hvalue]
  cases decodeOf kind j <;> rfl

/-- **An exact value comes back** unless it is the least amount. -/
theorem comesBack {m : Metric} (h : m.IsExact) : ComesBack decode toJson IsReadable m := by
  intro m'
  cases m with
  | amount a =>
    show decode (.object [("type", .string "amount"), ("value", .string a.render)]) = .ok m' ↔ _
    rw [decode_tagged rfl (by simp)]
    show (Json.amount (.string a.render)).map amount = .ok m' ↔ _
    rw [Except.map_eq_ok]
    have hreadable : IsReadable (.amount a) ↔ a ≠ Amount.least := by
      rw [IsReadable, Ne, Metric.amount.injEq]
    rw [hreadable]
    constructor
    · rintro ⟨b, hb, rfl⟩
      obtain ⟨hleast, rfl⟩ := (a.comesBack b).1 hb
      exact ⟨hleast, rfl⟩
    · rintro ⟨hleast, rfl⟩
      exact ⟨a, a.comesBack.eq_ok hleast, rfl⟩
  | count n =>
    have hcount := Json.word64_natCast h
    show decode (.object [("type", .string "count"), ("value", .int n)]) = .ok m' ↔ _
    rw [decode_tagged rfl (by simp)]
    show (Json.word64 (.int n)).map count = .ok m' ↔ _
    rw [hcount]
    simp [Except.map, IsReadable]
  | ratio x => cases h
  | null =>
    show Except.ok null = .ok m' ↔ _
    simp [IsReadable]

theorem plain_toJson {m : Metric} (h : m.IsExact) (depth : Nat) : Plain (depth + 1) m.toJson := by
  cases m with
  | amount a =>
    refine .object ?_
    simp [Plain.string]
  | count n =>
    have hrange : (-2 ^ (63 : Nat) : Int) ≤ n ∧ (n : Int) < 2 ^ (64 : Nat) := by
      have hcount : n ≤ 18446744073709551615 := h
      omega
    refine .object ?_
    simp [Plain.string, Plain.int hrange.1 hrange.2]
  | ratio x => cases h
  | null =>
    refine .object ?_
    simp [Plain.string]

end Metric

/-! ### Rows -/

namespace AggregateRow

/-- Whether all values of a row are exact. -/
def IsExact (r : AggregateRow) : Prop := ∀ e ∈ r.values.toList, e.2.IsExact

instance : DecidablePred IsExact := fun r =>
  inferInstanceAs (Decidable (∀ e ∈ r.values.toList, e.2.IsExact))

/-- Whether a row comes back from its text: no value of it is the least amount. -/
def IsReadable (r : AggregateRow) : Prop := ∀ e ∈ r.values.toList, e.2.IsReadable

instance : DecidablePred IsReadable := fun r =>
  inferInstanceAs (Decidable (∀ e ∈ r.values.toList, e.2.IsReadable))

theorem isReadable_iff {r : AggregateRow} :
    r.IsReadable ↔ ∀ name, r.values.get? name ≠ some (.amount Amount.least) := by
  constructor
  · intro h name hget
    exact h (name, _) (SortedMap.mem_toList.2 hget) rfl
  · rintro h ⟨name, m⟩ hm rfl
    exact h name (SortedMap.mem_toList.1 hm)

/-- What is read of a row depends on its values. -/
theorem decode_toJson (r : AggregateRow) :
    decode r.toJson = (Json.table Metric.decode
      (.object (r.values.toList.map fun (name, m) => (name, m.toJson)))).map
        fun values => { r with values } := by
  have hkey : Json.list Json.text (.array (r.key.map .string)) = .ok r.key :=
    (Json.comesBack_list fun s _ => Json.comesBack_text s).eq_ok fun _ _ => trivial
  have hread : shape.readMembers [] {}
      [("key", .array (r.key.map .string)),
        ("values", .object (r.values.toList.map fun (name, m) => (name, m.toJson)))] =
      (Json.table Metric.decode
        (.object (r.values.toList.map fun (name, m) => (name, m.toJson)))).map
          fun values => { key := some r.key, values := some values } := by
    rw [Json.Shape.readMembers_field rfl rfl (by simp) hkey,
      Json.Shape.readMembers_last rfl rfl (by simp)]
  unfold decode
  simp only [toJson, Json.Shape.read, Json.Shape.readIn, hread]
  cases Json.table Metric.decode
    (.object (r.values.toList.map fun (name, m) => (name, m.toJson))) <;> rfl

/-- **A row of exact values comes back** unless one of them is the least amount. -/
theorem comesBack {r : AggregateRow} (h : r.IsExact) : ComesBack decode toJson IsReadable r := by
  intro r'
  have hvalues := Json.comesBack_table fun e he => Metric.comesBack (h e he)
  rw [decode_toJson, Except.map_eq_ok]
  constructor
  · rintro ⟨values, hread, rfl⟩
    obtain ⟨hreadable, rfl⟩ := (hvalues values).1 hread
    exact ⟨hreadable, rfl⟩
  · rintro ⟨hreadable, rfl⟩
    exact ⟨r.values, hvalues.eq_ok hreadable, rfl⟩

theorem plain_toJson {r : AggregateRow} (h : r.IsExact) (depth : Nat) :
    Plain (depth + 3) r.toJson := by
  have hkey : Plain (depth + 2) (.array (r.key.map .string)) := by
    refine .array fun j hj => ?_
    obtain ⟨s, -, rfl⟩ := List.mem_map.1 hj
    exact .string s
  have hvalues : Plain (depth + 2)
      (.object (r.values.toList.map fun (name, m) => (name, m.toJson))) := by
    refine .object fun member hmember => ?_
    obtain ⟨⟨name, m⟩, hmem, rfl⟩ := List.mem_map.1 hmember
    exact Metric.plain_toJson (h (name, m) hmem) depth
  refine .object fun member hmember => ?_
  simp only [List.mem_cons, List.not_mem_nil, or_false] at hmember
  rcases hmember with rfl | rfl
  · exact hkey
  · exact hvalues

end AggregateRow

/-! ### Entries -/

namespace PartitionEntry

/-- The rows of the summary; none without a summary. -/
def rows (e : PartitionEntry) : List AggregateRow := e.summary.getD []

/-- **Whether an entry fits its form**: its numbers are of 64 bits, and its summary has exact values
only. -/
structure Fits (e : PartitionEntry) : Prop where
  /-- The number of lines. -/
  rowCount : e.rowCount ≤ maxCount
  /-- The size of the file. -/
  fileSize : e.fileSize ≤ maxCount
  /-- The moment is not too early. -/
  le_writtenAt : -2 ^ (63 : Nat) ≤ e.writtenAt
  /-- The moment is not too late. -/
  writtenAt_lt : e.writtenAt < 2 ^ (63 : Nat)
  /-- The summary. -/
  rows : ∀ r ∈ e.rows, r.IsExact

/-- Whether an entry comes back from its text: there is no least amount in its summary. -/
def IsReadable (e : PartitionEntry) : Prop := ∀ r ∈ e.rows, r.IsReadable

instance : DecidablePred IsReadable := fun e =>
  inferInstanceAs (Decidable (∀ r ∈ e.rows, r.IsReadable))

/-- What is read of an entry depends on its summary. -/
theorem decode_toJson {e : PartitionEntry} (h : e.Fits) :
    decode e.toJson = match e.summary with
      | some rows =>
        (Json.list AggregateRow.decode (.array (rows.map AggregateRow.toJson))).map
          fun rows => { e with summary := some rows }
      | none => .ok e := by
  obtain ⟨⟨storeId, date⟩, file, contentHash, rowCount, fileSize, writtenAt, summary⟩ := e
  have htext : ∀ s, Json.text (.string s) = .ok s := fun _ => rfl
  have hdate : Date.decode (.string date.render) = .ok date := by
    rw [Date.decode, Date.parse?_render]
  have hrowCount := Json.word64_natCast h.rowCount
  have hfileSize := Json.word64_natCast h.fileSize
  have hwrittenAt : Json.signed64 (.int writtenAt) = .ok writtenAt := by
    have hlate : writtenAt < 2 ^ (63 : Nat) := h.writtenAt_lt
    rw [Json.signed64, if_pos (by omega)]
  -- The members before the summary are read the same way whether it is there or not.
  have hread : ∀ rest, shape.readMembers [] {}
      (("store_id", .string storeId) :: ("date", .string date.render) ::
        ("file", .string file) :: ("content_hash", .string contentHash) ::
        ("row_count", .int rowCount) :: ("file_size", .int fileSize) ::
        ("written_at", .int writtenAt) :: rest) =
      shape.readMembers ["written_at", "file_size", "row_count", "content_hash", "file", "date",
          "store_id"]
        { storeId := some storeId, date := some date, file := some file,
          contentHash := some contentHash, rowCount := some rowCount, fileSize := some fileSize,
          writtenAt := some writtenAt } rest := by
    intro rest
    rw [Json.Shape.readMembers_field rfl rfl (by simp) (htext _),
      Json.Shape.readMembers_field rfl rfl (by simp) hdate,
      Json.Shape.readMembers_field rfl rfl (by simp) (htext _),
      Json.Shape.readMembers_field rfl rfl (by simp) (htext _),
      Json.Shape.readMembers_field rfl rfl (by simp) hrowCount,
      Json.Shape.readMembers_field rfl rfl (by simp) hfileSize,
      Json.Shape.readMembers_field rfl rfl (by simp) hwrittenAt]
  unfold decode
  simp only [toJson, Json.Shape.read, Json.Shape.readIn, List.cons_append, List.nil_append, hread]
  cases summary with
  | none => rfl
  | some rows =>
    rw [Json.Shape.readMembers_last rfl rfl (by simp)]
    simp only [Json.optional]
    cases Json.list AggregateRow.decode (.array (rows.map AggregateRow.toJson)) <;> rfl

/-- **An entry that fits its form comes back** unless there is a least amount in its summary. -/
theorem comesBack {e : PartitionEntry} (h : e.Fits) : ComesBack decode toJson IsReadable e := by
  intro e'
  rw [decode_toJson h]
  cases hsummary : e.summary with
  | none => simp [IsReadable, rows, hsummary]
  | some rows =>
    have hrows : e.rows = rows := by
      rw [PartitionEntry.rows, hsummary, Option.getD_some]
    have hlist := Json.comesBack_list fun r hr => AggregateRow.comesBack (h.rows r (hrows ▸ hr))
    have hsame : { e with summary := some rows } = e := by
      rw [← hsummary]
    rw [Except.map_eq_ok, IsReadable, hrows]
    constructor
    · rintro ⟨rows', hread, rfl⟩
      obtain ⟨hall, rfl⟩ := (hlist rows').1 hread
      exact ⟨hall, hsame.symm⟩
    · rintro ⟨hall, rfl⟩
      exact ⟨rows, hlist.eq_ok hall, hsame⟩

theorem plain_toJson {e : PartitionEntry} (h : e.Fits) (depth : Nat) :
    Plain (depth + 5) e.toJson := by
  have hcount : ∀ {n : Nat}, n ≤ maxCount → Plain (depth + 4) (.int n) := by
    intro n hn
    have hn : n ≤ 18446744073709551615 := hn
    exact .int (by omega) (by omega)
  have hat : Plain (depth + 4) (.int e.writtenAt) := by
    have hearly := h.le_writtenAt
    have hlate := h.writtenAt_lt
    exact .int (by omega) (by omega)
  refine .object fun member hmember => ?_
  rw [List.mem_append] at hmember
  rcases hmember with hfixed | hsummary
  · simp only [List.mem_cons, List.not_mem_nil, or_false] at hfixed
    rcases hfixed with rfl | rfl | rfl | rfl | rfl | rfl | rfl
    · exact .string _
    · exact .string _
    · exact .string _
    · exact .string _
    · exact hcount h.rowCount
    · exact hcount h.fileSize
    · exact hat
  · have hrows := h.rows
    unfold rows at hrows
    cases hcase : e.summary with
    | none =>
      rw [hcase] at hsummary
      cases hsummary
    | some rows =>
      rw [hcase, Option.getD_some] at hrows
      rw [hcase, List.mem_singleton] at hsummary
      subst hsummary
      refine .array fun j hj => ?_
      obtain ⟨r, hr, rfl⟩ := List.mem_map.1 hj
      exact AggregateRow.plain_toJson (hrows r hr) depth

end PartitionEntry

/-! ### The manifest -/

namespace Manifest

/-- Whether a manifest comes back from its text: no summary has the least amount. -/
def IsReadable (m : Manifest) : Prop := ∀ e ∈ m.values, e.IsReadable

instance : DecidablePred IsReadable := fun m =>
  inferInstanceAs (Decidable (∀ e ∈ m.values, e.IsReadable))

/-- Entries under their own partitions make up the manifest. -/
theorem ofEntries_values {m : Manifest} (hkeyed : ∀ id e, m.get? id = some e → e.id = id) :
    ofEntries m.values = m := by
  have hpairs : m.values.map (fun e => (e.id, e)) = m.toList := by
    rw [SortedMap.values, List.map_map]
    refine (List.map_congr_left fun p hp => ?_).trans (List.map_id _)
    exact congrArg (·, p.2) (hkeyed p.1 p.2 (SortedMap.mem_toList.1 hp))
  rw [ofEntries, hpairs, SortedMap.ofList_toList]

theorem plain_toJson {m : Manifest} (h : ∀ e ∈ m.values, e.Fits) :
    Plain Json.maxDepth m.toJson := by
  have hentries : Plain 126 (.array (m.values.map PartitionEntry.toJson)) := by
    refine .array fun j hj => ?_
    obtain ⟨e, he, rfl⟩ := List.mem_map.1 hj
    exact PartitionEntry.plain_toJson (h e he) 120
  refine .object fun member hmember => ?_
  simp only [List.mem_cons, List.not_mem_nil, or_false] at hmember
  rcases hmember with rfl | rfl
  · exact .int (by decide) (by decide)
  · exact hentries

/-- What is read of a manifest depends on its entries. -/
theorem decode_toJson (m : Manifest) :
    decode m.toJson =
      (Json.list PartitionEntry.decode (.array (m.values.map PartitionEntry.toJson))).map
        ofEntries := by
  have hversion : Json.word32 (.int formVersion) = .ok formVersion := rfl
  have hread : shape.readMembers [] {}
      [("version", .int formVersion), ("entries", .array (m.values.map PartitionEntry.toJson))] =
      (Json.list PartitionEntry.decode (.array (m.values.map PartitionEntry.toJson))).map
        fun entries => { version := some formVersion, entries := some entries } := by
    rw [Json.Shape.readMembers_field rfl rfl (by simp) hversion,
      Json.Shape.readMembers_last rfl rfl (by simp)]
  unfold decode
  simp only [toJson, Json.Shape.read, Json.Shape.readIn, hread]
  cases Json.list PartitionEntry.decode (.array (m.values.map PartitionEntry.toJson)) <;> rfl

/-- **A manifest comes back** unless there is a least amount in it. -/
theorem comesBack {m : Manifest} (h : ∀ e ∈ m.values, e.Fits)
    (hkeyed : ∀ id e, m.get? id = some e → e.id = id) : ComesBack decode toJson IsReadable m := by
  intro m'
  have hentries := Json.comesBack_list fun e he => PartitionEntry.comesBack (h e he)
  rw [decode_toJson, Except.map_eq_ok]
  constructor
  · rintro ⟨entries, hlist, rfl⟩
    obtain ⟨hall, rfl⟩ := (hentries entries).1 hlist
    exact ⟨hall, (ofEntries_values hkeyed).symm⟩
  · rintro ⟨hall, rfl⟩
    exact ⟨m.values, hentries.eq_ok hall, ofEntries_values hkeyed⟩

/-- **What a manifest's text says**: the manifest, unless there is a least amount in it. -/
theorem ofText?_text {m m' : Manifest} (h : ∀ e ∈ m.values, e.Fits)
    (hkeyed : ∀ id e, m.get? id = some e → e.id = id) :
    ofText? m.text = some m' ↔ m.IsReadable ∧ m = m' := by
  rw [← comesBack h hkeyed, ofText?, text, Json.decodeText_pretty (plain_toJson h)]
  cases decode m.toJson with
  | ok found => simp
  | error e => simp

end Manifest

end RetailReport
