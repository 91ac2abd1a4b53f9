import RetailReport.Proofs.Query.RollupAnswer

/-!
# Answers from partitions

A request is answered from the partitions that it may be about.  If these hold the lines of their
stores and days, then together they hold the lines that the request asks for, and the answer shows
the rows of these lines, with all fields.

## Main definitions

* `PartitionStore.Follows`: a partition holds the lines of its store and day.
* `PartitionStore.Mirrors`: all partitions do.

## Main results

* `PartitionStore.collect_perm`: the lines that are collected are those that are asked for.
* `PartitionStore.answered_of_query`: what an answer is made from.
-/

namespace RetailReport

namespace PartitionStore

/-- Each entry of the manifest is entered under its own partition. -/
def Keyed (s : PartitionStore) : Prop := ∀ id e, s.manifest.get? id = some e → e.id = id

/-- **A partition holds the lines of its store and day**; it may be missing if there are none. -/
def Follows (s : PartitionStore) (facts : FactStore) (id : PartitionId) : Prop :=
  ∃ content, s.readPartition id = .ok content ∧
    (content.getD []).Perm (facts.partitionOf id.storeId id.date)

/-- **All partitions hold the lines of their stores and days.** -/
structure Mirrors (s : PartitionStore) (facts : FactStore) : Prop where
  /-- The manifest is in order. -/
  keyed : s.Keyed
  /-- Every partition follows the fact store. -/
  follows : ∀ id, s.Follows facts id

/-! ### Collecting lines -/

/-- The lines of a file, none if it cannot be read. -/
def linesOfFile (s : PartitionStore) (file : String) : List FactRecord :=
  (s.readFile file).toOption.getD []

variable {s : PartitionStore} {facts : FactStore} {q : QueryFilter} {cancelled : Bool}

theorem collect_eq {entries : List PartitionEntry} {lines : List FactRecord}
    (h : s.collect q cancelled entries = .ok lines) :
    lines = entries.flatMap fun e =>
      (s.linesOfFile e.file).filter fun f => q.matchesChannel f.channel := by
  induction entries generalizing lines with
  | nil => exact (Except.ok.inj h).symm
  | cons e entries ih =>
    unfold collect at h
    cases cancelled with
    | true => cases h
    | false =>
      simp only [Bool.false_eq_true, if_false] at h
      obtain ⟨read, hread, h⟩ := Except.bind_eq_ok.1 h
      obtain ⟨more, hmore, h⟩ := Except.bind_eq_ok.1 h
      rw [← Except.ok.inj h, List.flatMap_cons, ← ih hmore, linesOfFile, hread]
      rfl

theorem map_id_partitions (hkeyed : s.Keyed) : s.partitions.map (·.id) = s.manifest.keys := by
  rw [partitions, SortedMap.values, SortedMap.keys, List.map_map]
  refine List.map_congr_left fun e he => ?_
  exact hkeyed e.1 e.2 (SortedMap.mem_toList.1 (show (e.1, e.2) ∈ _ from he))

/-- The file of an entry holds the lines of its store and day. -/
theorem linesOfFile_perm (hkeyed : s.Keyed) {e : PartitionEntry} (he : e ∈ s.partitions)
    (hfollows : s.Follows facts e.id) :
    (s.linesOfFile e.file).Perm (facts.partitionOf e.id.storeId e.id.date) := by
  obtain ⟨id, hget⟩ := SortedMap.mem_values.1 he
  obtain rfl := hkeyed id e hget
  obtain ⟨content, hread, hperm⟩ := hfollows
  unfold readPartition at hread
  simp only [hget] at hread
  obtain ⟨lines, hlines, rfl⟩ := Except.map_eq_ok.1 hread
  rwa [linesOfFile, hlines]

theorem mem_partitionOf (hfacts : facts.Consistent) {f : FactRecord} {id : PartitionId} :
    f ∈ facts.partitionOf id.storeId id.date ↔ f ∈ facts.lines ∧ f.partition = id := by
  unfold FactStore.partitionOf FactRecord.partition
  rw [List.mem_filter, hfacts.mem_linesOf, decide_eq_true_eq, and_assoc]
  cases id
  rw [PartitionId.mk.injEq]

/-- The partition of a line is stored, since it has a line. -/
theorem exists_entry (hkeyed : s.Keyed) {id : PartitionId} (hfollows : s.Follows facts id)
    {f : FactRecord} (hf : f ∈ facts.partitionOf id.storeId id.date) :
    ∃ e ∈ s.partitions, e.id = id ∧ f ∈ s.linesOfFile e.file := by
  obtain ⟨content, hread, hcontent⟩ := hfollows
  have hf' : f ∈ content.getD [] := hcontent.mem_iff.2 hf
  unfold readPartition at hread
  cases hget : s.manifest.get? id with
  | none =>
    simp only [hget] at hread
    rw [← Except.ok.inj hread] at hf'
    cases hf'
  | some e =>
    simp only [hget] at hread
    obtain ⟨read, hfile, rfl⟩ := Except.map_eq_ok.1 hread
    refine ⟨e, SortedMap.mem_values.2 ⟨id, hget⟩, hkeyed id e hget, ?_⟩
    rw [linesOfFile, hfile]
    exact hf'

/-- **The lines that are collected are those that are asked for.** -/
theorem collect_perm (hfacts : facts.Consistent) (hkeyed : s.Keyed)
    (hfollows : ∀ id : PartitionId, q.matchesPartition id.storeId id.date = true →
      s.Follows facts id)
    {lines : List FactRecord} (h : s.collect q cancelled
      (s.partitions.filter fun e => q.matchesPartition e.id.storeId e.id.date) = .ok lines) :
    lines.Perm (facts.lines.filter q.matchesFact) := by
  have hperm : ∀ e ∈ s.partitions.filter fun e => q.matchesPartition e.id.storeId e.id.date,
      (s.linesOfFile e.file).Perm (facts.partitionOf e.id.storeId e.id.date) := by
    intro e he
    obtain ⟨he, hmatches⟩ := List.mem_filter.1 he
    exact linesOfFile_perm hkeyed he (hfollows e.id hmatches)
  rw [collect_eq h]
  refine (List.perm_ext_iff_of_nodup (List.nodup_flatMap.2 ⟨fun e he => ?_, ?_⟩)
    (hfacts.nodup_lines.filter _)).2 fun f => ?_
  · exact ((hperm e he).nodup_iff.2 ((nodup_linesOf hfacts _).filter _)).filter _
  · -- A line is in the partition of its own store and day only.
    have hids : (s.partitions.map (·.id)).Nodup := map_id_partitions hkeyed ▸ s.manifest.nodup_keys
    have hpairs : (s.partitions.filter fun e =>
        q.matchesPartition e.id.storeId e.id.date).Pairwise fun e e' => e.id ≠ e'.id :=
      (List.pairwise_map.1 hids).filter _
    refine hpairs.imp_of_mem fun {e e'} he he' hne f hf hf' => hne ?_
    have hmem := (hperm e he).mem_iff.1 (List.mem_filter.1 hf).1
    have hmem' := (hperm e' he').mem_iff.1 (List.mem_filter.1 hf').1
    exact ((mem_partitionOf hfacts).1 hmem).2.symm.trans ((mem_partitionOf hfacts).1 hmem').2
  · simp only [List.mem_flatMap]
    constructor
    · rintro ⟨e, he, hf⟩
      obtain ⟨hf, hchannel⟩ := List.mem_filter.1 hf
      obtain ⟨hmem, hown⟩ := (mem_partitionOf hfacts).1 ((hperm e he).mem_iff.1 hf)
      have hmatches := (List.mem_filter.1 he).2
      rw [← hown] at hmatches
      refine List.mem_filter.2 ⟨hmem, ?_⟩
      exact Bool.and_eq_true_iff.2 ⟨hmatches, hchannel⟩
    · intro hf
      obtain ⟨hmem, hmatches⟩ := List.mem_filter.1 hf
      obtain ⟨hmatches, hchannel⟩ := Bool.and_eq_true_iff.1 hmatches
      obtain ⟨e, he, hid, hfile⟩ := exists_entry hkeyed (hfollows f.partition hmatches)
        ((mem_partitionOf hfacts).2 ⟨hmem, rfl⟩)
      refine ⟨e, List.mem_filter.2 ⟨he, ?_⟩, List.mem_filter.2 ⟨hfile, hchannel⟩⟩
      rw [hid]
      exact hmatches

/-! ### The answer -/

/-- **The answer of the partition store** shows the rows of the lines that are asked for. -/
theorem answered_of_query {p : RebuildPlan} (hp : p.WellFormed) (hfacts : facts.Consistent)
    (hkeyed : s.Keyed) {r : MetricRequest}
    (hfollows : ∀ id : PartitionId, r.filter.matchesPartition id.storeId id.date = true →
      s.Follows facts id)
    {result : AggregateResult} (h : s.query r p cancelled = .ok result) :
    Answered p r p.fields (facts.lines.filter r.filter.matchesFact) result.rows := by
  unfold query at h
  simp only at h
  split at h
  · cases h
  · split at h
    · next hempty =>
      -- Without partitions there are no lines to be asked for.
      rw [List.isEmpty_iff] at hempty
      have hcollect : s.collect r.filter cancelled (s.partitions.filter fun e =>
          r.filter.matchesPartition e.id.storeId e.id.date) = .ok [] := by
        rw [hempty]
        rfl
      rw [(collect_perm hfacts hkeyed hfollows hcollect).symm.eq_nil, ← Except.ok.inj h]
      exact ⟨[], [], ⟨rfl, fun _ h => absurd h List.not_mem_nil⟩, rfl, rfl⟩
    · obtain ⟨lines, hlines, h⟩ := Except.bind_eq_ok.1 h
      have hperm := collect_perm hfacts hkeyed hfollows hlines
      split at h
      · next rows hrows =>
        obtain ⟨base, hbase, hfinished⟩ := Except.bind_eq_ok.1 hrows
        have hid : (lines.map (·.recordId)).Nodup := (hperm.map _).nodup_iff.2
          (hfacts.nodup.sublist (List.filter_sublist.map _))
        rw [← Except.ok.inj h]
        exact ⟨base, rows, (Kernel.aggregate_rows hp.names hbase).perm hperm hid, hfinished, rfl⟩
      · cases h

end PartitionStore

/-! ### One line -/

/-- The fact store with one line. -/
def oneLine : FactStore where
  byStore := .ofList [("S1", [sampleLine "S1" "r1"])]
  recordIds := .ofList ["r1"]
  orders := .ofList [("r1", (sampleLine "S1" "r1").header)]
  recordCount := 1
  version := 1

theorem append_oneLine :
    FactStore.append {} [sampleLine "S1" "r1"] = .ok (oneLine, KeySet.ofList ["S1"]) :=
  rfl

/-- The partition of the sample lines of the first store. -/
def newYearsDay : PartitionId := (sampleLine "S1" "r1").partition

end RetailReport
