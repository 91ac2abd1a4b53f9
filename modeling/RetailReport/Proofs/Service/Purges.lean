import RetailReport.Proofs.Service.Runs

/-!
# What a purge leaves of a store

A purge removes the lines of a store at once, takes its partitions out, and leaves its slices to a job.
On a service on which nothing has failed before, its partitions go without fail: each of them was entered
once, so a manifest could be saved then, and it can be saved again.  It does not matter where the manifest
is kept, even if it has taken the place of a table.  Since no job is waiting, the job of the purge is for
this store alone, and when it has run nothing of the store is left, while all that belongs to the other
stores is as it was.

## Main definitions

* `ReportService.Kept`: all that belongs to a store is as it was.
* `ReportService.Purged`: nothing of a store is left, and the other stores are as they were.

## Main results

* `FactStore.Consistent.freed_purge`: the ids of the lines that were removed are free.
* `ReportService.cleared_purge`: the partitions of the store go.
* `ReportService.purge_complete`: **what a purge leaves after any flawless run**.
-/

namespace RetailReport

/-! ### Lines and ids -/

namespace FactStore.Consistent

variable {s : FactStore} {storeId : String} {f : FactRecord} {records : List FactRecord}

theorem mem_lines_purge (hs : s.Consistent) :
    f ∈ (s.purge storeId).1.lines ↔ f ∈ s.lines ∧ f.storeId ≠ storeId := by
  have hmem : f ∈ (s.purge storeId).1.linesOf f.storeId ↔ f ∈ (s.purge storeId).1.lines :=
    (hs.purge storeId).mem_linesOf.trans (and_iff_left rfl)
  rw [← hmem, linesOf_purge]
  split
  · next hstore => exact iff_of_false List.not_mem_nil fun h => h.2 hstore
  · next hstore => exact hs.mem_linesOf.trans ⟨fun h => ⟨h.1, hstore⟩, fun h => ⟨h.1, rfl⟩⟩

/-- **The ids of lines that were removed are free**, those of their orders as well. -/
theorem freed_purge (hs : s.Consistent) (hf : f ∈ s.linesOf storeId) :
    f.recordId ∉ (s.purge storeId).1.recordIds.members ∧
      (s.purge storeId).1.orders.get? f.orderId = none := by
  obtain ⟨hf, hstore⟩ := hs.mem_linesOf.1 hf
  constructor
  · intro hid
    obtain ⟨g, hg, heq⟩ := ((hs.purge storeId).recordIds _).1 hid
    obtain ⟨hg, hother⟩ := hs.mem_lines_purge.1 hg
    exact hother (List.inj_on_of_nodup_map hs.nodup hg hf heq ▸ hstore)
  · cases hget : (s.purge storeId).1.orders.get? f.orderId with
    | none => rfl
    | some header =>
      -- All lines of an order are of one store.
      obtain ⟨g, hg, heq⟩ := (hs.purge storeId).orders _ _ hget
      obtain ⟨hg, hother⟩ := hs.mem_lines_purge.1 hg
      have hheader := hs.header_eq hg hf heq
      exact absurd ((FactRecord.header_eq_iff.1 hheader).1.trans hstore) hother

/-- The ids of all other lines stay. -/
theorem known_purge (hs : s.Consistent) (hf : f ∈ s.lines) (hstore : f.storeId ≠ storeId) :
    f.recordId ∈ (s.purge storeId).1.recordIds.members ∧
      (s.purge storeId).1.orders.get? f.orderId = s.orders.get? f.orderId := by
  have hkept := hs.mem_lines_purge.2 ⟨hf, hstore⟩
  refine ⟨((hs.purge storeId).recordIds _).2 ⟨f, hkept, rfl⟩, ?_⟩
  rw [(hs.purge storeId).headers f hkept, hs.headers f hf]

/-- Lines with free ids are taken if they agree with each other. -/
theorem admits_of_free (hs : s.Consistent) (h : ({} : FactStore).Admits records)
    (hfree : ∀ f ∈ records, f.recordId ∉ s.recordIds.members ∧ s.orders.get? f.orderId = none) :
    s.Admits records := by
  have hdiffer : ∀ f ∈ records, ∀ g ∈ s.lines, g.orderId ≠ f.orderId := by
    intro f hf g hg heq
    have hheader := hs.headers g hg
    rw [heq, (hfree f hf).2] at hheader
    cases hheader
  refine ⟨h.named, h.nodup, fun f hf g hg heq => ?_, fun f hf g hg horder => ?_⟩
  · exact (hfree f hf).1 ((hs.recordIds _).2 ⟨g, hg, heq⟩)
  · rcases List.mem_append.1 hf with hf | hf <;> rcases List.mem_append.1 hg with hg | hg
    · exact FactRecord.header_eq_iff.1 (hs.header_eq hf hg horder)
    · exact absurd horder (hdiffer g hg f hf)
    · exact absurd horder.symm (hdiffer f hf g hg)
    · exact h.agree f (List.mem_append_right _ hf) g (List.mem_append_right _ hg) horder

/-- **The ids of a store that was purged can be used again**: lines that have them are taken, if a store
without lines would take them. -/
theorem exists_append_purge (hs : s.Consistent) (havailable : s.available = true)
    (h : ({} : FactStore).Admits records)
    (hids : ∀ g ∈ records, (∃ f ∈ s.linesOf storeId, f.recordId = g.recordId) ∧
      ∃ f ∈ s.linesOf storeId, f.orderId = g.orderId) :
    ∃ facts keys, (s.purge storeId).1.append records = .ok (facts, keys) := by
  refine (exists_append_iff (hs.purge storeId)).2 ⟨havailable,
    (hs.purge storeId).admits_of_free h fun g hg => ?_⟩
  obtain ⟨⟨f, hf, hrecord⟩, f', hf', horder⟩ := hids g hg
  exact ⟨hrecord ▸ (hs.freed_purge hf).1, horder ▸ (hs.freed_purge hf').2⟩

end FactStore.Consistent

/-! ### Notifications of idle workers -/

namespace WorkSite

variable {w : WorkSite} {keys : KeySet String}

/-- **A notification of workers that have nothing to do** becomes a job for its stores. -/
theorem queue_notify_of_isIdle (hidle : w.isIdle = true) (hok : (w.notify keys).1 = .ok ())
    (hkeys : ∃ key, key ∈ keys.members) : (w.notify keys).2.pool.queue = [⟨keys, 0⟩] := by
  unfold isIdle at hidle
  rw [Bool.and_eq_true, Bool.and_eq_true] at hidle
  obtain ⟨⟨hqueue, hpending⟩, -⟩ := hidle
  have hnone : ∀ key, key ∉ w.pool.pending.members := KeySet.isEmpty_iff.1 hpending
  obtain ⟨e, herror, -⟩ | ⟨-, -, hfolded⟩ | ⟨-, hpool⟩ := w.notify_cases keys
  · cases hok.symm.trans herror
  · obtain ⟨key, hkey⟩ := hkeys
    exact absurd (hfolded key hkey) (hnone key)
  · have hfresh : w.pool.fresh keys = keys := by
      refine KeySet.ext_mem fun key => ?_
      rw [WorkerPool.fresh, KeySet.mem_filter, Bool.not_eq_true', Bool.eq_false_iff, Ne,
        KeySet.contains_iff]
      exact and_iff_left (hnone key)
    rw [hpool, hfresh, List.isEmpty_iff.1 hqueue]
    rfl

end WorkSite

namespace ReportService

theorem queue_notify_of_isIdle {s : ReportService} {keys : KeySet String}
    (hidle : s.work.isIdle = true) (hok : (s.notify keys).1 = .ok ())
    (hkeys : ∃ key, key ∈ keys.members) : (s.notify keys).2.work.pool.queue = [⟨keys, 0⟩] := by
  have hsome : ¬keys.isEmpty = true := fun hnone => by
    obtain ⟨key, hkey⟩ := hkeys
    exact KeySet.isEmpty_iff.1 hnone key hkey
  unfold notify at hok ⊢
  rw [if_neg hsome] at hok ⊢
  split at hok
  · next work hnotify =>
    have hqueue := WorkSite.queue_notify_of_isIdle hidle (by rw [hnotify]) hkeys
    rw [hnotify] at hqueue
    exact hqueue
  · cases hok

/-- **All that belongs to a store is as it was.** -/
structure Kept (s : ReportService) (storeId : String) (t : ReportService) : Prop where
  /-- Its lines. -/
  lines : t.facts.linesOf storeId = s.facts.linesOf storeId
  /-- Their ids, and the headers of their orders. -/
  known : ∀ f ∈ s.facts.linesOf storeId, f.recordId ∈ t.facts.recordIds.members ∧
    t.facts.orders.get? f.orderId = s.facts.orders.get? f.orderId
  /-- Its entries. -/
  entries : ∀ id, id.storeId = storeId → t.partitions.entry? id = s.partitions.entry? id
  /-- What can be read of its partitions. -/
  reads : ∀ id, id.storeId = storeId →
    t.partitions.readPartition id = s.partitions.readPartition id
  /-- Which of them are pending. -/
  marks : ∀ id, id.storeId = storeId →
    t.partitions.pendingMark? id = s.partitions.pendingMark? id
  /-- Its slices. -/
  slices : ∀ p ∈ s.plans.values, p.isStoreScoped = true →
    t.rollups.get? ⟨p.name, storeId⟩ = s.rollups.get? ⟨p.name, storeId⟩

/-- **Nothing of a store is left**, and all that belongs to the other stores is as it was. -/
structure Purged (s : ReportService) (storeId : String) (t : ReportService) : Prop where
  /-- It has no lines. -/
  lines : ∀ f ∈ t.facts.lines, f.storeId ≠ storeId
  /-- The ids of its lines and orders are free. -/
  freed : ∀ f ∈ s.facts.linesOf storeId, f.recordId ∉ t.facts.recordIds.members ∧
    t.facts.orders.get? f.orderId = none
  /-- So they can be used again: lines that have them are taken in, if a service without lines would
  take them in. -/
  reusable : ∀ records, ({} : FactStore).Admits records →
    (∀ g ∈ records, (∃ f ∈ s.facts.linesOf storeId, f.recordId = g.recordId) ∧
      ∃ f ∈ s.facts.linesOf storeId, f.orderId = g.orderId) →
    ∃ facts keys, t.facts.append records = .ok (facts, keys)
  /-- It has no entries. -/
  entries : ∀ id, id.storeId = storeId → t.partitions.entry? id = none
  /-- It has no files: each table is that of an entry of another store, with rows of that store. -/
  files : ∀ place table, t.partitions.folder.nodes.get? place = some (.table table) →
    ∃ id e, id.storeId ≠ storeId ∧ t.partitions.entry? id = some e ∧
      t.partitions.folder.locate (FolderPath.ofText e.file) = .ok place ∧
      ∀ row ∈ table.rows, row.storeId = id.storeId
  /-- None of its partitions is pending. -/
  marks : ∀ id, id.storeId = storeId → t.partitions.pendingMark? id = none
  /-- It has no slices. -/
  slices : ∀ p ∈ s.plans.values, p.isStoreScoped = true → t.rollups.get? ⟨p.name, storeId⟩ = none
  /-- The slices from all lines are right. -/
  globals : ∀ p ∈ s.plans.values, p.isStoreScoped = false →
    t.rollups.Holds p globalScope t.facts.lines
  /-- All that belongs to the other stores is as it was. -/
  others : ∀ other, other ≠ storeId → Kept s other t

variable {s s' t : ReportService} {plans : List RebuildPlan} {L : List FactRecord → Prop}
  {storeId : String} {dates : List Date} {removed : Nat}

/-! ### Partitions -/

/-- **The partitions of a store that was purged are taken out**, and this cannot fail. -/
theorem cleared_purge (hL : ToldApart L) (h : Sound plans L [] s)
    (hlists : ∀ l ∈ s.lists (.purge storeId), L l)
    (hdates : s.facts.partitionDates storeId = .ok dates)
    (hwriting : s.writing? (.purge storeId) = some (t, s.partitionsOf storeId dates))
    (hfacts : t.facts = (s.facts.purge storeId).1) :
    Migration.Cleared L t.facts t.partitions (s.partitionsOf storeId dates).members
      (t.refreshPartitions (s.partitionsOf storeId dates)).partitions ∧
    (s.report? (.purge storeId)).all (·.failed.isEmpty) = true := by
  obtain ⟨hreport, heq⟩ := report?_of_writing? hwriting
  rw [heq] at hlists
  have hsound := h.writing hwriting
  have hnone : ∀ id ∈ (s.partitionsOf storeId dates).members, t.facts.partitionLines id = [] := by
    intro id hid
    rw [hfacts, FactStore.partitionLines_purge, if_pos ((h.mem_partitionsOf hdates).1 hid).1]
  have hclean := Migration.failed_of_no_lines hL hsound.partitions hsound.site.reachable.consistent
    hsound.available (KeySet.nodup_members _) hlists hnone
  rw [refreshPartitions_eq, hreport]
  exact ⟨Migration.cleared_foldl hL hsound.partitions hsound.site.reachable.consistent
    hsound.available (KeySet.nodup_members _) hlists hclean, List.isEmpty_iff.2 hclean⟩

/-- **The partitions of the store are gone**, and those of all other stores are as they were. -/
theorem partitions_purge (h : Sound plans L [] s) (hdates : s.facts.partitionDates storeId = .ok dates)
    (ht : t.partitions = (s.partitions.markPending (s.partitionsOf storeId dates).members).2)
    (hlines : ∀ id, id.storeId = storeId → t.facts.partitionLines id = []) {u : PartitionStore}
    (hcleared : Migration.Cleared L t.facts t.partitions (s.partitionsOf storeId dates).members u) :
    (∀ id, id.storeId = storeId → u.entry? id = none ∧ u.pendingMark? id = none) ∧
      ∀ id, id.storeId ≠ storeId → u.entry? id = s.partitions.entry? id ∧
        u.readPartition id = s.partitions.readPartition id ∧
        u.pendingMark? id = s.partitions.pendingMark? id := by
  have hmarked : ∀ id, t.partitions.marks.get? id =
      if id ∈ (s.partitionsOf storeId dates).members then some (s.partitions.markCount + 1)
      else s.partitions.marks.get? id := fun id => by
    rw [ht]
    exact PartitionStore.get?_markPending _ _ id
  constructor
  · intro id hstore
    by_cases hid : id ∈ (s.partitionsOf storeId dates).members
    · refine ⟨hcleared.gone id hid (hlines id hstore), ?_⟩
      unfold PartitionStore.pendingMark?
      rw [hcleared.marks, if_pos hid]
    · -- What was not touched was neither stored nor pending.
      have hnone : ¬(s.facts.partitionLines id ≠ [] ∨ s.partitions.manifest.get? id ≠ none) :=
        fun hsome => hid ((h.mem_partitionsOf hdates).2 ⟨hstore, hsome⟩)
      constructor
      · unfold PartitionStore.entry?
        rw [hcleared.entries id hid, ht]
        exact not_not.1 fun hsome => hnone (.inr hsome)
      · unfold PartitionStore.pendingMark?
        rw [hcleared.marks, if_neg hid, hmarked, if_neg hid]
        exact not_not.1 fun hsome => hnone (h.marks id List.not_mem_nil hsome)
  · intro id hother
    have hid : id ∉ (s.partitionsOf storeId dates).members :=
      fun hmem => hother ((h.mem_partitionsOf hdates).1 hmem).1
    refine ⟨?_, ?_, ?_⟩
    · unfold PartitionStore.entry?
      rw [hcleared.entries id hid, ht]
      rfl
    · rw [hcleared.readPartition hid, ht]
      rfl
    · unfold PartitionStore.pendingMark?
      rw [hcleared.marks, if_neg hid, hmarked, if_neg hid]

/-- **Every table is that of an entry**, with rows of the store of the entry. -/
theorem exists_entry_of_table (h : s.partitions.Tidy L) {place : Place} {table : FactTable}
    (hget : s.partitions.folder.nodes.get? place = some (.table table)) :
    ∃ id e, s.partitions.entry? id = some e ∧
      s.partitions.folder.locate (FolderPath.ofText e.file) = .ok place ∧
      ∀ row ∈ table.rows, row.storeId = id.storeId := by
  obtain ⟨file, hfile, hlocate⟩ := h.tables place table hget
  obtain ⟨id, e, hentry, rfl⟩ := hfile.resolve_right not_false
  obtain ⟨_, hfiled⟩ := h.entries id e hentry
  obtain ⟨node, hnode, hrows⟩ := hfiled.found
  obtain rfl : node = .table table :=
    Except.ok.inj (hnode.symm.trans (Folder.node_eq_ok.2 ⟨place, hlocate, hget⟩))
  exact ⟨id, e, hentry, hlocate, hrows⟩

/-! ### The job -/

/-- **The job of a notification** synchronises its stores. -/
theorem synced_job (hn : DistinctNames plans) (h : Sound plans L [] s) {keys : KeySet String}
    (hqueue : s.work.pool.queue = [⟨keys, 0⟩]) :
    (∃ p, s.work.site.Synced keys.members (s.perform .job).work.site p ∧
      (s.work.site.sync keys).1 = p.report) ∧
    (s.perform .job).partitions = s.partitions := by
  have htake : s.work.pool.takeJob? = some (⟨keys, 0⟩, { s.work.pool with queue := [] }) := by
    unfold WorkerPool.takeJob?
    rw [hqueue]
  have hjob : s.perform .job = s.runJob { s.work.pool with queue := [] } ⟨keys, 0⟩ := by
    simp only [perform, htake]
  obtain ⟨hwork, -, hpartitions⟩ := s.afterWork_frame
    ({ s.work with pool := { s.work.pool with queue := [] } }.runJob ⟨keys, 0⟩).2
    ({ s.work with pool := { s.work.pool with queue := [] } }.runJob ⟨keys, 0⟩).1
  obtain ⟨p, hsynced, hreport⟩ :=
    SyncSite.synced_sync (h.site.plans_eq ▸ hn) h.site.version_le keys
  have halike :=
    WorkSite.runJob_alike { s.work with pool := { s.work.pool with queue := [] } } ⟨keys, 0⟩
  rw [hjob]
  refine ⟨⟨p, ?_, hreport⟩, hpartitions⟩
  unfold runJob
  rw [hwork]
  exact hsynced.congr halike

/-- **When a store without lines was synchronised** its slices are gone, those from all lines are right,
and those of all other stores are as they were. -/
theorem slices_of_synced {w w' : SyncSite} {p : SyncSite.Progress}
    (h : w.Synced (KeySet.ofList [storeId]).members w' p) (hfailures : p.report.failures = [])
    (hnone : w.facts.linesOf storeId = []) {q : RebuildPlan} (hq : q ∈ w.synchronizer.plans) :
    (q.isStoreScoped = true → w'.rollups.get? ⟨q.name, storeId⟩ = none ∧
      ∀ other, other ≠ storeId → w'.rollups.get? ⟨q.name, other⟩ = w.rollups.get? ⟨q.name, other⟩) ∧
    (q.isStoreScoped = false → w'.rollups.Holds q globalScope w'.facts.lines) := by
  have hrebuilt {key : String} : key ∈ p.report.rebuilt ↔ key = storeId := by
    rw [h.mem_rebuilt_iff hfailures, KeySet.mem_ofList, List.mem_singleton]
  refine ⟨fun hscope => ⟨?_, fun other hother => ?_⟩, fun hscope => ?_⟩
  · have hholds := h.stores storeId (hrebuilt.2 rfl) q (Rebuild.mem_storePlans.2 ⟨hq, hscope⟩)
    rw [hnone] at hholds
    exact hholds.eq_none
  · exact h.others other (mt hrebuilt.1 hother) q (Rebuild.mem_storePlans.2 ⟨hq, hscope⟩)
  · have hholds := h.globals (List.ne_nil_of_mem (hrebuilt.2 rfl)) q
      (Rebuild.mem_globalPlans.2 ⟨hq, hscope⟩)
    rwa [← h.facts] at hholds

/-! ### Purges -/

/-- **A purge** on which nothing has failed before. -/
theorem purged_of_sound (hn : DistinctNames plans) (hL : ToldApart L) (h : Sound plans L [] s)
    (hlists : ∀ l ∈ s.lists (.purge storeId), L l) (hidle : s.work.isIdle = true)
    (hpurge : s.purge storeId = (.ok removed, s')) (hsome : 0 < removed) :
    s'.work.pool.queue = [⟨KeySet.ofList [storeId], 0⟩] ∧
    ((s'.work.site.sync (KeySet.ofList [storeId])).1.failures = [] →
      Purged s storeId (s'.perform .job)) := by
  obtain ⟨dates, t, hdates, -, hwriting, hs', hnoted⟩ := purge_eq_ok hpurge
  obtain ⟨ht, hok⟩ := hnoted (Nat.pos_iff_ne_zero.1 hsome)
  obtain ⟨halike, -, hpartitions⟩ := notify_frame ((s.withFacts (s.facts.purge storeId).1).markPending
    (s.partitionsOf storeId dates)) (KeySet.ofList [storeId])
  rw [← noted, ← ht] at halike hpartitions
  have hfacts : t.facts = (s.facts.purge storeId).1 := halike.facts
  obtain ⟨hcleared, hclean⟩ := cleared_purge hL h hlists hdates hwriting hfacts
  have hafter : Sound plans L [] s' := hs' ▸ h.written hL hwriting hlists hclean
  have hwork : s'.work = t.work := by rw [hs', refreshPartitions_eq]
  have hqueue : s'.work.pool.queue = [⟨KeySet.ofList [storeId], 0⟩] := by
    rw [hwork, ht]
    exact queue_notify_of_isIdle hidle hok ⟨storeId, KeySet.mem_ofList.2 List.mem_cons_self⟩
  refine ⟨hqueue, fun hfailures => ?_⟩
  obtain ⟨⟨p, hsynced, hreport⟩, hstored⟩ := synced_job hn hafter hqueue
  generalize s'.perform .job = u at hsynced hstored ⊢
  have hs : s.facts.Consistent := h.site.reachable.consistent
  have hlines : u.facts = (s.facts.purge storeId).1 := by
    rw [← hfacts]
    exact hsynced.facts.trans (congrArg (·.site.facts) hwork)
  rw [hreport] at hfailures
  have hnone : s'.work.site.facts.linesOf storeId = [] := by
    rw [← hsynced.facts]
    show u.facts.linesOf storeId = []
    rw [hlines, FactStore.linesOf_purge, if_pos rfl]
  have hslices {q : RebuildPlan} (hq : q ∈ s.plans.values) :=
    slices_of_synced hsynced hfailures hnone (q := q)
      (by rw [hafter.site.plans_eq, ← h.plans_eq]; exact hq)
  have hrollups : s'.work.site.rollups = s.work.site.rollups := by
    rw [hwork]
    exact halike.rollups
  -- The partitions are those that the refresh has left.
  have hleft : u.partitions = (t.refreshPartitions (s.partitionsOf storeId dates)).partitions :=
    hs' ▸ hstored
  obtain ⟨hgone, hkept⟩ := partitions_purge h hdates hpartitions (fun id hid => by
    rw [hfacts, FactStore.partitionLines_purge, if_pos hid]) hcleared
  rw [← hleft] at hgone hkept
  constructor
  · rw [hlines]
    exact fun f hf => (hs.mem_lines_purge.1 hf).2
  · rw [hlines]
    exact fun f hf => hs.freed_purge hf
  · rw [hlines]
    exact fun records hadmits hids => hs.exists_append_purge h.available hadmits hids
  · exact fun id hid => (hgone id hid).1
  · intro place table hget
    have htidy : u.partitions.Tidy L := hstored ▸ hafter.partitions
    obtain ⟨id, e, hentry, hlocate, hrows⟩ := exists_entry_of_table htidy hget
    refine ⟨id, e, fun hid => ?_, hentry, hlocate, hrows⟩
    rw [(hgone id hid).1] at hentry
    cases hentry
  · exact fun id hid => (hgone id hid).2
  · exact fun q hq hscope => ((hslices hq).1 hscope).1
  · exact fun q hq hscope => (hslices hq).2 hscope
  · intro other hother
    refine ⟨?_, fun f hf => ?_, fun id hid => (hkept id (hid ▸ hother)).1,
      fun id hid => (hkept id (hid ▸ hother)).2.1, fun id hid => (hkept id (hid ▸ hother)).2.2,
      fun q hq hscope => ?_⟩
    · rw [hlines, FactStore.linesOf_purge, if_neg hother]
    · obtain ⟨hmem, rfl⟩ := hs.mem_linesOf.1 hf
      rw [hlines]
      exact hs.known_purge hmem hother
    · have hsame := ((hslices hq).1 hscope).2 other hother
      rw [hrollups] at hsame
      exact hsame

/-- **A purge is complete.**  After any run in which nothing has failed, once the workers have nothing
left to do, a purge that removes some lines of a store queues one job, for this store alone; and when
this job has run and has not failed, nothing of the store is left, the slices from all lines are right,
and all that belongs to the other stores is as it was. -/
theorem purge_complete {config : ReportConfig} {formulas : FormulaTable} {today : Date}
    {ops : List ServiceOp} (hbuild : build config formulas {} today = .ok s)
    (hflawless : (s.run ops).flawless = true) (hidle : (s.run ops).service.work.isIdle = true)
    (hhash : (s.run (ops ++ [.purge storeId])).Apart)
    (hpurge : (s.run ops).service.purge storeId = (.ok removed, s')) (hsome : 0 < removed) :
    s'.work.pool.queue = [⟨KeySet.ofList [storeId], 0⟩] ∧
    ((s'.work.site.sync (KeySet.ofList [storeId])).1.failures = [] →
      Purged (s.run ops).service storeId (s'.perform .job)) := by
  rw [run_concat] at hhash
  have hsub := lists_subset_step (s.run ops) (.purge storeId)
  have hn : DistinctNames s.plans.values := (sound_build (L := fun _ => True) hbuild).1
  have hsound := sound_run hn (fun L => (sound_build (L := L) hbuild).2) hflawless
    fun l l' hl hl' => hhash l l' (hsub l hl) (hsub l' hl')
  exact purged_of_sound hn hhash (hsound.mono hsub) (fun l hl => List.mem_append_right _ hl) hidle
    hpurge hsome

/-- A service with a rollup by store and one by channel, in spring. -/
def springService : Except ReportError ReportService :=
  build { catalog := Compile.priceCatalog,
          schemas := [Compile.revenueSchema [],
            { Compile.revenueSchema [] with name := "by_channel", groupBy := [.channel] }] }
    .builtins {} { year := 2025, month := 4, day := 1 }

/-- Each of two stores has sold something on New Year's Day, and all is brought up to date. -/
def soldInBoth : List ServiceOp :=
  [.start, .ingest [sampleLine "S1" "r1"], .ingest [sampleLine "S2" "r2"], .job, .job, .migrate]

set_option maxRecDepth 20000 in
/-- The first store is purged. -/
theorem purge_complete_soldInBoth : ∃ s s', springService = .ok s ∧
    (s.run soldInBoth).flawless = true ∧ (s.run soldInBoth).service.work.isIdle = true ∧
    (s.run (soldInBoth ++ [.purge "S1"])).Apart ∧
    (s.run soldInBoth).service.purge "S1" = (.ok 1, s') ∧
    (s'.work.site.sync (KeySet.ofList ["S1"])).1.failures = [] ∧
    ((s.run soldInBoth).service.partitions.entry? newYearsDay).isSome = true ∧
    Purged (s.run soldInBoth).service "S1" (s'.perform .job) := by
  obtain ⟨s, hbuild, hflawless, hidle, hhash, hremoved, hfailures, hstored⟩ : ∃ s,
      springService = .ok s ∧ (s.run soldInBoth).flawless = true ∧
      (s.run soldInBoth).service.work.isIdle = true ∧
      (s.run (soldInBoth ++ [.purge "S1"])).Apart ∧
      ((s.run soldInBoth).service.purge "S1").1 = .ok 1 ∧
      (((s.run soldInBoth).service.purge "S1").2.work.site.sync
        (KeySet.ofList ["S1"])).1.failures = [] ∧
      ((s.run soldInBoth).service.partitions.entry? newYearsDay).isSome = true :=
    Except.exists_ok (by decide +kernel)
  have hpurge : (s.run soldInBoth).service.purge "S1" =
      (.ok 1, ((s.run soldInBoth).service.purge "S1").2) := Prod.ext hremoved rfl
  obtain ⟨-, hpurged⟩ := purge_complete hbuild hflawless hidle hhash hpurge Nat.one_pos
  exact ⟨s, _, hbuild, hflawless, hidle, hhash, hpurge, hfailures, hstored, hpurged hfailures⟩

end ReportService

end RetailReport
