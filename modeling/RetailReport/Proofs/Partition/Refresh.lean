import RetailReport.Proofs.Fact.History
import RetailReport.Proofs.Partition.History

/-!
# What bringing partitions up to date does

A migration goes over some partitions, one after the other.  Each of them either follows the lines of
the fact store, or is reported as failed and stays as it was, with a reason.  Following means being
replaced if the day is over and being appended to if it is not, so a partition of a day that is not
over keeps whatever it held before.

## Main definitions

* `PartitionStore.Stale`: a partition holds lines that the fact store does not have.
* `Migration.Hindered`: why a partition cannot be brought up to date.
* `Migration.Migrated`: some partitions were brought up to date, or reported as failed.

## Main results

* `Migration.content_followed_eq_iff`: when following means holding the lines of the fact store.
* `Migration.migrateOne_cases`: one partition.
* `Migration.migrated_refresh`, `Migration.migrated_pass`: all of them.
-/

namespace RetailReport

open PartitionStore

/-! ### Lists of lines -/

theorem pairwise_canonicalSort (l : List FactRecord) :
    (canonicalSort l).Pairwise fun f g => ¬g.recordId < f.recordId := by
  have hsorted : (canonicalSort l).Pairwise fun f g => (!decide (g.recordId < f.recordId)) = true := by
    refine List.pairwise_mergeSort ?_ ?_ l
    · intro f g k hfg hgk
      simp only [Bool.not_eq_eq_eq_not, Bool.not_true, decide_eq_false_iff_not,
        String.not_lt] at *
      exact String.le_trans hfg hgk
    · intro f g
      simp only [Bool.or_eq_true, Bool.not_eq_eq_eq_not, Bool.not_true, decide_eq_false_iff_not,
        String.not_lt]
      exact String.le_total _ _
  exact hsorted.imp fun h => by simpa using h

/-- Lines with ids of their own have one order only. -/
theorem canonicalSort_perm {l l' : List FactRecord} (h : l.Perm l')
    (hid : (l.map (·.recordId)).Nodup) : canonicalSort l = canonicalSort l' := by
  have hperm : (canonicalSort l).Perm (canonicalSort l') :=
    (List.mergeSort_perm _ _).trans (h.trans (List.mergeSort_perm _ _).symm)
  refine hperm.eq_of_pairwise ?_ (pairwise_canonicalSort l) (pairwise_canonicalSort l')
  intro f g hf hg hfg hgf
  exact List.inj_on_of_nodup_map hid (List.mem_mergeSort.1 hf)
    (h.mem_iff.2 (List.mem_mergeSort.1 hg)) (KeyOrder.eq_of_not_lt hgf hfg)

/-- Lines are stored alike exactly if they are the same. -/
theorem content_eq_iff {l l' : List FactRecord} (hid : (l.map (·.recordId)).Nodup) :
    content l = content l' ↔ l.Perm l' := by
  constructor
  · intro h
    exact (getD_content_perm l).symm.trans (h ▸ getD_content_perm l')
  · intro h
    simp only [content, h.isEmpty_eq, canonicalSort_perm h hid]

/-- Of lines with ids of their own, those are passed over whose ids are taken. -/
theorem additions_of_nodup (stored : List FactRecord) {lines : List FactRecord}
    (hid : (lines.map (·.recordId)).Nodup) : additions stored lines =
      lines.filter fun f => f.recordId ∉ stored.map (·.recordId) := by
  unfold additions
  have hid' := hid.sublist ((List.filter_sublist (p := fun f : FactRecord =>
    decide (f.recordId ∉ stored.map (·.recordId)))).map (·.recordId))
  generalize lines.filter (fun f => f.recordId ∉ stored.map (·.recordId)) = l at hid' ⊢
  induction l with
  | nil => rfl
  | cons f l ih =>
    rw [List.map_cons, List.nodup_cons] at hid'
    rw [List.eraseDupsBy_cons, List.filter_eq_self.2, ih hid'.2]
    intro g hg
    have hne : g.recordId ≠ f.recordId := fun e => hid'.1 (e ▸ List.mem_map_of_mem hg)
    simpa using hne

namespace FactStore

variable {facts : FactStore} {id : PartitionId}

/-- No two lines of a partition share an id. -/
theorem Consistent.nodup_partitionLines (hfacts : facts.Consistent) (id : PartitionId) :
    ((facts.partitionLines id).map (·.recordId)).Nodup :=
  hfacts.nodup.sublist ((List.filter_sublist.trans (facts.linesOf_sublist id.storeId)).map _)

theorem mem_lines_of_mem_partitionLines {f : FactRecord} (h : f ∈ facts.partitionLines id) :
    f ∈ facts.lines :=
  (facts.linesOf_sublist id.storeId).mem (List.mem_filter.1 h).1

/-- The lines of a partition belong to it. -/
theorem Consistent.holds_of_mem_partitionLines (hfacts : facts.Consistent) {f : FactRecord}
    (h : f ∈ facts.partitionLines id) : id.holds f = true := by
  obtain ⟨hf, hdate⟩ := List.mem_filter.1 h
  rw [PartitionId.holds, hfacts.storeId_of_mem hf]
  simpa using hdate

end FactStore

/-! ### What a partition holds that follows some lines -/

namespace PartitionStore

variable {s t : PartitionStore} {L : List FactRecord → Prop} {id : PartitionId}

/-- **A partition is stale** if it holds a line that the fact store does not have. -/
def Stale (s : PartitionStore) (facts : FactStore) (id : PartitionId) : Prop :=
  ∃ stored, s.readPartition id = .ok (some stored) ∧ ∃ f ∈ stored, f ∉ facts.partitionLines id

/-- Every partition can be read. -/
theorem Sound.exists_stored (hs : s.Sound L) (id : PartitionId) :
    ∃ stored, s.readPartition id = .ok stored ∧ ∀ l, stored = some l → L l := by
  cases hget : s.manifest.get? id with
  | none =>
    refine ⟨none, ?_, nofun⟩
    unfold readPartition
    simp only [hget]
  | some e =>
    obtain ⟨lines, hstored⟩ := hs.entries id e hget
    refine ⟨some lines, hstored.readPartition hget, ?_⟩
    intro l hl
    exact Option.some.inj hl ▸ hstored.allowed

end PartitionStore

namespace Migration

variable {s t : PartitionStore} {L : List FactRecord → Prop} {id : PartitionId}
  {lines : List FactRecord} {stored : Option (List FactRecord)} {facts : FactStore}

/-- What a partition is to hold depends on the business day and on what it holds. -/
theorem followed_congr (hs : s.Sound L) (htoday : t.today = s.today)
    (hread : t.readPartition id = s.readPartition id) (lines : List FactRecord) :
    followed t id lines = followed s id lines := by
  obtain ⟨stored, hstored, -⟩ := hs.exists_stored id
  unfold followed
  rw [appended_eq hstored, appended_eq (hread.trans hstored), isClosed, isClosed, htoday]

/-- A partition of a day that is not over is appended to. -/
theorem followed_eq (hread : s.readPartition id = .ok stored)
    (hopen : s.isClosed id.date = false) (hlines : lines ≠ [])
    (hid : (lines.map (·.recordId)).Nodup) : followed s id lines = stored.getD [] ++
      lines.filter fun f => f.recordId ∉ (stored.getD []).map (·.recordId) := by
  have hne : lines.isEmpty = false := Bool.eq_false_iff.2 (mt List.isEmpty_iff.1 hlines)
  unfold followed
  rw [hne, hopen, Bool.or_false, if_neg Bool.false_ne_true, appended_eq hread,
    additions_of_nodup _ hid]

/-- All that a partition is to hold is stored, or among the lines that it follows. -/
theorem mem_followed {f : FactRecord} (hread : s.readPartition id = .ok stored)
    (h : f ∈ followed s id lines) : f ∈ stored.getD [] ∨ f ∈ lines := by
  unfold followed at h
  split at h
  · exact .inr h
  · rw [appended_eq hread] at h
    exact (List.mem_append.1 h).imp_right PartitionHistory.mem_of_mem_additions

/-- No two lines that a partition is to hold share an id. -/
theorem nodup_followed (hread : s.readPartition id = .ok stored)
    (hstored : ((stored.getD []).map (·.recordId)).Nodup)
    (hid : (lines.map (·.recordId)).Nodup) :
    ((followed s id lines).map (·.recordId)).Nodup := by
  by_cases hplain : lines.isEmpty || s.isClosed id.date
  · rwa [followed, if_pos hplain]
  · rw [Bool.or_eq_true, not_or, Bool.not_eq_true] at hplain
    rw [followed_eq hread (Bool.eq_false_iff.2 hplain.2) (fun h => by simp [h] at hplain) hid,
      List.map_append, List.nodup_append']
    refine ⟨hstored, hid.sublist (List.filter_sublist.map _), ?_⟩
    intro k hk hk'
    obtain ⟨f, hf, rfl⟩ := List.mem_map.1 hk'
    exact of_decide_eq_true (List.mem_filter.1 hf).2 hk

/-- **When following means holding the same lines**: if the day is over, if there are no lines, or if
nothing is stored but lines that are to be followed. -/
theorem content_followed_eq_iff (hread : s.readPartition id = .ok stored)
    (hstored : ((stored.getD []).map (·.recordId)).Nodup)
    (hid : (lines.map (·.recordId)).Nodup) :
    content (followed s id lines) = content lines ↔
      s.isClosed id.date = true ∨ lines = [] ∨ ∀ f ∈ stored.getD [], f ∈ lines := by
  by_cases hclosed : s.isClosed id.date = true
  · exact iff_of_true (by rw [followed_of_isClosed hclosed]) (.inl hclosed)
  by_cases hlines : lines = []
  · refine iff_of_true ?_ (.inr (.inl hlines))
    rw [hlines]
    rfl
  have hopen : s.isClosed id.date = false := Bool.eq_false_iff.2 hclosed
  rw [content_eq_iff (nodup_followed hread hstored hid), followed_eq hread hopen hlines hid]
  constructor
  · intro hperm
    exact .inr (.inr fun f hf => hperm.mem_iff.1 (List.mem_append_left _ hf))
  · intro h
    have hsub : ∀ f ∈ stored.getD [], f ∈ lines := (h.resolve_left hclosed).resolve_left hlines
    -- A line whose id is stored is stored itself, since no two lines share an id.
    have hnodup := nodup_followed hread hstored hid
    rw [followed_eq hread hopen hlines hid] at hnodup
    refine (List.perm_ext_iff_of_nodup (.of_map _ hnodup) (.of_map _ hid)).2 fun f => ?_
    rw [List.mem_append, List.mem_filter, decide_eq_true_eq]
    constructor
    · rintro (hf | ⟨hf, -⟩)
      · exact hsub f hf
      · exact hf
    · intro hf
      by_cases htaken : f.recordId ∈ (stored.getD []).map (·.recordId)
      · obtain ⟨g, hg, he⟩ := List.mem_map.1 htaken
        exact .inl (List.inj_on_of_nodup_map hid (hsub g hg) hf he ▸ hg)
      · exact .inr ⟨hf, htaken⟩

/-! ### One partition -/

/-- **Why a partition cannot be brought up to date.** -/
inductive Hindered (facts : FactStore) (s : PartitionStore) (id : PartitionId) : Prop
  /-- The fact store cannot be read. -/
  | unavailable : facts.available = false → Hindered facts s id
  /-- A moment of a line that the partition is to hold does not fit a word. -/
  | outOfRange {f : FactRecord} : f ∈ followed s id (facts.partitionLines id) →
      FactTable.fitsWord f.timestamp.nanos = false → Hindered facts s id
  /-- A file cannot be written or moved. -/
  | files {cause : FolderError} : FileFault s.folder s.manifestPath s.manifest id
      (canonicalSort (followed s id (facts.partitionLines id))) cause → Hindered facts s id

/-- **A partition that does not follow its lines** is hindered. -/
theorem hindered_of_follow (hs : s.Sound L) (hfacts : facts.Consistent) {error : PartitionError}
    (h : (follow s id (facts.partitionLines id)).1 = .error error) : Hindered facts s id := by
  have hown : checkFacts id (facts.partitionLines id) = .ok () :=
    checkFacts_eq_ok.2 fun _ hf => hfacts.holds_of_mem_partitionLines hf
  obtain ⟨stored, hread, -⟩ := hs.exists_stored id
  have hstored := storedFacts_of_readPartition hread
  obtain ⟨_, -, hcheck | hunread, -⟩ | ⟨-, heq⟩ := follow_cases s id (facts.partitionLines id)
  · rw [hown] at hcheck
    cases hcheck
  · rw [hstored] at hunread
    cases hunread
  · rw [heq] at h
    obtain ⟨cause, -, hfault⟩ | ⟨⟨f, hf, hfits, -⟩, -⟩ :=
      spared_of_replace hs.tree (Except.map_eq_error.1 h)
    · exact .files hfault
    · exact .outOfRange hf hfits

/-- What a store shows after a change, whatever is pending. -/
structure Shows (L : List FactRecord → Prop) (s s' : PartitionStore)
    (read : PartitionId → Except PartitionError (Option (List FactRecord))) : Prop where
  /-- It is in order. -/
  sound : s'.Sound L
  /-- The business day is the same. -/
  today : s'.today = s.today
  /-- What can be read of each partition. -/
  reads : ∀ id, s'.readPartition id = read id

theorem scan_of_available (h : facts.available = true) (id : PartitionId) :
    scan facts id = .ok (facts.partitionLines id) := by
  unfold scan FactStore.scanPartition FactStore.check
  rw [if_pos h]
  rfl

theorem scan_of_unavailable (h : facts.available = false) (id : PartitionId) :
    ∃ error, scan facts id = .error error := by
  unfold scan FactStore.scanPartition FactStore.check
  rw [if_neg (Bool.eq_false_iff.1 h)]
  exact ⟨_, rfl⟩

theorem failed_report (r : MigrationReport) (o : Outcome) (stored : Bool) :
    (report r o stored).failed = r.failed := by
  cases o with
  | written | removed => rfl
  | kept => cases stored <;> rfl

/-- **One partition is brought up to date**, or it is hindered, reported as failed, and holds what it
held before. -/
theorem migrateOne_cases (hL : Storable L) (hs : s.Sound L) (hfacts : facts.Consistent)
    (hallowed : facts.available = true →
      L (canonicalSort (followed s id (facts.partitionLines id)))) (r : MigrationReport) :
    (migrateOne facts (s, r) id).2.failed = r.failed ∧
        Shows L s (migrateOne facts (s, r) id).1 (Function.update s.readPartition id
          (.ok (content (followed s id (facts.partitionLines id))))) ∨
      (migrateOne facts (s, r) id).2.failed = r.failed ++ [id] ∧ Hindered facts s id ∧
        Shows L s (migrateOne facts (s, r) id).1 s.readPartition := by
  unfold migrateOne
  cases havailable : facts.available with
  | false =>
    obtain ⟨error, hscan⟩ := scan_of_unavailable havailable id
    simp only [hscan, true_and]
    exact .inr ⟨.unavailable havailable, hs, rfl, fun _ => rfl⟩
  | true =>
    simp only [scan_of_available havailable]
    have hreplaces : Replaces L s id (content (followed s id (facts.partitionLines id)))
        (follow s id (facts.partitionLines id)) := replaces_follow hL hs fun _ => hallowed havailable
    cases houtcome : (follow s id (facts.partitionLines id)).1 with
    | ok o =>
      have hbecomes := hreplaces.of_ok houtcome
      refine .inl ⟨failed_report .., hbecomes.sound.clearPending _ _, ?_, ?_⟩
      · exact (today_clearPending _ _ _).trans hbecomes.today
      · intro id'
        rw [readPartition_clearPending]
        exact hbecomes.reads id'
    | error e =>
      have hbecomes := hreplaces.of_error houtcome
      exact .inr ⟨rfl, hindered_of_follow hs hfacts houtcome, hbecomes.sound, hbecomes.today,
        hbecomes.reads⟩

/-! ### Several partitions -/

/-- The lists that partitions are to hold that are brought up to date. -/
def attempts (facts : FactStore) (s : PartitionStore) (ids : List PartitionId) :
    List (List FactRecord) :=
  if facts.available then
    ids.map fun id => canonicalSort (followed s id (facts.partitionLines id))
  else []

theorem mem_attempts {ids : List PartitionId} {l : List FactRecord} :
    l ∈ attempts facts s ids ↔ facts.available = true ∧
      ∃ id ∈ ids, canonicalSort (followed s id (facts.partitionLines id)) = l := by
  unfold attempts
  split
  · next h => simp [h]
  · next h => simp [h]

/-- **Some partitions were brought up to date**, or reported as failed. -/
structure Migrated (L : List FactRecord → Prop) (facts : FactStore) (s : PartitionStore)
    (ids : List PartitionId) (s' : PartitionStore) (failed : List PartitionId) : Prop where
  /-- The store is in order. -/
  sound : s'.Sound L
  /-- The business day is the same. -/
  today : s'.today = s.today
  /-- No other partitions have failed. -/
  mem : ∀ id ∈ failed, id ∈ ids
  /-- Those that have not failed follow the lines of the fact store. -/
  follows : ∀ id ∈ ids, id ∉ failed →
    s'.readPartition id = .ok (content (followed s id (facts.partitionLines id)))
  /-- All others hold what they held before. -/
  kept : ∀ id, id ∉ ids ∨ id ∈ failed → s'.readPartition id = s.readPartition id

variable {ids : List PartitionId} {failed : List PartitionId}

theorem migrated_nil (hs : s.Sound L) (facts : FactStore) : Migrated L facts s [] s [] where
  sound := hs
  today := rfl
  mem _ h := h
  follows _ h := absurd h List.not_mem_nil
  kept _ _ := rfl

/-- What becomes of one more partition, of which nothing has changed yet. -/
theorem Migrated.cases (h : Migrated L facts s ids t failed) (hL : Storable L) (hs : s.Sound L)
    (hfacts : facts.Consistent) (hid : id ∉ ids)
    (hallowed : ∀ l ∈ attempts facts s (ids ++ [id]), L l) (r : MigrationReport) :
    (migrateOne facts (t, r) id).2.failed = r.failed ∧
        Shows L t (migrateOne facts (t, r) id).1 (Function.update t.readPartition id
          (.ok (content (followed s id (facts.partitionLines id))))) ∨
      (migrateOne facts (t, r) id).2.failed = r.failed ++ [id] ∧ Hindered facts t id ∧
        Shows L t (migrateOne facts (t, r) id).1 t.readPartition := by
  have hsame := followed_congr hs h.today (h.kept id (.inl hid)) (facts.partitionLines id)
  rw [← hsame]
  refine migrateOne_cases hL h.sound hfacts (fun havailable => ?_) r
  rw [hsame]
  exact hallowed _ (mem_attempts.2 ⟨havailable, id, by simp, rfl⟩)

/-- **One more partition** is brought up to date, or reported as failed. -/
theorem Migrated.step (h : Migrated L facts s ids t failed) (hL : Storable L) (hs : s.Sound L)
    (hfacts : facts.Consistent) (hid : id ∉ ids)
    (hallowed : ∀ l ∈ attempts facts s (ids ++ [id]), L l) {r : MigrationReport}
    (hr : r.failed = failed) :
    Migrated L facts s (ids ++ [id]) (migrateOne facts (t, r) id).1
      (migrateOne facts (t, r) id).2.failed := by
  have hread : t.readPartition id = s.readPartition id := h.kept id (.inl hid)
  have hnotFailed : id ∉ failed := fun hmem => hid (h.mem id hmem)
  -- Either the partition follows its lines now, or it has failed and holds what it held.
  obtain ⟨hfailed, hshows⟩ | ⟨hfailed, -, hshows⟩ := h.cases hL hs hfacts hid hallowed r
  · rw [hfailed, hr]
    refine ⟨hshows.sound, hshows.today.trans h.today, ?_, ?_, ?_⟩
    · intro id' hid'
      exact List.mem_append_left _ (h.mem id' hid')
    · intro id' hid' hnot
      rw [hshows.reads, Function.update_apply]
      split
      · next e => rw [e]
      · next hne =>
        have hold : id' ∈ ids := by simpa [hne] using hid'
        exact h.follows id' hold hnot
    · intro id' hcases
      rw [hshows.reads, Function.update_apply, if_neg]
      · exact h.kept id' (hcases.imp_left fun hnot hmem => hnot (List.mem_append_left _ hmem))
      · rintro rfl
        exact hcases.elim (fun hnot => hnot (List.mem_append_right _ List.mem_cons_self)) hnotFailed
  · rw [hfailed, hr]
    refine ⟨hshows.sound, hshows.today.trans h.today, ?_, ?_, ?_⟩
    · intro id' hid'
      exact List.mem_append.2 ((List.mem_append.1 hid').imp_left (h.mem id'))
    · intro id' hid' hnot
      rw [List.mem_append, not_or, List.mem_singleton] at hnot
      have hold : id' ∈ ids := by simpa [hnot.2] using hid'
      rw [hshows.reads]
      exact h.follows id' hold hnot.1
    · intro id' hcases
      rw [hshows.reads]
      by_cases he : id' = id
      · rw [he, hread]
      · refine h.kept id' (hcases.imp (fun hnot hmem => hnot (List.mem_append_left _ hmem)) ?_)
        intro hmem
        simpa [he] using hmem

theorem attempts_append_left {ids more : List PartitionId} {l : List FactRecord}
    (h : l ∈ attempts facts s ids) : l ∈ attempts facts s (ids ++ more) := by
  rw [mem_attempts] at h ⊢
  obtain ⟨havailable, id, hid, rfl⟩ := h
  exact ⟨havailable, id, List.mem_append_left _ hid, rfl⟩

/-- Partitions one after the other. -/
theorem migrated_foldl (hL : Storable L) (hs : s.Sound L) (hfacts : facts.Consistent)
    (hids : ids.Nodup) (hallowed : ∀ l ∈ attempts facts s ids, L l) :
    Migrated L facts s ids (ids.foldl (migrateOne facts) (s, {})).1
      (ids.foldl (migrateOne facts) (s, {})).2.failed := by
  induction ids using List.reverseRecOn with
  | nil => exact migrated_nil hs facts
  | append_singleton ids id ih =>
    obtain ⟨hnodup, -, hdisjoint⟩ := List.nodup_append'.1 hids
    have hid : id ∉ ids := fun hmem => hdisjoint hmem List.mem_cons_self
    rw [List.foldl_append]
    exact (ih hnodup fun l hl => hallowed l (attempts_append_left hl)).step hL hs hfacts hid
      hallowed rfl

/-- **A refresh** goes over the partitions that it is given. -/
theorem migrated_refresh (hL : Storable L) (hs : s.Sound L) (hfacts : facts.Consistent)
    {ids : KeySet PartitionId} (hallowed : ∀ l ∈ attempts facts s ids.members, L l) :
    Migrated L facts s ids.members (refresh facts s ids).1 (refresh facts s ids).2.failed :=
  migrated_foldl hL hs hfacts (KeySet.nodup_members ids) hallowed

/-- **A partition that has failed** was hindered when its turn came. -/
theorem hindered_of_mem_failed (hL : Storable L) (hs : s.Sound L) (hfacts : facts.Consistent)
    (hids : ids.Nodup) (hallowed : ∀ l ∈ attempts facts s ids, L l)
    (h : id ∈ (ids.foldl (migrateOne facts) (s, {})).2.failed) :
    ∃ early late, ids = early ++ id :: late ∧
      Hindered facts (early.foldl (migrateOne facts) (s, {})).1 id := by
  induction ids using List.reverseRecOn with
  | nil => cases h
  | append_singleton ids id' ih =>
    obtain ⟨hnodup, -, hdisjoint⟩ := List.nodup_append'.1 hids
    have hid : id' ∉ ids := fun hmem => hdisjoint hmem List.mem_cons_self
    have hearly : ∀ l ∈ attempts facts s ids, L l := fun l hl => hallowed l (attempts_append_left hl)
    rw [List.foldl_append] at h
    -- It was the last one, or one of those before.
    have hcases : id ∈ (ids.foldl (migrateOne facts) (s, {})).2.failed ∨
        id = id' ∧ Hindered facts (ids.foldl (migrateOne facts) (s, {})).1 id' := by
      obtain ⟨hfailed, -⟩ | ⟨hfailed, hhindered, -⟩ :=
        (migrated_foldl hL hs hfacts hnodup hearly).cases hL hs hfacts hid hallowed
          (ids.foldl (migrateOne facts) (s, {})).2
      · exact .inl (hfailed ▸ h)
      · refine (List.mem_append.1 (hfailed ▸ h)).imp_right fun hlast => ?_
        exact ⟨List.mem_singleton.1 hlast, hhindered⟩
    obtain hbefore | ⟨rfl, hhindered⟩ := hcases
    · obtain ⟨early, late, rfl, hhindered⟩ := ih hnodup hearly hbefore
      exact ⟨early, late ++ [id'], by simp, hhindered⟩
    · exact ⟨ids, [], rfl, hhindered⟩

/-! ### A pass -/

/-- Whether a pass leaves a partition out, since its day is not over. -/
def skips (includeOpen : Bool) (live : KeySet PartitionId) (s : PartitionStore) (id : PartitionId) :
    Bool :=
  live.contains id && !s.isClosed id.date && !includeOpen

theorem visit_of_skips {includeOpen : Bool} {live : KeySet PartitionId} {r : MigrationReport}
    (h : skips includeOpen live s id = true) :
    visit facts includeOpen live (s, r) id = (s, { r with skippedOpen := r.skippedOpen + 1 }) :=
  if_pos h

theorem visit_of_not_skips {includeOpen : Bool} {live : KeySet PartitionId} {r : MigrationReport}
    (h : skips includeOpen live s id = false) :
    visit facts includeOpen live (s, r) id = migrateOne facts (s, r) id :=
  if_neg (Bool.eq_false_iff.1 h)

/-- Whether a partition is left out depends on the business day. -/
theorem skips_congr {includeOpen : Bool} {live : KeySet PartitionId} (htoday : t.today = s.today) :
    skips includeOpen live t id = skips includeOpen live s id := by
  rw [skips, skips, isClosed, isClosed, htoday]

/-- The partitions that a pass brings up to date. -/
def visited (facts : FactStore) (s : PartitionStore) (includeOpen : Bool) : List PartitionId :=
  match livePartitions facts with
  | .ok live => (targets s live).members.filter fun id => !skips includeOpen live s id
  | .error _ => []

theorem migrated_visit (hL : Storable L) (hs : s.Sound L) (hfacts : facts.Consistent)
    (includeOpen : Bool) (live : KeySet PartitionId) (hids : ids.Nodup)
    (hallowed : ∀ l ∈ attempts facts s (ids.filter fun id => !skips includeOpen live s id), L l) :
    Migrated L facts s (ids.filter fun id => !skips includeOpen live s id)
      (ids.foldl (visit facts includeOpen live) (s, {})).1
      (ids.foldl (visit facts includeOpen live) (s, {})).2.failed := by
  induction ids using List.reverseRecOn with
  | nil => exact migrated_nil hs facts
  | append_singleton ids id ih =>
    obtain ⟨hnodup, -, hdisjoint⟩ := List.nodup_append'.1 hids
    have hid : id ∉ ids := fun hmem => hdisjoint hmem List.mem_cons_self
    rw [List.filter_append] at hallowed ⊢
    have hbefore := ih hnodup fun l hl => hallowed l (attempts_append_left hl)
    rw [List.foldl_append]
    generalize ids.foldl (visit facts includeOpen live) (s, {}) = step at hbefore ⊢
    obtain ⟨t, r⟩ := step
    -- Whether a partition is passed over depends on the business day, which stays the same.
    have hskips : skips includeOpen live t id = skips includeOpen live s id :=
      skips_congr hbefore.today
    show Migrated _ _ _ _ (visit facts includeOpen live (t, r) id).1
      (visit facts includeOpen live (t, r) id).2.failed
    cases hskip : skips includeOpen live s id with
    | true =>
      rw [visit_of_skips (hskips.trans hskip), List.filter_cons_of_neg (by simp [hskip]), List.filter_nil, List.append_nil]
      exact hbefore
    | false =>
      rw [List.filter_cons_of_pos (by simp [hskip]), List.filter_nil] at hallowed ⊢
      rw [visit_of_not_skips (hskips.trans hskip)]
      exact hbefore.step hL hs hfacts (fun hmem => hid (List.mem_filter.1 hmem).1) hallowed rfl

/-- **A pass** goes over its partitions. -/
theorem migrated_pass (hL : Storable L) (hs : s.Sound L) (hfacts : facts.Consistent)
    {includeOpen : Bool} (hallowed : ∀ l ∈ attempts facts s (visited facts s includeOpen), L l) :
    ∃ failed, Migrated L facts s (visited facts s includeOpen) (pass facts s includeOpen).2
      failed := by
  unfold visited pass at *
  cases hlive : livePartitions facts with
  | error e => exact ⟨[], migrated_nil hs facts⟩
  | ok live =>
    simp only [hlive] at hallowed
    exact ⟨_, migrated_visit hL hs hfacts includeOpen live (KeySet.nodup_members _) hallowed⟩

end Migration

end RetailReport
