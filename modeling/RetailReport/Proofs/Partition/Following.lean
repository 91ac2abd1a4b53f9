import RetailReport.Proofs.Partition.Refresh

/-!
# Histories of a fact store and its partitions

Lines come and go, partitions are marked, days end, passes and refreshes follow, one after the other.
A refresh that comes after any such history makes each of its partitions follow the lines of the fact
store, or reports it as failed.  A partition then holds exactly the lines of the fact store, unless
its day is not over and it was stale: such a partition is only appended to, so what it held stays,
though the fact store does not have it any more.

## Main definitions

* `PartitionOp`, `PartitionSite.perform`, `PartitionSite.run`: what can happen, and what becomes of
  both stores.
* `PartitionSite.Sound`: what every history keeps.

## Main results

* `PartitionSite.Sound.perform`: one step; `PartitionSite.sound_run`: a whole history.
* `PartitionSite.refresh_follows`: **what a refresh does after any history**.
* `PartitionSite.not_follows_after_purge`: a partition that keeps a line which was purged.
-/

namespace RetailReport

open PartitionStore Migration

/-- What can happen to a fact store and its partitions. -/
inductive PartitionOp where
  /-- Lines come or go. -/
  | change (op : FactOp)
  /-- Some partitions are marked as pending. -/
  | mark (ids : List PartitionId)
  /-- Another business day begins. -/
  | onDay (today : Date)
  /-- A pass goes over all partitions. -/
  | pass (includeOpen : Bool)
  /-- Some partitions are refreshed. -/
  | refresh (ids : KeySet PartitionId)

/-- The lines that are given. -/
def PartitionOp.facts : PartitionOp → List FactRecord
  | .change op => op.facts
  | .mark _ | .onDay _ | .pass _ | .refresh _ => []

/-- A fact store and its partitions. -/
structure PartitionSite where
  /-- The fact store. -/
  facts : FactStore := {}
  /-- The partition store. -/
  partitions : PartitionStore
  /-- The lists that partitions were to hold so far. -/
  lists : List (List FactRecord) := []

namespace PartitionSite

/-- Both stores after an operation. -/
def perform (w : PartitionSite) : PartitionOp → PartitionSite
  | .change op => { w with facts := w.facts.apply op }
  | .mark ids => { w with partitions := (w.partitions.markPending ids).2 }
  | .onDay today => { w with partitions := { w.partitions with today } }
  | .pass includeOpen =>
    { w with
      partitions := (Migration.pass w.facts w.partitions includeOpen).2
      lists := w.lists ++
        attempts w.facts w.partitions (visited w.facts w.partitions includeOpen) }
  | .refresh ids =>
    { w with
      partitions := (Migration.refresh w.facts w.partitions ids).1
      lists := w.lists ++ attempts w.facts w.partitions ids.members }

/-- Both stores after some operations. -/
def run (s : PartitionStore) (ops : List PartitionOp) : PartitionSite :=
  ops.foldl perform { partitions := s }

theorem run_concat (s : PartitionStore) (ops : List PartitionOp) (op : PartitionOp) :
    run s (ops ++ [op]) = (run s ops).perform op := List.foldl_append

/-! ### What every history keeps -/

/-- **What every history keeps.** -/
structure Sound (w : PartitionSite) : Prop where
  /-- The fact store has been changed by its operations only. -/
  facts : w.facts.Reachable
  /-- The partition store is in order. -/
  partitions : w.partitions.Sound (· ∈ w.lists)
  /-- No line is of a leap second. -/
  ordinary : ∀ f ∈ w.facts.lines, f.IsOrdinary
  /-- No list that a partition was to hold has such a line, or two lines with one id. -/
  lists : ∀ l ∈ w.lists, (∀ f ∈ l, f.IsOrdinary) ∧ (l.map (·.recordId)).Nodup

/-- No two of the lists that partitions were to hold have one hash. -/
def Apart (w : PartitionSite) : Prop :=
  ∀ l ∈ w.lists, ∀ l' ∈ w.lists, contentHash l = contentHash l' → l = l'

instance (w : PartitionSite) : Decidable w.Apart := by
  unfold Apart
  infer_instance

variable {w : PartitionSite} {id : PartitionId} {ids : List PartitionId}

/-- What can be read of a partition has no two lines with one id. -/
theorem Sound.stored (h : w.Sound) (id : PartitionId) :
    ∃ stored, w.partitions.readPartition id = .ok stored ∧
      (∀ f ∈ stored.getD [], f.IsOrdinary) ∧ ((stored.getD []).map (·.recordId)).Nodup := by
  obtain ⟨stored, hread, hallowed⟩ := h.partitions.exists_stored id
  refine ⟨stored, hread, ?_⟩
  cases stored with
  | none => exact ⟨fun _ hf => absurd hf List.not_mem_nil, .nil⟩
  | some l => exact h.lists l (hallowed l rfl)

/-- **What a partition is to hold next** is as good as what was to be held before. -/
theorem Sound.attempts (h : w.Sound) {l : List FactRecord}
    (hl : l ∈ attempts w.facts w.partitions ids) :
    (∀ f ∈ l, f.IsOrdinary) ∧ (l.map (·.recordId)).Nodup := by
  obtain ⟨-, id, -, rfl⟩ := mem_attempts.1 hl
  obtain ⟨stored, hread, hordinary, hnodup⟩ := h.stored id
  have hperm : (canonicalSort (followed w.partitions id (w.facts.partitionLines id))).Perm
      (followed w.partitions id (w.facts.partitionLines id)) := List.mergeSort_perm _ _
  constructor
  · intro f hf
    rcases mem_followed hread (hperm.mem_iff.1 hf) with hf | hf
    · exact hordinary f hf
    · exact h.ordinary f (FactStore.mem_lines_of_mem_partitionLines hf)
  · refine (hperm.map _).nodup_iff.2 ?_
    exact nodup_followed hread hnodup (h.facts.consistent.nodup_partitionLines id)

/-- The lists that partitions were to hold so far, with those that they are to hold next. -/
theorem Sound.lists_append (h : w.Sound) (ids : List PartitionId) :
    ∀ l ∈ w.lists ++ Migration.attempts w.facts w.partitions ids,
      (∀ f ∈ l, f.IsOrdinary) ∧ (l.map (·.recordId)).Nodup := by
  intro l hl
  rcases List.mem_append.1 hl with hl | hl
  · exact h.lists l hl
  · exact h.attempts hl

/-- Such lists may be stored if they are told apart by their hashes. -/
theorem Sound.storable (h : w.Sound) (ids : List PartitionId)
    (hhash : ∀ l ∈ w.lists ++ Migration.attempts w.facts w.partitions ids,
      ∀ l' ∈ w.lists ++ Migration.attempts w.facts w.partitions ids,
        contentHash l = contentHash l' → l = l') :
    Storable (· ∈ w.lists ++ Migration.attempts w.facts w.partitions ids) where
  ordinary l hl := (h.lists_append ids l hl).1
  apart l l' hl hl' := hhash l hl l' hl'

/-- **After a migration** both stores are in order. -/
theorem Sound.migrated (h : w.Sound) {s' : PartitionStore} {failed : List PartitionId}
    (hmigrated : Migrated (· ∈ w.lists ++ Migration.attempts w.facts w.partitions ids) w.facts
      w.partitions ids s' failed) :
    Sound { w with
      partitions := s'
      lists := w.lists ++ Migration.attempts w.facts w.partitions ids } where
  facts := h.facts
  partitions := hmigrated.sound
  ordinary := h.ordinary
  lists := h.lists_append ids

theorem Sound.partitions_append (h : w.Sound) (ids : List PartitionId) :
    w.partitions.Sound (· ∈ w.lists ++ Migration.attempts w.facts w.partitions ids) :=
  h.partitions.mono fun _ hl => List.mem_append_left _ hl

/-- **Every operation keeps it.** -/
theorem Sound.perform (h : w.Sound) {op : PartitionOp} (hop : ∀ f ∈ op.facts, f.IsOrdinary)
    (hhash : (w.perform op).Apart) : (w.perform op).Sound := by
  cases op with
  | change op =>
    refine ⟨h.facts.apply op, h.partitions, ?_, h.lists⟩
    intro f hf
    rcases FactStore.mem_lines_apply hf with hf | hf
    · exact h.ordinary f hf
    · exact hop f hf
  | mark ids =>
    exact ⟨h.facts, ⟨h.partitions.tree, h.partitions.manifestName, h.partitions.entries⟩,
      h.ordinary, h.lists⟩
  | onDay today => exact ⟨h.facts, h.partitions.onDay today, h.ordinary, h.lists⟩
  | pass includeOpen =>
    obtain ⟨failed, hmigrated⟩ := migrated_pass (h.storable _ hhash) (h.partitions_append _)
      h.facts.consistent fun l hl => List.mem_append_right _ hl
    exact h.migrated hmigrated
  | refresh ids =>
    exact h.migrated (migrated_refresh (h.storable _ hhash) (h.partitions_append _)
      h.facts.consistent fun l hl => List.mem_append_right _ hl)

theorem lists_subset_perform (w : PartitionSite) (op : PartitionOp) :
    ∀ l ∈ w.lists, l ∈ (w.perform op).lists := by
  intro l hl
  cases op with
  | pass => exact List.mem_append_left _ hl
  | refresh => exact List.mem_append_left _ hl
  | _ => exact hl

variable {s : PartitionStore} {manifestFile : String} {today : Date} {plan : Option RebuildPlan}
  {ops : List PartitionOp}

/-- In an empty folder a new store is opened. -/
theorem sound_start (hopen : PartitionStore.open? {} manifestFile today plan = .ok s)
    (hname : ∀ name, (FolderPath.ofText manifestFile).getLast? = some name → ¬IsTableName name) :
    Sound { partitions := s } where
  facts := .empty
  partitions := (MigrationWorld.isNew_of_open? hopen hname).sound.partitions
  ordinary _ hf := absurd hf List.not_mem_nil
  lists _ hl := absurd hl List.not_mem_nil

/-- **Every history keeps it.** -/
theorem sound_run (hopen : PartitionStore.open? {} manifestFile today plan = .ok s)
    (hname : ∀ name, (FolderPath.ofText manifestFile).getLast? = some name → ¬IsTableName name)
    (hordinary : ∀ op ∈ ops, ∀ f ∈ op.facts, f.IsOrdinary) (hhash : (run s ops).Apart) :
    (run s ops).Sound := by
  induction ops using List.reverseRecOn with
  | nil => exact sound_start hopen hname
  | append_singleton ops op ih =>
    rw [run_concat] at hhash ⊢
    have hsub := lists_subset_perform (run s ops) op
    refine (ih ?_ ?_).perform (hordinary op (List.mem_append_right _ List.mem_cons_self)) hhash
    · intro op' hop'
      exact hordinary op' (List.mem_append_left _ hop')
    · intro l hl l' hl'
      exact hhash l (hsub l hl) l' (hsub l' hl')

/-! ### Refreshes -/

/-- **What a refresh does after any history.** Each of its partitions that is not reported as failed
follows the lines of the fact store.  Then it holds exactly these lines if its day is over, if there
are none, or if it was not stale, and only then.  All other partitions hold what they held before, and
each partition that is reported as failed was hindered when its turn came.

This is for stores whose manifest is not named like a file with a table, since it may otherwise take the
place of one. -/
theorem refresh_follows {ids : KeySet PartitionId}
    (hopen : PartitionStore.open? {} manifestFile today plan = .ok s)
    (hname : ∀ name, (FolderPath.ofText manifestFile).getLast? = some name → ¬IsTableName name)
    (hordinary : ∀ op ∈ ops, ∀ f ∈ op.facts, f.IsOrdinary)
    (hhash : (run s (ops ++ [.refresh ids])).Apart) :
    (∀ id ∈ ids.members,
      id ∉ (Migration.refresh (run s ops).facts (run s ops).partitions ids).2.failed →
      (run s (ops ++ [.refresh ids])).partitions.readPartition id =
        .ok (content (followed (run s ops).partitions id ((run s ops).facts.partitionLines id))) ∧
      ((run s (ops ++ [.refresh ids])).partitions.readPartition id =
          .ok (content ((run s ops).facts.partitionLines id)) ↔
        (run s ops).partitions.isClosed id.date = true ∨
          (run s ops).facts.partitionLines id = [] ∨
          ¬(run s ops).partitions.Stale (run s ops).facts id)) ∧
    (∀ id, id ∉ ids.members ∨
      id ∈ (Migration.refresh (run s ops).facts (run s ops).partitions ids).2.failed →
      (run s (ops ++ [.refresh ids])).partitions.readPartition id =
        (run s ops).partitions.readPartition id) ∧
    ∀ id ∈ (Migration.refresh (run s ops).facts (run s ops).partitions ids).2.failed,
      ∃ early late, ids.members = early ++ id :: late ∧
        Hindered (run s ops).facts
          (early.foldl (migrateOne (run s ops).facts) ((run s ops).partitions, {})).1 id := by
  have hsub := lists_subset_perform (run s ops) (.refresh ids)
  rw [run_concat] at hhash ⊢
  have hsound := sound_run hopen hname hordinary fun l hl l' hl' => hhash l (hsub l hl) l' (hsub l' hl')
  -- From here on only what every run keeps of the site matters.
  generalize run s ops = w at hhash hsound ⊢
  have hL := hsound.storable _ hhash
  have hs := hsound.partitions_append ids.members
  have hfacts := hsound.facts.consistent
  have hallowed : ∀ l ∈ Migration.attempts w.facts w.partitions ids.members,
      l ∈ w.lists ++ Migration.attempts w.facts w.partitions ids.members :=
    fun l hl => List.mem_append_right _ hl
  have hmigrated := migrated_refresh hL hs hfacts hallowed
  refine ⟨?_, hmigrated.kept, ?_⟩
  · intro id hid hnot
    have hread := hmigrated.follows id hid hnot
    refine ⟨hread, ?_⟩
    obtain ⟨stored, hstored, -, hnodup⟩ := hsound.stored id
    have hstale : w.partitions.Stale w.facts id ↔
        ¬∀ f ∈ stored.getD [], f ∈ w.facts.partitionLines id := by
      unfold Stale
      rw [hstored]
      cases stored with
      | none => simp
      | some l => simp
    -- What is held is what was to be followed, which is the lines unless stored ones are not among
    -- them.
    show (Migration.refresh w.facts w.partitions ids).1.readPartition id = _ ↔ _
    rw [hread, Except.ok.injEq, hstale, not_not]
    exact content_followed_eq_iff hstored hnodup (hfacts.nodup_partitionLines id)
  · intro id hid
    exact hindered_of_mem_failed hL hs hfacts (KeySet.nodup_members ids) hallowed hid

/-! ### A day that is not over -/

open MigrationWorld (opened open?_opened isTableName_manifest)

/-- New Year's Day of two stores. -/
def bothStores : KeySet PartitionId := KeySet.ofList [newYearsDay, (sampleLine "S2" "r2").partition]

/-- On New Year's Day only the first store sells something. -/
def soldOnce : List PartitionOp :=
  [.onDay newYearsDay.date, .change (.append [sampleLine "S1" "r1"]), .refresh bothStores]

set_option maxRecDepth 20000 in
theorem after_soldOnce :
    (run opened (soldOnce ++ [.refresh bothStores])).Apart ∧
    (run opened soldOnce).partitions.isClosed newYearsDay.date = false ∧
    (Migration.refresh (run opened soldOnce).facts (run opened soldOnce).partitions
      bothStores).2.failed = [] ∧
    (run opened soldOnce).partitions.readPartition newYearsDay =
      .ok (some [sampleLine "S1" "r1"]) ∧
    (run opened soldOnce).facts.partitionLines newYearsDay = [sampleLine "S1" "r1"] ∧
    (run opened soldOnce).facts.partitionLines (sampleLine "S2" "r2").partition = [] := by
  decide +kernel

/-- After one more refresh the first store still has its line, and the second one no partition. -/
theorem refresh_follows_soldOnce :
    PartitionStore.open? {} "manifest.json" opened.today none = .ok opened ∧
    (∀ op ∈ soldOnce, ∀ f ∈ op.facts, f.IsOrdinary) ∧
    (run opened (soldOnce ++ [.refresh bothStores])).Apart ∧
    (run opened soldOnce).partitions.isClosed newYearsDay.date = false ∧
    (run opened (soldOnce ++ [.refresh bothStores])).partitions.readPartition newYearsDay =
      .ok (content [sampleLine "S1" "r1"]) ∧
    (run opened (soldOnce ++ [.refresh bothStores])).partitions.readPartition
      (sampleLine "S2" "r2").partition = .ok none := by
  have hordinary : ∀ op ∈ soldOnce, ∀ f ∈ op.facts, f.IsOrdinary := by decide
  obtain ⟨hhash, hopen, hfailed, hread, hfirst, hsecond⟩ := after_soldOnce
  obtain ⟨hfollows, -, -⟩ := refresh_follows open?_opened isTableName_manifest hordinary hhash
  have hnot : ∀ id, id ∉ (Migration.refresh (run opened soldOnce).facts
      (run opened soldOnce).partitions bothStores).2.failed := by
    intro id
    rw [hfailed]
    exact List.not_mem_nil
  have hfresh : ¬(run opened soldOnce).partitions.Stale (run opened soldOnce).facts
      newYearsDay := by
    rintro ⟨stored, hstored, f, hf, hgone⟩
    rw [hread] at hstored
    obtain rfl := Option.some.inj (Except.ok.inj hstored)
    rw [hfirst] at hgone
    exact hgone hf
  refine ⟨open?_opened, hordinary, hhash, hopen, ?_, ?_⟩
  · rw [← hfirst]
    exact (hfollows newYearsDay (by decide) (hnot _)).2.2 (.inr (.inr hfresh))
  · have hholds := (hfollows _ (by decide) (hnot _)).2.2 (.inr (.inl hsecond))
    rwa [hsecond] at hholds

/-- A line that comes back under its id, but from another channel. -/
def returnedLine : FactRecord := { sampleLine "S1" "r1" with channel := "POS" }

/-- On New Year's Day a line is sold, purged, and appended again in another form. -/
def soldAgain : List PartitionOp :=
  [.onDay newYearsDay.date, .change (.append [sampleLine "S1" "r1"]),
    .refresh (KeySet.ofList [newYearsDay]), .change (.purge "S1"), .change (.append [returnedLine])]

set_option maxRecDepth 20000 in
theorem after_soldAgain :
    (run opened (soldAgain ++ [.refresh (KeySet.ofList [newYearsDay])])).Apart ∧
    (Migration.refresh (run opened soldAgain).facts (run opened soldAgain).partitions
      (KeySet.ofList [newYearsDay])).2.failed = [] ∧
    (run opened (soldAgain ++ [.refresh (KeySet.ofList [newYearsDay])])).partitions.readPartition
      newYearsDay = .ok (some [sampleLine "S1" "r1"]) ∧
    (run opened soldAgain).facts.partitionLines newYearsDay = [returnedLine] := by
  decide +kernel

/-- **A refresh does not follow the fact store**: the partition of a day that is not over keeps a
line that was purged, and passes over the one that has come in its place; nothing is reported. -/
theorem not_follows_after_purge : ∃ (ops : List PartitionOp) (ids : KeySet PartitionId)
    (id : PartitionId), (∀ op ∈ ops, ∀ f ∈ op.facts, f.IsOrdinary) ∧
    (run opened (ops ++ [.refresh ids])).Apart ∧ id ∈ ids.members ∧
    id ∉ (Migration.refresh (run opened ops).facts (run opened ops).partitions ids).2.failed ∧
    (run opened (ops ++ [.refresh ids])).partitions.readPartition id ≠
      .ok (content ((run opened ops).facts.partitionLines id)) := by
  obtain ⟨hhash, hfailed, hread, hlines⟩ := after_soldAgain
  refine ⟨soldAgain, KeySet.ofList [newYearsDay], newYearsDay, by decide, hhash, by decide, ?_, ?_⟩
  · rw [hfailed]
    exact List.not_mem_nil
  · intro h
    rw [hread, hlines, Except.ok.injEq, content, canonicalSort, List.mergeSort_singleton] at h
    exact absurd h (by decide)

end PartitionSite

end RetailReport
