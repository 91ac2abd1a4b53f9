import RetailReport.Proofs.Partition.Settled

/-!
# Passes that follow one another

After any history a pass that comes right after another one finds nothing to do.  It writes and removes
nothing, passes over the same number of partitions, and reports the same ones as failed; the manifest,
the folder and the marks stay as they are, and so does all that can be read.

This takes a manifest that is kept apart from the partitions.  The path of the manifest is free, and
where it leads through a directory that has the name of a table, the table cannot be put in its place;
then its draft is left behind.

## Main results

* `PartitionSite.laidOut_run`: everything stands where it is meant to, after any history.
* `PartitionSite.pass_again`: **a pass right after another one**.
* `PartitionSite.not_settled_under_table`: a manifest in the place of a table.
-/

namespace RetailReport

open PartitionStore Migration

/-! ### Laid out stores -/

namespace PartitionStore

variable {s : PartitionStore} {path : FolderPath} {id : PartitionId}

theorem LaidOut.replaced (h : LaidOut path s) (hpath : KeptApart path) (id : PartitionId)
    (lines : List FactRecord) : LaidOut path (s.replace id lines).2 := by
  obtain ⟨-, hexpands⟩ | ⟨-, -, -, hrefuses⟩ := h.replace hpath id lines
  · exact hexpands.laidOut
  · have heq := hrefuses.eq_folder
    generalize s.replace id lines = step at heq hrefuses
    rw [heq]
    exact ⟨h.manifestPath, hrefuses.grows.laid⟩

/-- A partition that follows some lines is replaced, or nothing changes. -/
theorem LaidOut.follow (h : LaidOut path s) (hpath : KeptApart path) (id : PartitionId)
    (lines : List FactRecord) : LaidOut path (Migration.follow s id lines).2 := by
  obtain ⟨_, -, -, heq⟩ | ⟨-, heq⟩ := follow_cases s id lines
  · rw [heq]
    exact h
  · rw [heq]
    exact h.replaced hpath id _

theorem LaidOut.migrateOne (h : LaidOut path s) (hpath : KeptApart path) (facts : FactStore)
    (r : MigrationReport) (id : PartitionId) :
    LaidOut path (Migration.migrateOne facts (s, r) id).1 := by
  have hfollow : ∀ lines outcome t, Migration.follow s id lines = (outcome, t) →
      LaidOut path t := by
    intro lines outcome t heq
    have hlaid := h.follow hpath id lines
    rwa [heq] at hlaid
  obtain ⟨t, heq, ⟨-, rfl⟩ | ⟨_, _, -, hfailed⟩⟩ | ⟨_, _, t, -, hdone, heq⟩ :=
    turn_cases facts s r id
  · rw [heq]
    exact h
  · rw [heq]
    exact hfollow _ _ _ hfailed
  · rw [heq]
    have hlaid := hfollow _ _ _ hdone
    unfold clearPending
    split
    · exact ⟨hlaid.manifestPath, hlaid.folder⟩
    · exact hlaid

theorem LaidOut.visit (h : LaidOut path s) (hpath : KeptApart path) (facts : FactStore)
    (includeOpen : Bool) (live : KeySet PartitionId) (r : MigrationReport) (id : PartitionId) :
    LaidOut path (Migration.visit facts includeOpen live (s, r) id).1 := by
  unfold Migration.visit
  split
  · exact h
  · exact h.migrateOne hpath facts r id

/-- **In an empty folder** everything stands where it is meant to. -/
theorem laid_empty (path : FolderPath) : Laid path {} where
  tree := Folder.tree_empty
  home := rfl
  directories place hget := by
    refine .home ?_
    have hmem := SortedMap.mem_toList.2 hget
    have hlist : ({} : Folder).nodes.toList =
        [([], .directory), (["tmp"], .directory), (FolderPath.home, .directory)] := rfl
    rw [hlist] at hmem
    simp only [List.mem_cons, Prod.mk.injEq, and_true, List.not_mem_nil, or_false] at hmem
    rcases hmem with rfl | rfl | rfl <;> decide
  files place node hget hnode := absurd (Folder.eq_directory_of_empty hget) hnode

end PartitionStore

namespace PartitionSite

variable {s : PartitionStore} {manifestFile : String} {today : Date} {plan : Option RebuildPlan}
  {ops : List PartitionOp}

theorem laidOut_perform {w : PartitionSite} {path : FolderPath} (h : LaidOut path w.partitions)
    (hpath : KeptApart path) (op : PartitionOp) : LaidOut path (w.perform op).partitions := by
  cases op with
  | change op => exact h
  | mark ids => exact ⟨h.manifestPath, h.folder⟩
  | onDay today => exact ⟨h.manifestPath, h.folder⟩
  | refresh ids =>
    have hstep : ∀ step : PartitionStore × MigrationReport, LaidOut path step.1 →
        LaidOut path (ids.members.foldl (migrateOne w.facts) step).1 := by
      induction ids.members with
      | nil => exact fun _ hlaid => hlaid
      | cons id ids ih => exact fun step hlaid => ih _ (hlaid.migrateOne hpath w.facts step.2 id)
    exact hstep (w.partitions, {}) h
  | pass includeOpen =>
    show LaidOut path (Migration.pass w.facts w.partitions includeOpen).2
    unfold Migration.pass
    split
    · exact h
    · next live _ =>
      have hstep : ∀ step : PartitionStore × MigrationReport, LaidOut path step.1 → LaidOut path
          ((targets w.partitions live).members.foldl (visit w.facts includeOpen live) step).1 := by
        induction (targets w.partitions live).members with
        | nil => exact fun _ hlaid => hlaid
        | cons id ids ih =>
          exact fun step hlaid => ih _ (hlaid.visit hpath w.facts includeOpen live step.2 id)
      exact hstep (w.partitions, {}) h

/-- **After any history** everything stands where it is meant to. -/
theorem laidOut_run (hopen : PartitionStore.open? {} manifestFile today plan = .ok s)
    (hpath : KeptApart (FolderPath.ofText manifestFile)) :
    LaidOut (FolderPath.ofText manifestFile) (run s ops).partitions := by
  induction ops using List.reverseRecOn with
  | nil =>
    obtain rfl := MigrationWorld.eq_of_open? hopen
    have hfolder : ({} : Folder).withoutExtension "tmp" = {} := rfl
    exact ⟨rfl, hfolder ▸ laid_empty _⟩
  | append_singleton ops op ih =>
    rw [run_concat]
    exact laidOut_perform ih hpath op

/-- **A pass right after another one.** If the first one has come to its end, the second one writes and
removes nothing, passes over as many partitions and reports the same ones as failed; of the partition
store nothing changes but the number of partitions that were found unchanged. -/
theorem pass_again {includeOpen : Bool} {r : MigrationReport}
    (hopen : PartitionStore.open? {} manifestFile today plan = .ok s)
    (hpath : KeptApart (FolderPath.ofText manifestFile))
    (hordinary : ∀ op ∈ ops, ∀ f ∈ op.facts, f.IsOrdinary)
    (hhash : (run s (ops ++ [.pass includeOpen])).Apart)
    (hpass : (pass (run s ops).facts (run s ops).partitions includeOpen).1 = .ok r) :
    ∃ n m, pass (run s (ops ++ [.pass includeOpen])).facts
        (run s (ops ++ [.pass includeOpen])).partitions includeOpen =
      (.ok { written := 0, unchanged := m, removed := 0, skippedOpen := r.skippedOpen
             failed := r.failed },
        { (run s (ops ++ [.pass includeOpen])).partitions with unchangedCount := n }) := by
  have hlaid : LaidOut (FolderPath.ofText manifestFile) (run s ops).partitions :=
    laidOut_run hopen hpath
  have hsub := lists_subset_perform (run s ops) (.pass includeOpen)
  rw [run_concat] at hhash ⊢
  have hsound := sound_run hopen hpath.file hordinary
    fun l hl l' hl' => hhash l (hsub l hl) l' (hsub l' hl')
  -- The second pass starts from what the first one has left, however the site came about.
  generalize run s ops = w at hhash hsound hlaid hpass ⊢
  exact pass_pass (hsound.storable _ hhash) (hsound.partitions_append _) hlaid hpath
    hsound.facts.consistent (fun l hl => List.mem_append_right _ hl) (Prod.ext hpass rfl)

/-! ### A manifest that is kept apart -/

open MigrationWorld (opened open?_opened)

/-- A manifest in the home is kept apart from the partitions. -/
theorem keptApart_manifest : KeptApart (FolderPath.ofText "manifest.json") where
  plain := by unfold Folder.IsPlainName; decide
  fits := ⟨by decide, by decide⟩
  draftPlain := by unfold Folder.IsPlainName; decide
  draftFits := ⟨by decide, by decide⟩
  way := by unfold IsTableName IsDraftName; decide
  file := MigrationWorld.isTableName_manifest
  store storeId heq := by
    have hlast : (storePlace storeId).getLast? = some "manifest.json" := heq ▸ rfl
    exact notMem_point_of_getLast? (.inr ⟨storeId, rfl⟩) hlast (by decide)
  home := by decide

/-- On New Year's Day a store sells something. -/
def soldAndMarked : List PartitionOp :=
  [.change (.append [sampleLine "S1" "r1"]), .mark [newYearsDay]]

set_option maxRecDepth 20000 in
theorem after_soldAndMarked :
    (run opened (soldAndMarked ++ [.pass false])).Apart ∧
    (pass (run opened soldAndMarked).facts (run opened soldAndMarked).partitions false).1 =
      .ok { written := 1 } := by
  decide +kernel

/-- **A pass right after another one** finds the partition unchanged. -/
theorem pass_again_soldAndMarked :
    PartitionStore.open? {} "manifest.json" opened.today none = .ok opened ∧
    (∀ op ∈ soldAndMarked, ∀ f ∈ op.facts, f.IsOrdinary) ∧
    (run opened (soldAndMarked ++ [.pass false])).Apart ∧
    ∃ n m, pass (run opened (soldAndMarked ++ [.pass false])).facts
        (run opened (soldAndMarked ++ [.pass false])).partitions false =
      (.ok { written := 0, unchanged := m, removed := 0, skippedOpen := 0, failed := [] },
        { (run opened (soldAndMarked ++ [.pass false])).partitions with unchangedCount := n }) := by
  have hordinary : ∀ op ∈ soldAndMarked, ∀ f ∈ op.facts, f.IsOrdinary := by decide
  obtain ⟨hhash, hpass⟩ := after_soldAndMarked
  exact ⟨open?_opened, hordinary, hhash,
    pass_again open?_opened keptApart_manifest hordinary hhash hpass⟩

/-! ### A manifest in the place of a table -/

/-- The manifest is to lie in a directory that has the place of the first store's table. -/
def underTable : String :=
  fileName newYearsDay (contentHash [sampleLine "S1" "r1"]) ++ "/manifest.json"

/-- Two stores sell something. -/
def bothSold : List PartitionOp :=
  [.change (.append [sampleLine "S1" "r1", sampleLine "S2" "r2"])]

set_option maxRecDepth 20000 in
/-- The first pass writes the table of the second store, and a directory for the manifest; the table of
the first store cannot be put in its place any more, and the second pass leaves its draft behind. -/
theorem exists_draft_under_table :
    ∃ s, PartitionStore.open? {} underTable opened.today none = .ok s ∧
      (run s (bothSold ++ [.pass false])).Apart ∧
      (pass (run s bothSold).facts (run s bothSold).partitions false).1 =
        .ok { written := 1, failed := [newYearsDay] } ∧
      (run s (bothSold ++ [.pass false])).partitions.folder.countExtension "tmp" = 0 ∧
      (pass (run s (bothSold ++ [.pass false])).facts
        (run s (bothSold ++ [.pass false])).partitions false).2.folder.countExtension "tmp" = 1 :=
  Except.exists_ok (by decide +kernel)

/-- **A pass right after another one leaves a draft behind** if the manifest lies in a directory that
has the place of a table. -/
theorem not_settled_under_table : ∃ (manifestFile : String) (s : PartitionStore)
    (ops : List PartitionOp) (r : MigrationReport),
    PartitionStore.open? {} manifestFile opened.today none = .ok s ∧
    (∀ op ∈ ops, ∀ f ∈ op.facts, f.IsOrdinary) ∧ (run s (ops ++ [.pass false])).Apart ∧
    (pass (run s ops).facts (run s ops).partitions false).1 = .ok r ∧
    (pass (run s (ops ++ [.pass false])).facts
        (run s (ops ++ [.pass false])).partitions false).2.folder.files ≠
      (run s (ops ++ [.pass false])).partitions.folder.files := by
  obtain ⟨s, hopen, hhash, hpass, hbefore, hafter⟩ := exists_draft_under_table
  refine ⟨underTable, s, bothSold, _, hopen, by decide, hhash, hpass, fun heq => ?_⟩
  unfold Folder.countExtension at hbefore hafter
  rw [heq, hbefore] at hafter
  cases hafter

end PartitionSite

end RetailReport
