import RetailReport.Proofs.Sync.History

/-!
# Full rebuilds

A full rebuild goes through the stores that have lines.  If none of them fails, all slices of their
lines are there afterwards.  Whether there are any others depends on what was there before: the slices
of a store that has lost all its lines are not looked at, and stay until the store is synchronised by
its name.

## Main definitions

* `SyncSite.Wanted`, `SyncSite.Orphaned`: slices of stores with lines, and of stores without.
* `SyncSite.UpToDate`, `SyncSite.Full`: all slices of the lines, and no others.
* `SyncSite.Placed`: no slices but those that the rollups can have.

## Main results

* `SyncSite.placed_run`: **which slices there can be** after any history.
* `SyncSite.rebuildAll_after_run`: **what a full rebuild without failures leaves behind**.
* `SyncSite.full_rebuildAll_of_unfilled`: the first one is full.
-/

namespace RetailReport.SyncSite

/-! ### Which slices there can be -/

/-- The slices that some rollups can have. -/
inductive OwnSlice (plans : List RebuildPlan) : SliceId → Prop
  /-- One for each store, if a rollup is grouped by store. -/
  | ofStore {p : RebuildPlan} (hp : p ∈ Rebuild.storePlans plans) (key : String) :
      OwnSlice plans ⟨p.name, key⟩
  /-- A single one, if it is not. -/
  | ofAll {q : RebuildPlan} (hq : q ∈ Rebuild.globalPlans plans) :
      OwnSlice plans ⟨q.name, globalScope⟩

/-- Only slices that the rollups can have are stored. -/
def Placed (w : SyncSite) : Prop :=
  ∀ id ∈ w.rollups.slices.keys, OwnSlice w.synchronizer.plans id

namespace Placed

variable {plans : List RebuildPlan} {w : SyncSite}

theorem commit (h : w.Placed) {key : String} {batch : RollupBatch} {globals : Option GlobalSlices}
    {snapshot : FactSnapshot} (ho : Rebuild.OnlyStore w.synchronizer.plans key batch)
    (hg : ∀ g ∈ globals, Rebuild.OfSnapshot w.synchronizer.plans snapshot g) :
    (w.commit key batch globals).2.2.Placed := by
  intro id hid
  rw [synchronizer_commit]
  rw [rollups_commit] at hid
  rcases RollupStore.mem_keys_commit hid with hbatch | hbefore
  · rw [RollupBatch.sliceIds, List.map_append, List.mem_append] at hbatch
    rcases hbatch with hstore | hglobal
    · obtain ⟨p, hp, rfl⟩ := ho.own id hstore
      exact .ofStore hp key
    · obtain ⟨q, hq, rfl⟩ := mem_sliceIds_admitted hg hglobal
      exact .ofAll hq
  · exact h id hbefore

/-- One store. -/
theorem rebuilt (hn : DistinctNames w.synchronizer.plans) (h : w.Placed) {key : String}
    {outcome : KeyOutcome} {w' : SyncSite} (hr : w.Rebuilt key outcome w') : w'.Placed := by
  cases hr with
  | failed _ => exact h
  | committed hb hg _ => exact h.commit (hb.only hn) hg

theorem sync (hn : DistinctNames plans) (hw : w.Sound plans) (h : w.Placed)
    (keys : KeySet String) : (w.sync keys).2.2.Placed := by
  have hn' : DistinctNames w.synchronizer.plans := hw.plans_eq ▸ hn
  -- what has become of the stores so far tells where the slices from all lines come from
  have hrun : ∀ (todo done : List String) (v : SyncSite) (p : Progress), w.Synced done v p →
      v.Placed → (todo.foldl syncKey (v, p)).1.Placed := by
    intro todo
    induction todo with
    | nil => exact fun _ _ _ _ hplaced => hplaced
    | cons key todo ih =>
      intro done v p hs hplaced
      -- the flight that the rebuild opens
      let v' : SyncSite := { v with synchronizer := (v.synchronizer.openFlight key).2 }
      have hnames : DistinctNames v'.synchronizer.plans := hs.plans.symm ▸ hn'
      have hplaced' : v'.Placed := hplaced
      have hrebuilt := hplaced'.rebuilt hnames (rebuilt_rebuild (hs.known_openFlight key) key).1
      exact ih _ _ _ (hs.syncKey hn' key) hrebuilt
  exact hrun keys.members [] _ _ (synced_nil hw.version_le) h

theorem commitGlobals (h : w.Placed) : w.commitGlobals.2.2.Placed := by
  have hdone := w.globalsCommitted
  generalize w.commitGlobals.1 = outcome at hdone
  generalize w.commitGlobals.2.2 = w' at hdone ⊢
  cases hdone with
  | unneeded _ => exact h
  | failed _ => exact h
  | committed hg => exact h.commit (Rebuild.onlyStore_nil _ _) hg

theorem rebuildAll (hn : DistinctNames plans) (hw : w.Sound plans) (h : w.Placed) :
    w.rebuildAll.2.2.Placed := by
  obtain heq | ⟨keys, heq | heq⟩ := w.rebuildAll_cases
  · rw [heq]
    exact h
  · rw [heq]
    exact h.sync hn hw keys
  · rw [heq]
    exact (h.sync hn hw keys).commitGlobals

/-- Every operation keeps it. -/
theorem perform (hn : DistinctNames plans) (hw : w.Sound plans) (h : w.Placed) (op : SyncOp) :
    (w.perform op).2.Placed := by
  cases op with
  | change op => exact h
  | note keys => exact h
  | sync keys => exact h.sync hn hw keys
  | rebuildAll => exact h.rebuildAll hn hw

end Placed

/-- **Which slices there can be** after any history. -/
theorem placed_run {plans : List RebuildPlan} (hn : DistinctNames plans) (ops : List SyncOp) :
    (run plans ops).Placed := by
  induction ops using List.reverseRecOn with
  | nil =>
    intro id hid
    cases hid
  | append_singleton ops op ih =>
    rw [run, List.foldl_append]
    exact ih.perform hn (sound_run hn ops) op

/-! ### Full rebuilds without failures -/

/-- What a commit of the slices from all lines does, unless it fails. -/
theorem commitGlobals_spec {w : SyncSite} (hn : DistinctNames w.synchronizer.plans)
    (hv : ∀ v ∈ w.synchronizer.globalVersion, v ≤ w.facts.version)
    (h : w.commitGlobals.1 = .ok ()) :
    w.commitGlobals.2.2.facts = w.facts ∧
    w.commitGlobals.2.2.synchronizer.plans = w.synchronizer.plans ∧
    (∀ p ∈ Rebuild.storePlans w.synchronizer.plans, ∀ key,
      w.commitGlobals.2.2.rollups.get? ⟨p.name, key⟩ = w.rollups.get? ⟨p.name, key⟩) ∧
    ∀ q ∈ Rebuild.globalPlans w.synchronizer.plans,
      w.commitGlobals.2.2.rollups.Holds q globalScope w.facts.lines := by
  have hdone := w.globalsCommitted
  rw [h] at hdone
  generalize w.commitGlobals.2.2 = w' at hdone ⊢
  cases hdone with
  | unneeded hnone =>
    refine ⟨rfl, rfl, fun _ _ _ => rfl, fun q hq => ?_⟩
    rw [hnone] at hq
    cases hq
  | @committed g hg =>
    have hadmits : admits w.synchronizer g.version = true := by
      rw [(hg g rfl).version]
      exact admits_iff.2 hv
    refine ⟨rfl, congrArg (·.plans) (w.synchronizer_commit globalScope [] (some g)),
      fun p hp key => get?_commit_other hn hg hp List.not_mem_nil, fun q hq => ?_⟩
    exact holds_commit_global hn (Rebuild.onlyStore_nil _ _) hg rfl hadmits hq

/-- What a full rebuild has done, if nothing has failed. -/
structure RebuiltAll (w w' : SyncSite) : Prop where
  /-- The lines are as before. -/
  facts : w'.facts = w.facts
  /-- So are the rollups. -/
  plans : w'.synchronizer.plans = w.synchronizer.plans
  /-- The stores with lines have right slices. -/
  stores : ∀ p ∈ Rebuild.storePlans w.synchronizer.plans, ∀ key ∈ w.facts.byStore.keys,
    w'.rollups.Holds p key (w.facts.linesOf key)
  /-- All others have the slices that they had. -/
  others : ∀ p ∈ Rebuild.storePlans w.synchronizer.plans, ∀ key ∉ w.facts.byStore.keys,
    w'.rollups.get? ⟨p.name, key⟩ = w.rollups.get? ⟨p.name, key⟩
  /-- The slices from all lines are right. -/
  globals : ∀ q ∈ Rebuild.globalPlans w.synchronizer.plans,
    w'.rollups.Holds q globalScope w.facts.lines

/-- The stores that a full rebuild takes are those with lines. -/
theorem eq_of_partitionKeys {s : FactStore} {keys : List String}
    (h : s.partitionKeys = .ok keys) : keys = s.byStore.keys := by
  obtain ⟨_, -, h⟩ := Except.bind_eq_ok.1 h
  exact (Except.ok.inj h).symm

/-- A full rebuild without failures begins with a synchronisation of the stores with lines; if there
are none, the slices from all lines are committed afterwards. -/
theorem rebuildAll_of_no_failures {w : SyncSite} (h : w.rebuildAll.1.failures = []) :
    (w.sync (KeySet.ofList w.facts.byStore.keys)).1.failures = [] ∧
      (w.facts.byStore.keys ≠ [] ∧
          w.rebuildAll.2.2 = (w.sync (KeySet.ofList w.facts.byStore.keys)).2.2 ∨
        w.facts.byStore.keys = [] ∧
          (w.sync (KeySet.ofList w.facts.byStore.keys)).2.2.commitGlobals.1 = .ok () ∧
          w.rebuildAll.2.2 =
            (w.sync (KeySet.ofList w.facts.byStore.keys)).2.2.commitGlobals.2.2) := by
  unfold rebuildAll at h ⊢
  cases hkeys : w.facts.partitionKeys with
  | error e =>
    rw [hkeys] at h
    cases h
  | ok stores =>
    obtain rfl := eq_of_partitionKeys hkeys
    rw [hkeys] at h
    dsimp only at h ⊢
    by_cases hnone : w.facts.byStore.keys.isEmpty = true
    · rw [if_pos hnone] at h ⊢
      split at h
      · next hglobals =>
        rw [hglobals]
        exact ⟨h, .inr ⟨List.isEmpty_iff.1 hnone, rfl, rfl⟩⟩
      · exact absurd h (by simp)
    · rw [if_neg hnone] at h ⊢
      exact ⟨h, .inl ⟨mt List.isEmpty_iff.2 hnone, rfl⟩⟩

/-- **A full rebuild without failures** brings the stores with lines and the slices from all lines up
to date, and touches no others. -/
theorem rebuiltAll_rebuildAll {plans : List RebuildPlan} {w : SyncSite} (hn : DistinctNames plans)
    (hw : w.Sound plans) (h : w.rebuildAll.1.failures = []) : w.RebuiltAll w.rebuildAll.2.2 := by
  have hn' : DistinctNames w.synchronizer.plans := hw.plans_eq ▸ hn
  obtain ⟨hfailures, hcases⟩ := rebuildAll_of_no_failures h
  obtain ⟨p, hs, hreport⟩ := synced_sync hn' hw.version_le (KeySet.ofList w.facts.byStore.keys)
  generalize w.sync (KeySet.ofList w.facts.byStore.keys) = done at hfailures hcases hs hreport
  obtain ⟨report, events, v⟩ := done
  -- every store with lines is reported as rebuilt, and no other one
  have hrebuilt : ∀ key, key ∈ p.report.rebuilt ↔ key ∈ w.facts.byStore.keys := by
    intro key
    rw [hs.mem_rebuilt_iff (hreport ▸ hfailures), KeySet.mem_ofList]
  have hstores : ∀ q ∈ Rebuild.storePlans w.synchronizer.plans, ∀ key ∈ w.facts.byStore.keys,
      v.rollups.Holds q key (w.facts.linesOf key) :=
    fun q hq key hkey => hs.stores key ((hrebuilt key).2 hkey) q hq
  have hothers : ∀ q ∈ Rebuild.storePlans w.synchronizer.plans, ∀ key ∉ w.facts.byStore.keys,
      v.rollups.get? ⟨q.name, key⟩ = w.rollups.get? ⟨q.name, key⟩ :=
    fun q hq key hkey => hs.others key (mt (hrebuilt key).1 hkey) q hq
  obtain ⟨hsome, heq⟩ | ⟨hnone, hglobals, heq⟩ := hcases
  · rw [heq]
    obtain ⟨key, hkey⟩ := List.exists_mem_of_ne_nil _ hsome
    exact ⟨hs.facts, hs.plans, hstores, hothers,
      hs.globals (List.ne_nil_of_mem ((hrebuilt key).2 hkey))⟩
  · rw [heq]
    have hv' : ∀ n ∈ v.synchronizer.globalVersion, n ≤ v.facts.version := hs.facts ▸ hs.version_le
    obtain ⟨hfacts, hplans, hsame, hright⟩ := commitGlobals_spec (hs.plans.symm ▸ hn') hv' hglobals
    rw [hs.plans] at hsame hright
    refine ⟨hfacts.trans hs.facts, hplans.trans hs.plans, ?_, ?_, ?_⟩
    · intro q hq key hkey
      exact (hstores q hq key hkey).congr (hsame q hq key)
    · intro q hq key hkey
      exact (hsame q hq key).trans (hothers q hq key hkey)
    · exact hs.facts ▸ hright

/-! ### All slices, and no others -/

/-- A slice of the present lines: of a store that has some, or of all of them. -/
def Wanted (w : SyncSite) (id : SliceId) : Prop :=
  (∃ p ∈ Rebuild.storePlans w.synchronizer.plans, ∃ key ∈ w.facts.byStore.keys,
    id = ⟨p.name, key⟩) ∨
  ∃ q ∈ Rebuild.globalPlans w.synchronizer.plans, id = ⟨q.name, globalScope⟩

instance (w : SyncSite) (id : SliceId) : Decidable (w.Wanted id) :=
  inferInstanceAs (Decidable (_ ∨ _))

/-- A slice of a store that has no lines. -/
def Orphaned (w : SyncSite) (id : SliceId) : Prop :=
  (∃ p ∈ Rebuild.storePlans w.synchronizer.plans, p.name = id.schema) ∧
    id.scope ∉ w.facts.byStore.keys

instance (w : SyncSite) (id : SliceId) : Decidable (w.Orphaned id) :=
  inferInstanceAs (Decidable (_ ∧ _))

/-- **All slices of the present lines.** -/
structure UpToDate (w : SyncSite) : Prop where
  /-- Each store that has lines has a slice of them in each rollup that is grouped by store. -/
  stores : ∀ p ∈ Rebuild.storePlans w.synchronizer.plans, ∀ key ∈ w.facts.byStore.keys,
    ∃ rows, p.execute (w.facts.linesOf key) = .ok rows ∧
      w.rollups.get? ⟨p.name, key⟩ = some rows
  /-- Each other rollup has a slice of all lines, if there are any. -/
  globals : ∀ q ∈ Rebuild.globalPlans w.synchronizer.plans,
    w.rollups.Holds q globalScope w.facts.lines

/-- **All slices of the present lines, and no others.** -/
structure Full (w : SyncSite) : Prop extends UpToDate w where
  /-- No other slice is stored. -/
  only : ∀ id ∈ w.rollups.slices.keys, w.Wanted id

theorem Placed.wanted_or_orphaned {w : SyncSite} (h : w.Placed) {id : SliceId}
    (hid : id ∈ w.rollups.slices.keys) : w.Wanted id ∨ w.Orphaned id := by
  cases h id hid with
  | @ofStore p hp key =>
    by_cases hkey : key ∈ w.facts.byStore.keys
    · exact .inl (.inl ⟨p, hp, key, hkey, rfl⟩)
    · exact .inr ⟨⟨p, hp, rfl⟩, hkey⟩
  | @ofAll q hq => exact .inl (.inr ⟨q, hq, rfl⟩)

theorem Wanted.not_orphaned {w : SyncSite} (hn : DistinctNames w.synchronizer.plans) {id : SliceId}
    (h : w.Wanted id) : ¬w.Orphaned id := by
  rintro ⟨⟨p, hp, hname⟩, hscope⟩
  rcases h with ⟨p', -, key, hkey, rfl⟩ | ⟨q, hq, rfl⟩
  · exact hscope hkey
  · exact Rebuild.name_ne hn hp hq hname

namespace RebuiltAll

variable {plans : List RebuildPlan} {w w' : SyncSite}

theorem wanted_iff (h : w.RebuiltAll w') {id : SliceId} : w'.Wanted id ↔ w.Wanted id := by
  unfold Wanted
  rw [h.facts, h.plans]

theorem orphaned_iff (h : w.RebuiltAll w') {id : SliceId} : w'.Orphaned id ↔ w.Orphaned id := by
  unfold Orphaned
  rw [h.facts, h.plans]

theorem upToDate (h : w.RebuiltAll w') (hfacts : w.facts.Consistent) : w'.UpToDate where
  stores := by
    rw [h.facts, h.plans]
    intro p hp key hkey
    have hlines : w.facts.linesOf key ≠ [] := by
      rw [Ne, hfacts.linesOf_eq_nil_iff, SortedMap.get?_eq_none_iff]
      exact not_not_intro hkey
    exact (h.stores p hp key hkey).exists_rows hlines
  globals := by
    rw [h.facts, h.plans]
    exact h.globals

/-- Slices of stores without lines stay as they are. -/
theorem get?_of_orphaned (h : w.RebuiltAll w') {id : SliceId} (hid : w.Orphaned id) :
    w'.rollups.get? id = w.rollups.get? id := by
  obtain ⟨⟨p, hp, hname⟩, hscope⟩ := hid
  have heq : id = ⟨p.name, id.scope⟩ := by rw [hname]
  rw [heq]
  exact h.others p hp id.scope hscope

/-- **When a full rebuild is full.** -/
theorem full_iff (h : w.RebuiltAll w') (hn : DistinctNames plans) (hw : w.Sound plans)
    (hplaced : w'.Placed) : w'.Full ↔ ∀ id ∈ w.rollups.slices.keys, ¬w.Orphaned id := by
  have hstays : ∀ id, w.Orphaned id →
      (id ∈ w'.rollups.slices.keys ↔ id ∈ w.rollups.slices.keys) := by
    intro id hid
    rw [SortedMap.mem_keys_iff_isSome, SortedMap.mem_keys_iff_isSome]
    have hget : w'.rollups.slices.get? id = w.rollups.slices.get? id := h.get?_of_orphaned hid
    rw [hget]
  constructor
  · intro hfull id hid horphaned
    have hwanted := hfull.only id ((hstays id horphaned).2 hid)
    exact (h.wanted_iff.1 hwanted).not_orphaned (hw.plans_eq ▸ hn) horphaned
  · intro hnone
    refine ⟨h.upToDate hw.reachable.consistent, fun id hid => ?_⟩
    refine (hplaced.wanted_or_orphaned hid).resolve_right fun horphaned => ?_
    have horphaned := h.orphaned_iff.1 horphaned
    exact hnone id ((hstays id horphaned).1 hid) horphaned

end RebuiltAll

/-! ### Full rebuilds after any history -/

/-- **What a full rebuild without failures leaves behind**, after any history. -/
theorem rebuildAll_after_run {plans : List RebuildPlan} (hn : DistinctNames plans)
    (ops : List SyncOp) (h : (run plans ops).rebuildAll.1.failures = []) :
    let w := run plans ops
    let w' := w.rebuildAll.2.2
    w'.facts = w.facts ∧
    w'.synchronizer.plans = plans ∧
    w'.UpToDate ∧
    (∀ id ∈ w'.rollups.slices.keys, w'.Wanted id ∨ w.Orphaned id) ∧
    (∀ id, w.Orphaned id → w'.rollups.get? id = w.rollups.get? id) ∧
    (w'.Full ↔ ∀ id ∈ w.rollups.slices.keys, ¬w.Orphaned id) := by
  intro w w'
  have hw : w.Sound plans := sound_run hn ops
  have hplaced : w'.Placed := (placed_run hn ops).rebuildAll hn hw
  have hall : w.RebuiltAll w' := rebuiltAll_rebuildAll hn hw h
  exact ⟨hall.facts, hall.plans.trans hw.plans_eq, hall.upToDate hw.reachable.consistent,
    fun id hid => (hplaced.wanted_or_orphaned hid).imp_right hall.orphaned_iff.1,
    fun id hid => hall.get?_of_orphaned hid, hall.full_iff hn hw hplaced⟩

/-- Two stores are synchronised, and one of them is purged. -/
def closedDown : List SyncOp :=
  [.change (.append [sampleLine "S1" "r1", sampleLine "S2" "r2"]), .sync (.ofList ["S1", "S2"]),
    .change (.purge "S1")]

/-- A rollup by store and day, and one of all stores. -/
def dailyAndChannels : List RebuildPlan :=
  [lineCount "daily" [.storeId, .date], lineCount "by_channel" [.channel]]

/-- Once the purged store is synchronised, too, a full rebuild leaves the slices of the other store and
those of all lines. -/
theorem rebuildAll_after_closedDown_and_sync :
    DistinctNames dailyAndChannels ∧
    ∃ w, w = run dailyAndChannels (closedDown ++ [.sync (.ofList ["S1"])]) ∧
      w.rebuildAll.1.failures = [] ∧ w.rebuildAll.2.2.Full ∧
      w.rebuildAll.2.2.rollups.slices.keys = [⟨"by_channel", "*"⟩, ⟨"daily", "S2"⟩] := by
  have hn : DistinctNames dailyAndChannels := by decide
  have hfailures : (run dailyAndChannels
      (closedDown ++ [.sync (.ofList ["S1"])])).rebuildAll.1.failures = [] := by decide +kernel
  obtain ⟨-, -, -, -, -, hfull⟩ := rebuildAll_after_run hn _ hfailures
  refine ⟨hn, _, rfl, hfailures, hfull.2 ?_, by decide +kernel⟩
  show ∀ id ∈ (run dailyAndChannels (closedDown ++ [.sync (.ofList ["S1"])])).rollups.slices.keys,
    ¬(run dailyAndChannels (closedDown ++ [.sync (.ofList ["S1"])])).Orphaned id
  decide +kernel

/-- **A full rebuild need not be full**: without that the slice of the purged store is still there. -/
theorem not_full_after_closedDown :
    DistinctNames dailyAndChannels ∧
    ∃ w, w = run dailyAndChannels closedDown ∧ w.rebuildAll.1.failures = [] ∧
      w.facts.byStore.keys = ["S2"] ∧
      (w.rebuildAll.2.2.rollups.get? ⟨"daily", "S1"⟩).isSome = true ∧ ¬w.rebuildAll.2.2.Full := by
  refine ⟨by decide, _, rfl, by decide +kernel, by decide +kernel, by decide +kernel, fun hfull => ?_⟩
  have hwanted := hfull.only ⟨"daily", "S1"⟩ (by decide +kernel)
  exact absurd hwanted (by decide +kernel)

/-- **The first full rebuild is full**: there are no slices of other stores that it could miss. -/
theorem full_rebuildAll_of_unfilled {plans : List RebuildPlan} (hn : DistinctNames plans)
    {ops : List SyncOp} (hnone : (run plans ops).rollups.slices.keys = [])
    (h : (run plans ops).rebuildAll.1.failures = []) : (run plans ops).rebuildAll.2.2.Full := by
  have hw : (run plans ops).Sound plans := sound_run hn ops
  have hplaced := (placed_run hn ops).rebuildAll hn hw
  refine ((rebuiltAll_rebuildAll hn hw h).full_iff hn hw hplaced).2 ?_
  rw [hnone]
  exact fun id hid => absurd hid List.not_mem_nil

end RetailReport.SyncSite
