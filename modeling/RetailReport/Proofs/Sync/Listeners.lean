import RetailReport.Proofs.Sync.History

/-!
# What listeners are told

A listener that keeps something beside the rollup store, such as the cache, relies on being told of
every commit, before and after it, and of nothing else that changes slices.

## Main definitions

* `SyncSite.Told`: the events that accompany a change of the stored slices.

## Main results

* `SyncSite.told_perform`: **listeners are told of everything** that an operation does to slices.
-/

namespace RetailReport.SyncSite

/-- The stored slices change from one state to another, commit by commit, and these are the events
that listeners hear of it. -/
inductive Told : RollupStore → List SyncEvent → RollupStore → Prop
  /-- Nothing happens. -/
  | nil (r : RollupStore) : Told r [] r
  /-- One more batch is committed. -/
  | commit {r r' : RollupStore} {events : List SyncEvent} (key : String) (batch : RollupBatch) :
      Told r events r' →
      Told r (events ++ [.beforeCommit batch, .onCommitted key batch.sliceIds]) (r'.commit batch)
  /-- A synchronisation is over. -/
  | complete {r r' : RollupStore} {events : List SyncEvent} (report : SyncReport) :
      Told r events r' → Told r (events ++ [.onBatchComplete report]) r'

theorem Told.trans {r r' r'' : RollupStore} {events more : List SyncEvent} (h : Told r events r')
    (h' : Told r' more r'') : Told r (events ++ more) r'' := by
  induction h' with
  | nil => rwa [List.append_nil]
  | commit key batch _ ih =>
    rw [← List.append_assoc]
    exact ih.commit key batch
  | complete report _ ih =>
    rw [← List.append_assoc]
    exact ih.complete report

variable {w : SyncSite}

theorem told_commit (w : SyncSite) (key : String) (batch : RollupBatch)
    (globals : Option GlobalSlices) :
    Told w.rollups (w.commit key batch globals).2.1 (w.commit key batch globals).2.2.rollups :=
  .commit key (withGlobals w.synchronizer batch globals).1 (.nil w.rollups)

/-- A rebuild tells of its commit, if there is one. -/
theorem told_rebuild (w : SyncSite) (key : String) (known : Option GlobalOutcome) :
    Told w.rollups (w.rebuild key known).2.2.1 (w.rebuild key known).2.2.2.rollups := by
  unfold rebuild
  dsimp only
  split
  · exact .nil w.rollups
  · split
    · exact told_commit w key _ none
    · exact .nil w.rollups
    · exact told_commit w key _ (some _)

theorem told_syncKey {r : RollupStore} {p : Progress} (h : Told r p.events w.rollups)
    (key : String) :
    Told r (syncKey (w, p) key).2.events (syncKey (w, p) key).1.rollups :=
  h.trans (told_rebuild { w with synchronizer := (w.synchronizer.openFlight key).2 } key p.globals)

theorem told_sync (w : SyncSite) (keys : KeySet String) :
    Told w.rollups (w.sync keys).2.1 (w.sync keys).2.2.rollups := by
  -- The events so far are part of the progress, so they are kept along with the site.
  have hrun : ∀ (todo : List String) (v : SyncSite) (p : Progress), Told w.rollups p.events v.rollups →
      Told w.rollups (todo.foldl syncKey (v, p)).2.events
        (todo.foldl syncKey (v, p)).1.rollups := by
    intro todo
    induction todo with
    | nil => exact fun _ _ h => h
    | cons key todo ih => exact fun v p h => ih _ _ (told_syncKey h key)
  exact (hrun keys.members { w with synchronizer := w.synchronizer.begin } {}
    (.nil w.rollups)).complete _

theorem told_commitGlobals (w : SyncSite) :
    Told w.rollups w.commitGlobals.2.1 w.commitGlobals.2.2.rollups := by
  unfold commitGlobals
  split
  · exact .nil w.rollups
  · exact .nil w.rollups
  · exact told_commit w globalScope [] (some _)

theorem told_rebuildAll (w : SyncSite) :
    Told w.rollups w.rebuildAll.2.1 w.rebuildAll.2.2.rollups := by
  obtain heq | ⟨keys, heq | heq⟩ := w.rebuildAll_cases
  · rw [heq]
    exact .nil w.rollups
  · rw [heq]
    exact told_sync w keys
  · rw [heq]
    exact (told_sync w keys).trans (told_commitGlobals _)

/-- **Listeners are told of everything** that an operation does to slices. -/
theorem told_perform (w : SyncSite) (op : SyncOp) :
    Told w.rollups (w.perform op).1 (w.perform op).2.rollups := by
  cases op with
  | change op => exact .nil w.rollups
  | note keys => exact .nil w.rollups
  | sync keys => exact told_sync w keys
  | rebuildAll => exact told_rebuildAll w

end RetailReport.SyncSite
