import RetailReport.Proofs.Sync.Rebuild

/-!
# Synchronisations that nothing runs beside

Such a synchronisation rebuilds its stores one after the other, all of them from the same lines.
What it leaves behind follows store by store: the stores that it reports as rebuilt have right
slices, those of all other stores are as before, and the slices from all lines are right as soon as
one store is rebuilt.

## Main definitions

* `SyncSite.Rebuilt`: what the rebuild of one store can come to.
* `SyncSite.GlobalsCommitted`: what a commit of the slices from all lines can come to.
* `SyncSite.Synced`: what has become of some stores.

## Main results

* `SyncSite.rebuilt_rebuild`, `SyncSite.Synced.syncKey`: one store.
* `SyncSite.synced_sync`: the whole synchronisation.
-/

namespace RetailReport.SyncSite

/-- What the rebuild of one store can come to. -/
inductive Rebuilt (w : SyncSite) (key : String) : KeyOutcome → SyncSite → Prop
  /-- It fails, and nothing changes. -/
  | failed {f : SyncFailure} (key_eq : f.key = key) : Rebuilt w key (.error f) w
  /-- Its slices are committed, and with them those that are computed from all lines, if any are. -/
  | committed {batch : RollupBatch} {globals : Option GlobalSlices}
      (ofStore : Rebuild.OfStore w.synchronizer.plans key (w.facts.linesOf key) batch)
      (ofSnapshot : ∀ g ∈ globals,
        Rebuild.OfSnapshot w.synchronizer.plans ⟨w.facts.version, w.facts.lines⟩ g)
      (needed : globals = none → Rebuild.globalPlans w.synchronizer.plans = []) :
      Rebuilt w key (.ok (w.commit key batch globals).1) (w.commit key batch globals).2.2

/-- The slices from all lines, if a synchronisation knows any, come from the present lines. -/
def Known (w : SyncSite) (known : Option GlobalOutcome) : Prop :=
  ∀ g ∈ known, g = Rebuild.ofScan w.synchronizer.plans w.facts.scanAll

theorem globalsFor_eq {w : SyncSite} {known : Option GlobalOutcome} (hk : w.Known known) :
    w.globalsFor known =
      if (Rebuild.globalPlans w.synchronizer.plans).isEmpty then none
      else some (Rebuild.ofScan w.synchronizer.plans w.facts.scanAll) := by
  unfold globalsFor
  cases known with
  | none => rfl
  | some g => rw [hk g rfl]; rfl

/-- What the rebuild of one store does. -/
theorem rebuilt_rebuild {w : SyncSite} {known : Option GlobalOutcome} (hk : w.Known known)
    (key : String) :
    w.Rebuilt key (w.rebuild key known).1 (w.rebuild key known).2.2.2 ∧
      w.Known (w.rebuild key known).2.1 := by
  unfold rebuild
  dsimp only
  cases hscan : Rebuild.ofKeyScan w.synchronizer.plans key
      (w.facts.scanKeys (KeySet.ofList [key])) with
  | error f => exact ⟨.failed (Rebuild.key_of_ofKeyScan_eq_error hscan), hk⟩
  | ok batch =>
    have hb := Rebuild.ofStore_of_ofKeyScan hscan
    rw [globalsFor_eq hk]
    by_cases he : (Rebuild.globalPlans w.synchronizer.plans).isEmpty = true
    · rw [if_pos he]
      exact ⟨.committed hb (fun g h => by cases h) fun _ => List.isEmpty_iff.1 he, hk⟩
    · rw [if_neg he]
      cases hg : Rebuild.ofScan w.synchronizer.plans w.facts.scanAll with
      | error f => exact ⟨.failed rfl, fun g h => by cases h; exact hg.symm⟩
      | ok g =>
        refine ⟨.committed hb (fun g' h => ?_) (fun h => by cases h),
          fun g' h => by cases h; exact hg.symm⟩
        cases h
        exact Rebuild.ofSnapshot_of_ofScan hg

/-- What a commit of the slices from all lines can come to. -/
inductive GlobalsCommitted (w : SyncSite) : Except SyncFailure Unit → SyncSite → Prop
  /-- There are no such slices. -/
  | unneeded (none : Rebuild.globalPlans w.synchronizer.plans = []) : GlobalsCommitted w (.ok ()) w
  /-- It fails, and nothing changes. -/
  | failed (f : SyncFailure) : GlobalsCommitted w (.error f) w
  /-- They are committed. -/
  | committed {g : GlobalSlices}
      (ofSnapshot : ∀ g' ∈ some g,
        Rebuild.OfSnapshot w.synchronizer.plans ⟨w.facts.version, w.facts.lines⟩ g') :
      GlobalsCommitted w (.ok ()) (w.commit globalScope [] (some g)).2.2

theorem globalsCommitted (w : SyncSite) :
    w.GlobalsCommitted w.commitGlobals.1 w.commitGlobals.2.2 := by
  have hknown : w.Known none := fun g h => by cases h
  have heq := globalsFor_eq hknown
  unfold commitGlobals
  rw [heq]
  by_cases he : (Rebuild.globalPlans w.synchronizer.plans).isEmpty = true
  · rw [if_pos he]
    exact .unneeded (List.isEmpty_iff.1 he)
  · rw [if_neg he]
    cases hg : Rebuild.ofScan w.synchronizer.plans w.facts.scanAll with
    | error f => exact .failed f
    | ok g =>
      refine .committed fun g' h => ?_
      cases h
      exact Rebuild.ofSnapshot_of_ofScan hg

/-! ### Store by store -/

/-- What has become of some stores that were rebuilt one after the other. -/
structure Synced (w : SyncSite) (keys : List String) (w' : SyncSite) (p : Progress) : Prop where
  /-- The lines are as before. -/
  facts : w'.facts = w.facts
  /-- So are the rollups. -/
  plans : w'.synchronizer.plans = w.synchronizer.plans
  /-- Slices from all lines come from the present ones. -/
  known : w.Known p.globals
  /-- The report has each of the stores once, and no other. -/
  partition : (p.report.rebuilt ++ p.report.failedKeys).Perm keys
  /-- The rebuilt stores have right slices. -/
  stores : ∀ key ∈ p.report.rebuilt, ∀ q ∈ Rebuild.storePlans w.synchronizer.plans,
    w'.rollups.Holds q key (w.facts.linesOf key)
  /-- All others have the slices that they had. -/
  others : ∀ key ∉ p.report.rebuilt, ∀ q ∈ Rebuild.storePlans w.synchronizer.plans,
    w'.rollups.get? ⟨q.name, key⟩ = w.rollups.get? ⟨q.name, key⟩
  /-- A rebuilt store has brought the slices from all lines up to date. -/
  globals : p.report.rebuilt ≠ [] → ∀ q ∈ Rebuild.globalPlans w.synchronizer.plans,
    w'.rollups.Holds q globalScope w.facts.lines
  /-- Without one they are as before. -/
  globals_eq : p.report.rebuilt = [] → ∀ q ∈ Rebuild.globalPlans w.synchronizer.plans,
    w'.rollups.get? ⟨q.name, globalScope⟩ = w.rollups.get? ⟨q.name, globalScope⟩
  /-- No slices from lines later than the present ones are there. -/
  version_le : ∀ v ∈ w'.synchronizer.globalVersion, v ≤ w.facts.version

theorem synced_nil {w : SyncSite} (hv : ∀ v ∈ w.synchronizer.globalVersion, v ≤ w.facts.version) :
    w.Synced [] { w with synchronizer := w.synchronizer.begin } {} where
  facts := rfl
  plans := rfl
  known := fun g h => by cases h
  partition := .nil
  stores := fun key h => by cases h
  others := fun _ _ _ _ => rfl
  globals := fun h => absurd rfl h
  globals_eq := fun _ _ _ => rfl
  version_le := hv

namespace Synced

variable {w : SyncSite} {keys : List String} {w' : SyncSite} {p : Progress}

theorem reported (h : w.Synced keys w' p) (key : String) :
    key ∈ keys ↔ key ∈ p.report.rebuilt ∨ key ∈ p.report.failedKeys := by
  rw [← h.partition.mem_iff, List.mem_append]

/-- If no store has failed, all of them are rebuilt. -/
theorem mem_rebuilt_iff (h : w.Synced keys w' p) (hfailures : p.report.failures = [])
    {key : String} : key ∈ p.report.rebuilt ↔ key ∈ keys := by
  have hnone : p.report.failedKeys = [] := by
    rw [SyncReport.failedKeys, hfailures]
    rfl
  have hperm := h.partition
  rw [hnone, List.append_nil] at hperm
  exact hperm.mem_iff

/-- Flights and counts have no part in it. -/
theorem congr {v : SyncSite} (h : w.Synced keys w' p) (e : w'.Alike v) : w.Synced keys v p where
  facts := e.facts.trans h.facts
  plans := e.plans.trans h.plans
  known := h.known
  partition := h.partition
  stores := e.rollups ▸ h.stores
  others := e.rollups ▸ h.others
  globals := e.rollups ▸ h.globals
  globals_eq := e.rollups ▸ h.globals_eq
  version_le := e.globalVersion ▸ h.version_le

/-- The flight that the next rebuild opens has no part in what is known of all lines. -/
theorem known_openFlight (h : w.Synced keys w' p) (key : String) :
    Known { w' with synchronizer := (w'.synchronizer.openFlight key).2 } p.globals := by
  show ∀ g ∈ p.globals, g = Rebuild.ofScan w'.synchronizer.plans w'.facts.scanAll
  rw [h.facts, h.plans]
  exact h.known

/-- A store that cannot be rebuilt is reported as failed, and nothing else changes. -/
theorem failed (h : w.Synced keys w' p) {key : String} {f : SyncFailure} (hf : f.key = key)
    {known : Option GlobalOutcome} (hk : w.Known known) (events : List SyncEvent) :
    w.Synced (keys ++ [key]) w' ⟨p.report.add key (.error f) false, known, events⟩ where
  facts := h.facts
  plans := h.plans
  known := hk
  partition := by
    have hfailed : (p.report.add key (.error f) false).failedKeys = p.report.failedKeys ++ [key] := by
      rw [← hf]
      exact List.map_append
    rw [hfailed, ← List.append_assoc]
    exact h.partition.append_right [key]
  stores := h.stores
  others := h.others
  globals := h.globals
  globals_eq := h.globals_eq
  version_le := h.version_le

/-- A store that is rebuilt is reported as such, and has right slices from then on. -/
theorem committed (hn : DistinctNames w.synchronizer.plans) (h : w.Synced keys w' p) {key : String}
    {batch : RollupBatch} {globals : Option GlobalSlices}
    (hb : Rebuild.OfStore w'.synchronizer.plans key (w'.facts.linesOf key) batch)
    (hg : ∀ g ∈ globals,
      Rebuild.OfSnapshot w'.synchronizer.plans ⟨w'.facts.version, w'.facts.lines⟩ g)
    (hnone : globals = none → Rebuild.globalPlans w'.synchronizer.plans = [])
    {known : Option GlobalOutcome} (hk : w.Known known) (events : List SyncEvent) :
    w.Synced (keys ++ [key]) (w'.commit key batch globals).2.2
      ⟨p.report.add key (.ok (w'.commit key batch globals).1) false, known, events⟩ := by
  have hn' : DistinctNames w'.synchronizer.plans := h.plans ▸ hn
  have ho := hb.only hn'
  have hrebuilt : (p.report.add key (.ok (w'.commit key batch globals).1) false).rebuilt =
      p.report.rebuilt ++ [key] := rfl
  -- the slices from all lines are as late as any, so that the commit admits them
  have hadmits (g : GlobalSlices) (hsome : globals = some g) :
      admits w'.synchronizer g.version = true := by
    have hle := h.version_le
    rw [(hg g hsome).version, h.facts]
    exact admits_iff.2 hle
  refine ⟨h.facts, (congrArg (·.plans) (w'.synchronizer_commit ..)).trans h.plans, hk, ?_,
    fun k hmem q hq => ?_, fun k hmem q hq => ?_, fun _ q hq => ?_, fun hnil => ?_, fun v hv => ?_⟩
  · rw [hrebuilt, List.append_assoc]
    refine (List.perm_append_comm.append_left p.report.rebuilt).trans ?_
    rw [← List.append_assoc]
    exact h.partition.append_right [key]
  · rw [← h.plans] at hq
    by_cases hkey : k = key
    · subst hkey
      rw [← h.facts]
      exact holds_commit_store hn' ho hg hb hq
    · rw [hrebuilt, List.mem_append, List.mem_singleton] at hmem
      exact (h.stores k (hmem.resolve_right hkey) q (h.plans ▸ hq)).congr
        (get?_commit_other hn' hg hq (ho.notMem hkey))
  · rw [← h.plans] at hq
    rw [hrebuilt, List.mem_append, List.mem_singleton, not_or] at hmem
    rw [get?_commit_other hn' hg hq (ho.notMem hmem.2)]
    exact h.others k hmem.1 q (h.plans ▸ hq)
  · rw [← h.plans] at hq
    rw [← h.facts]
    cases hsome : globals with
    | none => rw [hnone hsome] at hq; cases hq
    | some g =>
      rw [← hsome]
      exact holds_commit_global hn' ho hg hsome (hadmits g hsome) hq
  · rw [hrebuilt] at hnil
    simp at hnil
  · refine version_le_commit h.version_le (fun g hsome => ?_) v hv
    exact Nat.le_of_eq ((hg g hsome).version.trans (congrArg (·.version) h.facts))

/-- **One more store**: what was done before, and the rebuild of that store. -/
theorem syncKey (hn : DistinctNames w.synchronizer.plans) (h : w.Synced keys w' p) (key : String) :
    w.Synced (keys ++ [key]) (SyncSite.syncKey (w', p) key).1 (SyncSite.syncKey (w', p) key).2 := by
  -- the flight that the rebuild opens
  let v : SyncSite := { w' with synchronizer := (w'.synchronizer.openFlight key).2 }
  have hv : w.Synced keys v p := h.congr ⟨rfl, rfl, rfl, rfl⟩
  have hknown : v.Known p.globals := h.known_openFlight key
  obtain ⟨hr, hk⟩ := rebuilt_rebuild hknown key
  unfold Known at hk
  rw [hv.facts, hv.plans] at hk
  suffices w.Synced (keys ++ [key]) (v.rebuild key p.globals).2.2.2
      ⟨p.report.add key (v.rebuild key p.globals).1 false, (v.rebuild key p.globals).2.1,
        p.events ++ (v.rebuild key p.globals).2.2.1⟩ from this.congr ⟨rfl, rfl, rfl, rfl⟩
  generalize (v.rebuild key p.globals).2.1 = known at hk
  generalize (v.rebuild key p.globals).1 = outcome at hr
  generalize (v.rebuild key p.globals).2.2.2 = v' at hr
  cases hr with
  | failed hf => exact hv.failed hf hk _
  | committed hb hg hnone => exact hv.committed hn hb hg hnone hk _

end Synced

/-- **What a synchronisation does.** -/
theorem synced_sync {w : SyncSite} (hn : DistinctNames w.synchronizer.plans)
    (hv : ∀ v ∈ w.synchronizer.globalVersion, v ≤ w.facts.version) (keys : KeySet String) :
    ∃ p, w.Synced keys.members (w.sync keys).2.2 p ∧ (w.sync keys).1 = p.report := by
  have hrun : ∀ todo done v p, w.Synced done v p →
      w.Synced (done ++ todo) (todo.foldl SyncSite.syncKey (v, p)).1
        (todo.foldl SyncSite.syncKey (v, p)).2 := by
    intro todo
    induction todo with
    | nil => intro done v p h; rwa [List.append_nil]
    | cons key todo ih =>
      intro done v p h
      rw [List.append_cons]
      exact ih _ _ _ (h.syncKey hn key)
  have h := hrun keys.members [] _ _ (synced_nil hv)
  exact ⟨_, h.congr ⟨rfl, rfl, rfl, rfl⟩, rfl⟩

end RetailReport.SyncSite
