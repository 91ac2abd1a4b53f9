import RetailReport.Proofs.Rollup.Slices
import RetailReport.Sync.Synchronizer

/-!
# Rebuilds

The slices of a store are computed from its lines, one for each rollup that is grouped by store, and
those of the other rollups from all lines.  A commit puts both in place, unless slices from later
lines are there already.

## Main definitions

* `Rebuild.OfStore`, `Rebuild.OfSnapshot`: computed slices and the lines behind them.
* `SyncSite.admitted`: the slices from all lines that a commit puts in place.

## Main results

* `SyncSite.holds_commit_store`, `SyncSite.get?_commit_other`: the slices of stores.
* `SyncSite.holds_commit_global`, `SyncSite.get?_commit_global`: the slices from all lines.
-/

namespace RetailReport

/-- No two rollups share a name. -/
def DistinctNames (plans : List RebuildPlan) : Prop := (plans.map (·.name)).Nodup

instance (plans : List RebuildPlan) : Decidable (DistinctNames plans) :=
  inferInstanceAs (Decidable (plans.map (·.name)).Nodup)

namespace Rebuild

theorem mem_storePlans {plans : List RebuildPlan} {p : RebuildPlan} :
    p ∈ storePlans plans ↔ p ∈ plans ∧ p.isStoreScoped = true := List.mem_filter

theorem mem_globalPlans {plans : List RebuildPlan} {p : RebuildPlan} :
    p ∈ globalPlans plans ↔ p ∈ plans ∧ p.isStoreScoped = false := by
  simp [globalPlans, List.mem_filter]

theorem name_ne {plans : List RebuildPlan} (hn : DistinctNames plans) {p q : RebuildPlan}
    (hp : p ∈ storePlans plans) (hq : q ∈ globalPlans plans) : p.name ≠ q.name := by
  rw [mem_storePlans] at hp
  rw [mem_globalPlans] at hq
  intro h
  have e : p = q := List.inj_on_of_nodup_map hn hp.1 hq.1 h
  rw [e, hq.2] at hp
  exact Bool.false_ne_true hp.2

/-! ### Computed slices -/

/-- Slices of a store that were computed from some lines. -/
structure OfStore (plans : List RebuildPlan) (key : String) (lines : List FactRecord)
    (batch : RollupBatch) : Prop where
  /-- There is one slice for each rollup that is grouped by store. -/
  sliceIds : batch.sliceIds = (storePlans plans).map fun p => ⟨p.name, key⟩
  /-- Each slice has the rows of its plan. -/
  rows : ∀ p ∈ storePlans plans,
    ∃ rows, p.execute lines = .ok rows ∧ (⟨⟨p.name, key⟩, rows⟩ : SliceUpdate) ∈ batch

/-- No slices but those of a store, each at most once. -/
structure OnlyStore (plans : List RebuildPlan) (key : String) (batch : RollupBatch) : Prop where
  /-- No slice is twice in the batch. -/
  nodup : batch.sliceIds.Nodup
  /-- Each slice is one of the store. -/
  own : ∀ id ∈ batch.sliceIds, ∃ p ∈ storePlans plans, id = ⟨p.name, key⟩

theorem OnlyStore.notMem {plans : List RebuildPlan} {key other name : String} {batch : RollupBatch}
    (h : OnlyStore plans key batch) (hne : other ≠ key) : ⟨name, other⟩ ∉ batch.sliceIds := by
  intro hid
  obtain ⟨p, -, e⟩ := h.own _ hid
  exact hne (SliceId.mk.inj e).2

theorem onlyStore_nil (plans : List RebuildPlan) (key : String) : OnlyStore plans key [] where
  nodup := List.nodup_nil
  own := fun _ h => absurd h List.not_mem_nil

theorem OfStore.only {plans : List RebuildPlan} {key : String} {lines : List FactRecord}
    {batch : RollupBatch} (hn : DistinctNames plans) (h : OfStore plans key lines batch) :
    OnlyStore plans key batch where
  nodup := by
    have hnames : ((storePlans plans).map (·.name)).Nodup :=
      hn.sublist (List.filter_sublist.map _)
    have e : batch.sliceIds =
        ((storePlans plans).map (·.name)).map fun name => ⟨name, key⟩ := by
      rw [List.map_map]
      exact h.sliceIds
    rw [e]
    exact hnames.map fun a b h => (SliceId.mk.inj h).1
  own := fun id hid => by
    rw [h.sliceIds] at hid
    obtain ⟨p, hp, rfl⟩ := List.mem_map.1 hid
    exact ⟨p, hp, rfl⟩

/-- Slices of the rollups that are not grouped by store, computed from a snapshot. -/
structure OfSnapshot (plans : List RebuildPlan) (snapshot : FactSnapshot) (g : GlobalSlices) :
    Prop where
  /-- They carry the version of the snapshot. -/
  version : g.version = snapshot.version
  /-- There is one slice for each rollup that is not grouped by store. -/
  names : g.rows.map Prod.fst = (globalPlans plans).map (·.name)
  /-- Each slice has the rows of its plan. -/
  rows : ∀ p ∈ globalPlans plans,
    ∃ rows, p.execute snapshot.records = .ok rows ∧ (p.name, rows) ∈ g.rows

theorem rows_eq_ok {p : RebuildPlan} {key : String} {facts : List FactRecord}
    {r : List RollupRow} (h : rows p key facts = .ok r) : p.execute facts = .ok r := by
  unfold rows at h
  split at h
  · next he =>
    cases h
    exact he
  · cases h

theorem key_of_rows_eq_error {p : RebuildPlan} {key : String} {facts : List FactRecord}
    {f : SyncFailure} (h : rows p key facts = .error f) : f.key = key := by
  unfold rows at h
  split at h
  · cases h
  · cases h; rfl

theorem ofStore_of_storeBatch {plans : List RebuildPlan} {key : String} {facts : List FactRecord}
    {batch : RollupBatch} (h : storeBatch plans key facts = .ok batch) :
    OfStore plans key facts batch := by
  have hrow (p : RebuildPlan) (u : SliceUpdate)
      (hu : (do let r ← rows p key facts; return (⟨⟨p.name, key⟩, r⟩ : SliceUpdate)) = .ok u) :
      p.execute facts = .ok u.rows ∧ u = ⟨⟨p.name, key⟩, u.rows⟩ := by
    obtain ⟨r, hr, hu⟩ := Except.bind_eq_ok.1 hu
    cases hu
    exact ⟨rows_eq_ok hr, rfl⟩
  constructor
  · exact List.map_eq_of_mapM_eq_ok h fun p u hu => congrArg (·.id) (hrow p u hu).2
  · intro p hp
    obtain ⟨u, hu, hpu⟩ := List.exists_mem_of_mapM_eq_ok h hp
    obtain ⟨he, e⟩ := hrow p u hpu
    exact ⟨u.rows, he, e ▸ hu⟩

/-- The store is to blame for what of its slices cannot be computed. -/
theorem key_of_storeBatch_eq_error {plans : List RebuildPlan} {key : String}
    {facts : List FactRecord} {f : SyncFailure} (h : storeBatch plans key facts = .error f) :
    f.key = key := by
  obtain ⟨p, -, hp⟩ := List.exists_mem_of_mapM_eq_error h
  cases hrows : rows p key facts with
  | error e =>
    rw [hrows] at hp
    cases hp
    exact key_of_rows_eq_error hrows
  | ok r =>
    rw [hrows] at hp
    cases hp

theorem ofStore_of_ofKeyScan {plans : List RebuildPlan} {key : String} {facts : FactStore}
    {batch : RollupBatch}
    (h : ofKeyScan plans key (facts.scanKeys (KeySet.ofList [key])) = .ok batch) :
    OfStore plans key (facts.linesOf key) batch := by
  unfold ofKeyScan FactStore.scanKeys FactStore.check at h
  split at h
  · next fs hs =>
    split at hs
    · have hfs : fs = facts.linesOf key := by
        cases hs
        exact List.append_nil _
      exact hfs ▸ ofStore_of_storeBatch h
    · cases hs
  · cases h

theorem key_of_ofKeyScan_eq_error {plans : List RebuildPlan} {key : String}
    {scan : Except FactStoreError (List FactRecord)} {f : SyncFailure}
    (h : ofKeyScan plans key scan = .error f) : f.key = key := by
  unfold ofKeyScan at h
  split at h
  · exact key_of_storeBatch_eq_error h
  · cases h; rfl

theorem ofSnapshot_of_globalSlices {plans : List RebuildPlan} {snapshot : FactSnapshot}
    {g : GlobalSlices} (h : globalSlices plans snapshot = .ok g) : OfSnapshot plans snapshot g := by
  obtain ⟨l, hl, h⟩ := Except.bind_eq_ok.1 h
  cases h
  have hrow (p : RebuildPlan) (e : String × List RollupRow)
      (he : (do let r ← rows p globalScope snapshot.records; return (p.name, r)) = .ok e) :
      p.execute snapshot.records = .ok e.2 ∧ e = (p.name, e.2) := by
    obtain ⟨r, hr, he⟩ := Except.bind_eq_ok.1 he
    cases he
    exact ⟨rows_eq_ok hr, rfl⟩
  constructor
  · rfl
  · exact List.map_eq_of_mapM_eq_ok hl fun p e he => congrArg Prod.fst (hrow p e he).2
  · intro p hp
    obtain ⟨e, he, hpe⟩ := List.exists_mem_of_mapM_eq_ok hl hp
    obtain ⟨hx, heq⟩ := hrow p e hpe
    exact ⟨e.2, hx, heq ▸ he⟩

theorem ofSnapshot_of_ofScan {plans : List RebuildPlan} {facts : FactStore} {g : GlobalSlices}
    (h : ofScan plans facts.scanAll = .ok g) :
    OfSnapshot plans ⟨facts.version, facts.lines⟩ g := by
  unfold ofScan FactStore.scanAll FactStore.check at h
  split at h
  · next snapshot hs =>
    split at hs
    · cases hs
      exact ofSnapshot_of_globalSlices h
    · cases hs
  · cases h

end Rebuild

/-! ### Commits -/

namespace SyncSite

/-- Two sites that differ in nothing but flights and counts. -/
structure Alike (w w' : SyncSite) : Prop where
  /-- The lines are the same. -/
  facts : w'.facts = w.facts
  /-- The slices are the same. -/
  rollups : w'.rollups = w.rollups
  /-- The rollups are the same. -/
  plans : w'.synchronizer.plans = w.synchronizer.plans
  /-- The slices from all lines are of the same version. -/
  globalVersion : w'.synchronizer.globalVersion = w.synchronizer.globalVersion

variable {w : SyncSite} {key : String} {batch : RollupBatch} {globals : Option GlobalSlices}

/-- The slices that a commit replaces beside those of the store: none if later ones are there. -/
def admitted (s : Synchronizer) (globals : Option GlobalSlices) : RollupBatch :=
  match globals with
  | some g =>
    if admits s g.version then g.rows.map fun (name, rows) => ⟨⟨name, globalScope⟩, rows⟩ else []
  | none => []

theorem fst_withGlobals (s : Synchronizer) (batch : RollupBatch) (globals : Option GlobalSlices) :
    (withGlobals s batch globals).1 = batch ++ admitted s globals := by
  unfold withGlobals admitted
  cases globals with
  | none => exact (List.append_nil batch).symm
  | some g =>
    dsimp only
    split
    · rfl
    · exact (List.append_nil batch).symm

/-- The version of the slices from all lines after a commit. -/
def newVersion (s : Synchronizer) (globals : Option GlobalSlices) : Option Nat :=
  match globals with
  | some g => if admits s g.version then some g.version else s.globalVersion
  | none => s.globalVersion

/-- Of the synchronizer a commit changes no more than that version. -/
theorem snd_withGlobals (s : Synchronizer) (batch : RollupBatch) (globals : Option GlobalSlices) :
    (withGlobals s batch globals).2 = { s with globalVersion := newVersion s globals } := by
  unfold withGlobals newVersion
  cases globals with
  | none => rfl
  | some g => dsimp only; split <;> rfl

theorem admits_iff {s : Synchronizer} {version : Nat} :
    admits s version = true ↔ ∀ u ∈ s.globalVersion, u ≤ version := by
  unfold admits
  cases s.globalVersion <;> simp

/-- Versions of slices from all lines do not go back. -/
theorem le_newVersion {s : Synchronizer} {u : Nat} (hu : u ∈ s.globalVersion)
    (globals : Option GlobalSlices) : ∃ u' ∈ newVersion s globals, u ≤ u' := by
  unfold newVersion
  cases globals with
  | none => exact ⟨u, hu, Nat.le_refl u⟩
  | some g =>
    dsimp only
    split
    · next ha => exact ⟨g.version, rfl, admits_iff.1 ha u hu⟩
    · exact ⟨u, hu, Nat.le_refl u⟩

/-- After a commit the slices from all lines are not older than those that it brought. -/
theorem version_le_newVersion (s : Synchronizer) (g : GlobalSlices) :
    ∃ u ∈ newVersion s (some g), g.version ≤ u := by
  unfold newVersion
  dsimp only
  split
  · exact ⟨g.version, rfl, Nat.le_refl _⟩
  · next ha =>
    rw [admits_iff] at ha
    push Not at ha
    obtain ⟨u, hu, hlt⟩ := ha
    exact ⟨u, hu, by omega⟩

theorem rollups_commit (w : SyncSite) (key : String) (batch : RollupBatch)
    (globals : Option GlobalSlices) :
    (w.commit key batch globals).2.2.rollups =
      w.rollups.commit (batch ++ admitted w.synchronizer globals) := by
  rw [← fst_withGlobals]
  rfl

/-- A commit changes nothing of the synchronizer but the version of the slices from all lines. -/
theorem synchronizer_commit (w : SyncSite) (key : String) (batch : RollupBatch)
    (globals : Option GlobalSlices) :
    (w.commit key batch globals).2.2.synchronizer =
      { w.synchronizer with globalVersion := newVersion w.synchronizer globals } :=
  snd_withGlobals ..

/-- Slices from lines up to some version bring no later version in. -/
theorem version_le_commit {n : Nat} (hv : ∀ v ∈ w.synchronizer.globalVersion, v ≤ n)
    (hg : ∀ g ∈ globals, g.version ≤ n) :
    ∀ v ∈ (w.commit key batch globals).2.2.synchronizer.globalVersion, v ≤ n := by
  rw [synchronizer_commit]
  show ∀ v ∈ newVersion w.synchronizer globals, v ≤ n
  unfold newVersion
  cases globals with
  | none => exact hv
  | some g =>
    dsimp only
    split
    · intro v h
      cases h
      exact hg g rfl
    · exact hv

/-- Slices with the scope `*` of the other rollups are all that a commit can admit. -/
theorem mem_sliceIds_admitted {s : Synchronizer} {snapshot : FactSnapshot}
    (hg : ∀ g ∈ globals, Rebuild.OfSnapshot s.plans snapshot g) {id : SliceId}
    (h : id ∈ (admitted s globals).sliceIds) :
    ∃ q ∈ Rebuild.globalPlans s.plans, id = ⟨q.name, globalScope⟩ := by
  cases globals with
  | none => cases h
  | some g =>
    unfold admitted at h
    dsimp only at h
    split at h
    · rw [RollupBatch.sliceIds, List.map_map] at h
      obtain ⟨e, he, rfl⟩ := List.mem_map.1 h
      have : e.1 ∈ g.rows.map Prod.fst := List.mem_map_of_mem he
      rw [(hg g rfl).names] at this
      obtain ⟨q, hq, e⟩ := List.mem_map.1 this
      exact ⟨q, hq, by rw [e]; rfl⟩
    · cases h

theorem nodup_sliceIds_admitted {s : Synchronizer} {snapshot : FactSnapshot}
    (hn : DistinctNames s.plans) (hg : ∀ g ∈ globals, Rebuild.OfSnapshot s.plans snapshot g) :
    (admitted s globals).sliceIds.Nodup := by
  cases globals with
  | none => exact List.nodup_nil
  | some g =>
    unfold admitted
    dsimp only
    split
    · have hnames : (g.rows.map Prod.fst).Nodup := by
        rw [(hg g rfl).names]
        exact hn.sublist (List.filter_sublist.map _)
      have e : RollupBatch.sliceIds (g.rows.map fun e => ⟨⟨e.1, globalScope⟩, e.2⟩) =
          (g.rows.map Prod.fst).map fun name => ⟨name, globalScope⟩ := by
        simp [RollupBatch.sliceIds, Function.comp_def]
      rw [e]
      exact hnames.map fun a b h => (SliceId.mk.inj h).1
    · exact List.nodup_nil

section Commit

variable {snapshot : FactSnapshot} (hn : DistinctNames w.synchronizer.plans)
  (ho : Rebuild.OnlyStore w.synchronizer.plans key batch)
  (hg : ∀ g ∈ globals, Rebuild.OfSnapshot w.synchronizer.plans snapshot g)

include hn ho hg

/-- No slice is twice in what a commit replaces. -/
theorem nodup_sliceIds_commit :
    (batch ++ admitted w.synchronizer globals : RollupBatch).sliceIds.Nodup := by
  rw [RollupBatch.sliceIds, List.map_append, List.nodup_append']
  refine ⟨ho.nodup, nodup_sliceIds_admitted hn hg, fun id hid hid' => ?_⟩
  obtain ⟨p, hp, rfl⟩ := ho.own id hid
  obtain ⟨q, hq, e⟩ := mem_sliceIds_admitted hg hid'
  exact Rebuild.name_ne hn hp hq (SliceId.mk.inj e).1

/-- **A commit makes the slices of its store right** for the lines that they were computed from. -/
theorem holds_commit_store {lines : List FactRecord}
    (hb : Rebuild.OfStore w.synchronizer.plans key lines batch) {p : RebuildPlan}
    (hp : p ∈ Rebuild.storePlans w.synchronizer.plans) :
    (w.commit key batch globals).2.2.rollups.Holds p key lines := by
  obtain ⟨rows, hrows, hu⟩ := hb.rows p hp
  refine ⟨rows, hrows, ?_⟩
  rw [rollups_commit]
  exact RollupStore.get?_commit_of_mem (nodup_sliceIds_commit hn ho hg)
    (List.mem_append_left _ hu) _

omit ho in
/-- The slices of other stores stay as they are. -/
theorem get?_commit_other {p : RebuildPlan} (hp : p ∈ Rebuild.storePlans w.synchronizer.plans)
    {other : String} (h : (⟨p.name, other⟩ : SliceId) ∉ batch.sliceIds) :
    (w.commit key batch globals).2.2.rollups.get? ⟨p.name, other⟩ =
      w.rollups.get? ⟨p.name, other⟩ := by
  rw [rollups_commit]
  refine RollupStore.get?_commit_of_notMem ?_ _
  rw [RollupBatch.sliceIds, List.map_append, List.mem_append]
  rintro (hid | hid)
  · exact h hid
  · obtain ⟨q, hq, e⟩ := mem_sliceIds_admitted hg hid
    exact Rebuild.name_ne hn hp hq (SliceId.mk.inj e).1

/-- **A commit makes the slices of the other rollups right** for the snapshot that they were
computed from, if it is at least as late as that of the slices that are there. -/
theorem holds_commit_global {g : GlobalSlices} (hsome : globals = some g)
    (hadmits : admits w.synchronizer g.version = true) {q : RebuildPlan}
    (hq : q ∈ Rebuild.globalPlans w.synchronizer.plans) :
    (w.commit key batch globals).2.2.rollups.Holds q globalScope snapshot.records := by
  subst hsome
  obtain ⟨rows, hrows, hmem⟩ := (hg g rfl).rows q hq
  refine ⟨rows, hrows, ?_⟩
  have hu : (⟨⟨q.name, globalScope⟩, rows⟩ : SliceUpdate) ∈ admitted w.synchronizer (some g) := by
    unfold admitted
    dsimp only
    rw [if_pos hadmits]
    exact List.mem_map_of_mem (f := fun e : String × List RollupRow =>
      (⟨⟨e.1, globalScope⟩, e.2⟩ : SliceUpdate)) hmem
  rw [rollups_commit]
  exact RollupStore.get?_commit_of_mem (nodup_sliceIds_commit hn ho hg)
    (List.mem_append_right _ hu) _

omit hg in
/-- Slices that are computed from all lines stay as they are if later ones are there. -/
theorem get?_commit_global (h : ∀ g ∈ globals, admits w.synchronizer g.version = false)
    {q : RebuildPlan} (hq : q ∈ Rebuild.globalPlans w.synchronizer.plans) :
    (w.commit key batch globals).2.2.rollups.get? ⟨q.name, globalScope⟩ =
      w.rollups.get? ⟨q.name, globalScope⟩ := by
  rw [rollups_commit]
  refine RollupStore.get?_commit_of_notMem ?_ _
  have hnone : admitted w.synchronizer globals = [] := by
    unfold admitted
    cases globals with
    | none => rfl
    | some g => dsimp only; rw [if_neg (by simp [h g rfl])]
  rw [hnone, List.append_nil]
  intro hid
  obtain ⟨p, hp, e⟩ := ho.own _ hid
  exact Rebuild.name_ne hn hp hq (SliceId.mk.inj e).1.symm

end Commit

end SyncSite

end RetailReport
