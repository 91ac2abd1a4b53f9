import RetailReport.Proofs.Fact.History
import RetailReport.Proofs.Rollup.Compile
import RetailReport.Proofs.Sync.Alone
import RetailReport.Service.Basic

/-!
# Histories of synchronisations that run one after the other

Lines come and go, changes are noted, some stores or all of them are rebuilt, in any order.  A
synchronisation that follows rebuilds each of its stores or reports it as failed.  A store that it has
rebuilt has right slices, all others have the slices that they had, and the slices from all lines are
right as soon as one store is rebuilt.

## Main definitions

* `SyncOp`, `SyncSite.perform`, `SyncSite.run`: what can happen, and what becomes of the site.
* `SyncSite.Sound`: what every history keeps.

## Main results

* `SyncSite.Sound.perform`: one step; `SyncSite.sound_run`: a whole history.
* `SyncSite.sync_after_run`: **what a synchronisation does after any history**.
* `ReportService.distinctNames_of_compileAll`: the rollups of a service have distinct names.
-/

namespace RetailReport

/-- What can happen to a site while synchronisations run one after the other. -/
inductive SyncOp where
  /-- Lines come or go. -/
  | change (op : FactOp)
  /-- A change of some stores is noted. -/
  | note (keys : KeySet String)
  /-- Some stores are rebuilt. -/
  | sync (keys : KeySet String)
  /-- All stores are rebuilt. -/
  | rebuildAll

namespace SyncSite

/-- The site after an operation, and what listeners were told of it. -/
def perform (w : SyncSite) : SyncOp → List SyncEvent × SyncSite
  | .change op => ([], { w with facts := w.facts.apply op })
  | .note keys => ([], { w with synchronizer := w.synchronizer.recordMutation keys })
  | .sync keys => (w.sync keys).2
  | .rebuildAll => w.rebuildAll.2

/-- A site without lines and slices. -/
def start (plans : List RebuildPlan) : SyncSite where
  facts := {}
  rollups := {}
  synchronizer := { plans }

/-- The site after some operations. -/
def run (plans : List RebuildPlan) (ops : List SyncOp) : SyncSite :=
  ops.foldl (fun w op => (w.perform op).2) (start plans)

/-- A full rebuild does nothing at all, or it rebuilds some stores; then it may commit the slices from
all lines. -/
theorem rebuildAll_cases (w : SyncSite) :
    w.rebuildAll.2 = ([], w) ∨ ∃ keys, w.rebuildAll.2 = (w.sync keys).2 ∨
      w.rebuildAll.2 = ((w.sync keys).2.1 ++ (w.sync keys).2.2.commitGlobals.2.1,
        (w.sync keys).2.2.commitGlobals.2.2) := by
  unfold rebuildAll
  split
  · exact .inl rfl
  · next stores _ =>
    refine .inr ⟨KeySet.ofList stores, ?_⟩
    dsimp only
    split
    · right
      split <;> next hglobals => rw [hglobals]
    · exact .inl rfl

/-- **What every history keeps.** -/
structure Sound (plans : List RebuildPlan) (w : SyncSite) : Prop where
  /-- The rollups are those of the start. -/
  plans_eq : w.synchronizer.plans = plans
  /-- The fact store has been changed by its operations only. -/
  reachable : w.facts.Reachable
  /-- No slices from lines later than the present ones are there. -/
  version_le : ∀ v ∈ w.synchronizer.globalVersion, v ≤ w.facts.version

theorem sound_start (plans : List RebuildPlan) : (start plans).Sound plans where
  plans_eq := rfl
  reachable := .empty
  version_le := fun v h => by cases h

namespace Sound

variable {plans : List RebuildPlan} {w : SyncSite}

theorem change (h : w.Sound plans) (op : FactOp) :
    Sound plans { w with facts := w.facts.apply op } where
  plans_eq := h.plans_eq
  reachable := h.reachable.apply op
  version_le := fun v hv =>
    Nat.le_trans (h.version_le v hv) (FactStore.since_apply h.reachable.consistent op).version_le

theorem sync (hn : DistinctNames plans) (h : w.Sound plans) (keys : KeySet String) :
    (w.sync keys).2.2.Sound plans := by
  obtain ⟨p, hs, -⟩ := synced_sync (h.plans_eq ▸ hn) h.version_le keys
  refine ⟨hs.plans.trans h.plans_eq, ?_, ?_⟩
  · rw [hs.facts]
    exact h.reachable
  · rw [hs.facts]
    exact hs.version_le

/-- Flights and counts do not matter. -/
theorem congr {v : SyncSite} (h : w.Sound plans) (e : w.Alike v) : v.Sound plans where
  plans_eq := e.plans.trans h.plans_eq
  reachable := e.facts ▸ h.reachable
  version_le := e.globalVersion ▸ e.facts ▸ h.version_le

theorem facts_sync (hn : DistinctNames plans) (h : w.Sound plans) (keys : KeySet String) :
    (w.sync keys).2.2.facts = w.facts := by
  obtain ⟨p, hs, -⟩ := synced_sync (h.plans_eq ▸ hn) h.version_le keys
  exact hs.facts

/-- A full rebuild changes no lines. -/
theorem facts_rebuildAll (hn : DistinctNames plans) (h : w.Sound plans) :
    w.rebuildAll.2.2.facts = w.facts := by
  obtain heq | ⟨keys, heq | heq⟩ := w.rebuildAll_cases
  · rw [heq]
  · rw [heq]
    exact h.facts_sync hn keys
  · rw [heq]
    refine Eq.trans ?_ (h.facts_sync hn keys)
    unfold SyncSite.commitGlobals
    split <;> rfl

theorem commitGlobals (h : w.Sound plans) : w.commitGlobals.2.2.Sound plans := by
  have hdone := w.globalsCommitted
  generalize w.commitGlobals.1 = outcome at hdone
  generalize w.commitGlobals.2.2 = w' at hdone ⊢
  cases hdone with
  | unneeded _ => exact h
  | failed _ => exact h
  | @committed g hg =>
    have hplans := congrArg (·.plans) (w.synchronizer_commit globalScope [] (some g))
    -- the slices are computed from the present lines
    exact ⟨hplans.trans h.plans_eq, h.reachable,
      version_le_commit h.version_le fun g' hsome => Nat.le_of_eq (hg g' hsome).version⟩

theorem rebuildAll (hn : DistinctNames plans) (h : w.Sound plans) :
    w.rebuildAll.2.2.Sound plans := by
  obtain heq | ⟨keys, heq | heq⟩ := w.rebuildAll_cases
  · rw [heq]
    exact h
  · rw [heq]
    exact h.sync hn keys
  · rw [heq]
    exact (h.sync hn keys).commitGlobals

/-- **Every operation keeps it.** -/
theorem perform (hn : DistinctNames plans) (h : w.Sound plans) (op : SyncOp) :
    (w.perform op).2.Sound plans := by
  cases op with
  | change op => exact h.change op
  | note keys => exact ⟨h.plans_eq, h.reachable, h.version_le⟩
  | sync keys => exact h.sync hn keys
  | rebuildAll => exact h.rebuildAll hn

end Sound

/-- So does every history. -/
theorem sound_run {plans : List RebuildPlan} (hn : DistinctNames plans) (ops : List SyncOp) :
    (run plans ops).Sound plans := by
  unfold run
  suffices ∀ w : SyncSite, w.Sound plans →
      (ops.foldl (fun w op => (w.perform op).2) w).Sound plans from this _ (sound_start plans)
  induction ops with
  | nil => exact fun _ h => h
  | cons op ops ih => exact fun w h => ih _ (h.perform hn op)

/-! ### Any synchronisation -/

/-- **What a synchronisation does after any history**: each of its stores is rebuilt or fails, and none
is both.  The slices of the rebuilt stores are what their plans make of the lines, those of the failed
ones and of all stores that it is not about are as before.  The slices from all lines are what their
plans make of these, or, if no store was rebuilt, as before. -/
theorem sync_after_run {plans : List RebuildPlan} (hn : DistinctNames plans) (ops : List SyncOp)
    (keys : KeySet String) :
    let w := run plans ops
    let report := (w.sync keys).1
    let w' := (w.sync keys).2.2
    w'.facts = w.facts ∧
    (report.rebuilt ++ report.failedKeys).Perm keys.members ∧
    (∀ p ∈ plans, p.isStoreScoped = true → ∀ key ∈ report.rebuilt,
      w'.rollups.Holds p key (w'.facts.linesOf key)) ∧
    (∀ p ∈ plans, p.isStoreScoped = true → ∀ key, key ∈ report.failedKeys ∨ key ∉ keys.members →
      w'.rollups.get? ⟨p.name, key⟩ = w.rollups.get? ⟨p.name, key⟩) ∧
    (∀ p ∈ plans, p.isStoreScoped = false →
      (report.rebuilt ≠ [] → w'.rollups.Holds p globalScope w'.facts.lines) ∧
      (report.rebuilt = [] →
        w'.rollups.get? ⟨p.name, globalScope⟩ = w.rollups.get? ⟨p.name, globalScope⟩)) := by
  intro w report w'
  have hw : w.Sound plans := sound_run hn ops
  obtain ⟨p, hs, hreport⟩ := synced_sync (hw.plans_eq ▸ hn) hw.version_le keys
  have hreport : report = p.report := hreport
  have hfacts : w'.facts = w.facts := hs.facts
  have hstore {q : RebuildPlan} (hq : q ∈ plans) (hscope : q.isStoreScoped = true) :
      q ∈ Rebuild.storePlans w.synchronizer.plans := by
    rw [hw.plans_eq]
    exact Rebuild.mem_storePlans.2 ⟨hq, hscope⟩
  have hglobal {q : RebuildPlan} (hq : q ∈ plans) (hscope : q.isStoreScoped = false) :
      q ∈ Rebuild.globalPlans w.synchronizer.plans := by
    rw [hw.plans_eq]
    exact Rebuild.mem_globalPlans.2 ⟨hq, hscope⟩
  rw [hfacts, hreport]
  refine ⟨rfl, hs.partition, fun q hq hscope key hkey => hs.stores key hkey q (hstore hq hscope),
    fun q hq hscope key hkey => ?_, fun q hq hscope =>
      ⟨fun hsome => hs.globals hsome q (hglobal hq hscope),
        fun hnil => hs.globals_eq hnil q (hglobal hq hscope)⟩⟩
  -- a store that failed is not among the rebuilt ones as well
  have hnot : key ∉ p.report.rebuilt := by
    intro hmem
    rcases hkey with hfailed | hother
    · have hnodup := hs.partition.nodup_iff.2 (KeySet.nodup_members keys)
      exact (List.nodup_append'.1 hnodup).2.2 hmem hfailed
    · exact hother ((hs.reported key).2 (.inl hmem))
  exact hs.others key hnot q (hstore hq hscope)

/-- A rollup that cannot be computed for any line: its derived field has no formula. -/
def unfinished (name : String) : RebuildPlan :=
  { lineCount name [.storeId] with derived := [{ name := "share", formula := "share" }] }

/-- Of two stores the one with a line fails, after the slice of another rollup was computed for it;
the other store, which has none, is rebuilt, and with it the slices from all lines. -/
theorem sync_with_failing_neighbour :
    DistinctNames [lineCount "daily" [.storeId, .date], unfinished "shares",
      lineCount "by_channel" [.channel]] ∧
    ∃ w, w = run [lineCount "daily" [.storeId, .date], unfinished "shares",
        lineCount "by_channel" [.channel]] [.change (.append [sampleLine "S1" "r1"])] ∧
      (w.sync (.ofList ["S1", "S2"])).1.rebuilt = ["S2"] ∧
      (w.sync (.ofList ["S1", "S2"])).1.failedKeys = ["S1"] ∧
      (w.sync (.ofList ["S1", "S2"])).2.2.rollups.get? ⟨"daily", "S1"⟩ = none ∧
      (w.sync (.ofList ["S1", "S2"])).2.2.rollups.Holds (lineCount "by_channel" [.channel])
        globalScope w.facts.lines ∧
      w.facts.lines = [sampleLine "S1" "r1"] := by
  have hn : DistinctNames [lineCount "daily" [.storeId, .date], unfinished "shares",
      lineCount "by_channel" [.channel]] := by decide
  obtain ⟨hfacts, -, -, hfailed, hglobal⟩ :=
    sync_after_run hn [.change (.append [sampleLine "S1" "r1"])] (.ofList ["S1", "S2"])
  have hrebuilt : ((run [lineCount "daily" [.storeId, .date], unfinished "shares",
      lineCount "by_channel" [.channel]] [.change (.append [sampleLine "S1" "r1"])]).sync
        (.ofList ["S1", "S2"])).1.rebuilt = ["S2"] := by decide +kernel
  have hkeys : ((run [lineCount "daily" [.storeId, .date], unfinished "shares",
      lineCount "by_channel" [.channel]] [.change (.append [sampleLine "S1" "r1"])]).sync
        (.ofList ["S1", "S2"])).1.failedKeys = ["S1"] := by decide +kernel
  refine ⟨hn, _, rfl, hrebuilt, hkeys, ?_, ?_, by decide +kernel⟩
  · exact hfailed _ List.mem_cons_self rfl "S1" (.inl (hkeys ▸ List.mem_cons_self))
  · rw [← hfacts]
    refine (hglobal _ (List.mem_cons_of_mem _ (List.mem_cons_of_mem _ List.mem_cons_self)) rfl).1 ?_
    rw [hrebuilt]
    exact List.cons_ne_nil _ _

end SyncSite

/-! ### The rollups of a service -/

/-- **No two rollups of a service share a name**: the plans are listed under the names of their schemas,
and a second schema of a name is refused. -/
theorem ReportService.distinctNames_of_compileAll {catalog : Catalog} {formulas : FormulaTable}
    {schemas : List RollupSchema} {plans : PlanTable}
    (h : compileAll catalog formulas schemas = .ok plans) : DistinctNames plans.values := by
  have hlisted : ∀ name p, plans.get? name = some p → p.name = name := by
    refine List.foldlM_ok_induction (P := fun _ (plans : PlanTable) =>
      ∀ name p, plans.get? name = some p → p.name = name) h ?_ ?_
    · intro name p hget
      cases hget
    · intro _ schema plans plans' _ ih hstep name p hget
      split at hstep
      · cases hstep
      · obtain ⟨q, hq, hstep⟩ := Except.bind_eq_ok.1 hstep
        cases hstep
        rw [SortedMap.get?_insert] at hget
        split at hget
        · next hname =>
          cases hget
          rw [hname]
          exact RebuildPlan.name_of_compile hq
        · exact ih name p hget
  have hnames : plans.values.map (·.name) = plans.keys := by
    rw [SortedMap.values, SortedMap.keys, List.map_map]
    refine List.map_congr_left fun entry hmem => ?_
    exact hlisted entry.1 entry.2 (SortedMap.mem_toList.1 hmem)
  show (plans.values.map (·.name)).Nodup
  rw [hnames]
  exact plans.nodup_keys

end RetailReport
