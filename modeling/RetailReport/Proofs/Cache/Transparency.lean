import Mathlib.Data.List.Induction
import RetailReport.Proofs.Cache.Slices
import RetailReport.Proofs.Sync.Listeners

/-!
# The cache changes no answer, unless it confuses two slices

The cache listens to the synchronizer: slices are made known before they are committed and forgotten
afterwards.  So it answers as the store does, through any history of changes, synchronisations and
requests, as long as no two of the slices that requests have read have the same text.

The text of a slice joins two names, and both may have slashes.  So the slice of the store `c` in the
rollup `a/b` has the text of the slice of the store `b/c` in the rollup `a`, and what the cache enters
for one it gives for the other.

## Main definitions

* `Cache.hear`: the cache as a listener.
* `RollupEngine.executeDirectly`: the answer of the rollup engine without the cache.
* `CachedSite.run`: what becomes of a site with a cache.

## Main results

* `Cache.Shows.hear`: listening keeps the cache right.
* `CachedSite.shows_run`: so does every history.
* `CachedSite.execute_eq_directly`: **the cache changes no answer** if the texts of slices are apart.
* `CachedSite.execute_eq_of_unambiguous`: for names that keep them apart, it never does.
* `CachedSite.execute_ne_with_shared_text`: otherwise it can.
-/

namespace RetailReport

/-! ### The cache as a listener -/

namespace BloomFilter

theorem contains_insertAll {f : BloomFilter} {text : String} (h : f.contains text = true)
    (texts : List String) : (f.insertAll texts).contains text = true := by
  unfold insertAll
  induction texts generalizing f with
  | nil => exact h
  | cons t texts ih => exact ih (contains_insert h t)

theorem contains_insertAll_of_mem (f : BloomFilter) {text : String} {texts : List String}
    (h : text ∈ texts) : (f.insertAll texts).contains text = true := by
  unfold insertAll
  induction texts generalizing f with
  | nil => cases h
  | cons t texts ih =>
    rcases List.mem_cons.1 h with rfl | h
    · exact contains_insertAll (contains_insert_self f _) texts
    · exact ih _ h

end BloomFilter

namespace Cache

/-- The cache after it has heard of an event. -/
def hear (c : SliceCache) : SyncEvent → SliceCache
  | .beforeCommit batch => c.beforeCommit batch.sliceIds
  | .onCommitted _ slices => c.onCommitted slices
  | .onBatchComplete _ => c

/-- This is what the service has its cache do. -/
theorem cache_hear (s : ReportService) (e : SyncEvent) : (s.hear e).cache = s.cache.hear e := by
  cases e <;> rfl

variable {α : Type}

theorem config_onCommitted (c : Cache α) (slices : List SliceId) :
    (c.onCommitted slices).config = c.config := by
  unfold onCommitted
  induction slices generalizing c with
  | nil => rfl
  | cons id slices ih => exact ih _

theorem filter_onCommitted (c : Cache α) (slices : List SliceId) :
    (c.onCommitted slices).filter = c.filter := by
  unfold onCommitted
  induction slices generalizing c with
  | nil => rfl
  | cons id slices ih => exact ih _

/-- A committed slice has no entry any more, and no entry is new. -/
theorem get?_onCommitted {c : Cache α} {slices : List SliceId} {key : String} {e : CacheEntry α}
    (h : (c.onCommitted slices).entries.get? key = some e) :
    c.entries.get? key = some e ∧ ∀ id ∈ slices, id.key ≠ key := by
  unfold onCommitted at h
  induction slices generalizing c with
  | nil => exact ⟨h, fun _ hid => absurd hid List.not_mem_nil⟩
  | cons id slices ih =>
    obtain ⟨hget, hother⟩ := ih h
    change (c.entries.erase id.key).get? key = some e at hget
    rw [SortedMap.get?_erase] at hget
    split at hget
    · cases hget
    · next hne =>
      refine ⟨hget, fun id' hid' => ?_⟩
      rcases List.mem_cons.1 hid' with rfl | hid'
      · exact fun heq => hne heq.symm
      · exact hother id' hid'

theorem config_beforeCommit (c : Cache α) (slices : List SliceId) :
    (c.beforeCommit slices).config = c.config := by
  unfold beforeCommit register
  split <;> rfl

theorem entries_beforeCommit (c : Cache α) (slices : List SliceId) :
    (c.beforeCommit slices).entries = c.entries := by
  unfold beforeCommit register
  split <;> rfl

theorem filter_beforeCommit {c : Cache α} (h : c.config.filterEnabled = true)
    (slices : List SliceId) :
    (c.beforeCommit slices).filter = c.filter.insertAll (slices.map SliceId.key) := by
  unfold beforeCommit register
  rw [if_pos h]

variable {c : SliceCache} {A : SliceId → Prop}

/-- A new cache is right for a store without slices. -/
theorem shows_new (config : CacheConfig) (A : SliceId → Prop) :
    Shows (.new config) {} A where
  knows := fun _ _ _ hsome => by cases hsome
  entries := fun _ _ _ he => by cases he

/-- **A commit that the cache hears of** leaves it right. -/
theorem Shows.commit {store : RollupStore} (h : c.Shows store A) (batch : RollupBatch) :
    ((c.beforeCommit batch.sliceIds).onCommitted batch.sliceIds).Shows (store.commit batch) A where
  knows := by
    intro henabled id hid hsome
    rw [config_onCommitted, config_beforeCommit] at henabled
    rw [filter_onCommitted, filter_beforeCommit henabled]
    -- A slice that is stored now was committed and made known, or it was stored and known before.
    by_cases hmem : id ∈ batch.sliceIds
    · exact BloomFilter.contains_insertAll_of_mem _ (List.mem_map_of_mem hmem)
    · rw [RollupStore.get?_commit_of_notMem hmem] at hsome
      exact BloomFilter.contains_insertAll (h.knows henabled id hid hsome) _
  entries := by
    intro id hid e he
    obtain ⟨hbefore, hother⟩ := get?_onCommitted he
    rw [entries_beforeCommit] at hbefore
    -- An entry that is left is of a slice that was not committed, and that is as before.
    have hnot : id ∉ batch.sliceIds := fun hmem => hother id hmem rfl
    rw [RollupStore.get?_commit_of_notMem hnot]
    exact h.entries id hid e hbefore

/-- **Listening keeps the cache right.** -/
theorem Shows.hear {store store' : RollupStore} {events : List SyncEvent} (h : c.Shows store A)
    (ht : SyncSite.Told store events store') : (events.foldl Cache.hear c).Shows store' A := by
  induction ht with
  | nil => exact h
  | commit key batch _ ih =>
    rw [List.foldl_append]
    exact ih.commit batch
  | complete report _ ih =>
    rw [List.foldl_append]
    exact ih

end Cache

/-! ### Answers without the cache -/

namespace RollupEngine

/-- **The answer to a request** if each slice is read from the rollup store. -/
def executeDirectly (plans : PlanTable) (store : RollupStore) (r : MetricRequest)
    (cancelled : Bool) : Except EngineError AggregateResult :=
  match plans.checkedPlan r with
  | .error e => .error e
  | .ok plan =>
    (slicesDirectly store plan.name cancelled (scopes plan store r.filter)).bind (answer plan r)

/-- The slices that a request reads. -/
def asked (plans : PlanTable) (store : RollupStore) (r : MetricRequest) : List SliceId :=
  match plans.checkedPlan r with
  | .error _ => []
  | .ok plan => (scopes plan store r.filter).map fun scope => ⟨plan.name, scope⟩

/-- A cache that is right for the slices that a request reads changes nothing about the answer, and
stays right. -/
theorem execute_eq {plans : PlanTable} {store : RollupStore} {c : SliceCache} {r : MetricRequest}
    {A : SliceId → Prop} (hA : SliceId.Apart A) (hc : c.Shows store A)
    (hasked : ∀ id ∈ asked plans store r, A id) (cancelled : Bool) :
    (execute plans store c r cancelled).1 = executeDirectly plans store r cancelled ∧
      (execute plans store c r cancelled).2.Shows store A := by
  unfold execute executeDirectly
  unfold asked at hasked
  cases hchecked : plans.checkedPlan r with
  | error e => exact ⟨rfl, hc⟩
  | ok plan =>
    rw [hchecked] at hasked
    have hscopes : ∀ scope ∈ scopes plan store r.filter, A ⟨plan.name, scope⟩ :=
      fun scope hscope => hasked _ (List.mem_map_of_mem hscope)
    obtain ⟨hrows, hshows⟩ := slices_eq_directly hA hc cancelled hscopes
    refine ⟨?_, hshows⟩
    simp only
    rw [hrows]

theorem name_of_mem_asked {plans : PlanTable} {store : RollupStore} {r : MetricRequest}
    {id : SliceId} (h : id ∈ asked plans store r) : id.schema ∈ plans.values.map (·.name) := by
  unfold asked at h
  split at h
  · cases h
  · next plan hchecked =>
    obtain ⟨scope, -, rfl⟩ := List.mem_map.1 h
    have hget : plans.get? r.schema = some plan := by
      unfold PlanTable.checkedPlan at hchecked
      split at hchecked
      · cases hchecked
      · next hget =>
        split at hchecked
        · rw [hget, Except.ok.inj hchecked]
        · cases hchecked
    exact List.mem_map_of_mem (SortedMap.mem_values.2 ⟨_, hget⟩)

end RollupEngine

/-! ### Histories -/

/-- What can happen to a site that requests are answered at. -/
inductive CachedOp where
  /-- Lines change, or slices do. -/
  | work (op : SyncOp)
  /-- Time passes. -/
  | wait (ms : Nat)
  /-- A request is answered. -/
  | query (r : MetricRequest) (cancelled : Bool)

/-- The stores, the synchronizer and the cache. -/
structure CachedSite where
  /-- The stores and the synchronizer. -/
  site : SyncSite
  /-- The cache. -/
  cache : SliceCache
  /-- The slices that requests have read so far. -/
  asked : List SliceId := []

namespace CachedSite

/-- A site without lines and slices; the cache listens from the beginning. -/
def start (plans : PlanTable) (config : CacheConfig) : CachedSite where
  site := .start plans.values
  cache := .new config

/-- The site after an operation. -/
def step (plans : PlanTable) (w : CachedSite) : CachedOp → CachedSite
  | .work op =>
    let (events, site) := w.site.perform op
    { w with site, cache := events.foldl Cache.hear w.cache }
  | .wait ms => { w with cache := w.cache.advance ms }
  | .query r cancelled =>
    { w with
      cache := (RollupEngine.execute plans w.site.rollups w.cache r cancelled).2
      asked := w.asked ++ RollupEngine.asked plans w.site.rollups r }

/-- The site after some operations. -/
def run (plans : PlanTable) (config : CacheConfig) (ops : List CachedOp) : CachedSite :=
  ops.foldl (step plans) (start plans config)

theorem run_concat (plans : PlanTable) (config : CacheConfig) (ops : List CachedOp)
    (op : CachedOp) : run plans config (ops ++ [op]) = step plans (run plans config ops) op :=
  List.foldl_append

variable {plans : PlanTable} {config : CacheConfig}

theorem asked_subset_step (w : CachedSite) (op : CachedOp) : w.asked ⊆ (step plans w op).asked := by
  cases op with
  | work op => exact List.Subset.refl _
  | wait ms => exact List.Subset.refl _
  | query r cancelled => exact List.subset_append_left _ _

/-- **Every operation keeps the cache right** for slices that have different texts. -/
theorem shows_step {A : SliceId → Prop} (hA : SliceId.Apart A) {w : CachedSite}
    (h : w.cache.Shows w.site.rollups A) {op : CachedOp}
    (hasked : ∀ id ∈ (step plans w op).asked, A id) :
    (step plans w op).cache.Shows (step plans w op).site.rollups A := by
  cases op with
  | work op => exact h.hear (SyncSite.told_perform w.site op)
  | wait ms => exact h.congr rfl rfl rfl
  | query r cancelled =>
    exact (RollupEngine.execute_eq hA h
      (fun id hid => hasked id (List.mem_append_right _ hid)) cancelled).2

/-- So does every history. -/
theorem shows_run {A : SliceId → Prop} (hA : SliceId.Apart A) {ops : List CachedOp}
    (hasked : ∀ id ∈ (run plans config ops).asked, A id) :
    (run plans config ops).cache.Shows (run plans config ops).site.rollups A := by
  -- What was asked for grows with the history, so the induction is on its last operation.
  induction ops using List.reverseRecOn with
  | nil => exact Cache.shows_new config A
  | append_singleton ops op ih =>
    rw [run_concat] at hasked ⊢
    exact shows_step hA (ih fun id hid => hasked id (asked_subset_step _ op hid)) hasked

theorem name_of_mem_asked {ops : List CachedOp} {id : SliceId}
    (h : id ∈ (run plans config ops).asked) : id.schema ∈ plans.values.map (·.name) := by
  induction ops using List.reverseRecOn with
  | nil => cases h
  | append_singleton ops op ih =>
    rw [run_concat] at h
    cases op with
    | work op => exact ih h
    | wait ms => exact ih h
    | query r cancelled =>
      rcases List.mem_append.1 h with hbefore | hnow
      · exact ih hbefore
      · exact RollupEngine.name_of_mem_asked hnow

/-- **The cache changes no answer**, after any history, if no two of the slices that were read so far
and are read now have the same text. -/
theorem execute_eq_directly (plans : PlanTable) (config : CacheConfig) (ops : List CachedOp)
    (r : MetricRequest) (cancelled : Bool)
    (hA : SliceId.Apart fun id => id ∈ (run plans config ops).asked ++
      RollupEngine.asked plans (run plans config ops).site.rollups r) :
    (RollupEngine.execute plans (run plans config ops).site.rollups (run plans config ops).cache r
      cancelled).1 =
      RollupEngine.executeDirectly plans (run plans config ops).site.rollups r cancelled :=
  (RollupEngine.execute_eq hA (shows_run hA fun _ hid => List.mem_append_left _ hid)
    (fun _ hid => List.mem_append_right _ hid) cancelled).1

/-- Two rollups, of which the name of one and a slash begin the name of the other. -/
def nested : PlanTable :=
  .ofPlans [lineCount "a" [.storeId], lineCount "a/b" [.storeId]]

/-- Asks for the lines of each store. -/
def perStore (schema : String) : MetricRequest := { schema, dimensions := [.storeId] }

/-- One line of each store is appended, the stores are synchronised, and the longer name is asked
for. -/
def afterLonger (stores : List String) : CachedSite :=
  run nested { filterEnabled := false }
    [.work (.change (.append (stores.map fun s => sampleLine s s))),
      .work (.sync (.ofList stores)), .query (perStore "a/b") false]

/-- With one store there are two slices, `a/b/c` and `a/c`, and the answers agree. -/
theorem execute_eq_with_one_store :
    (RollupEngine.execute nested (afterLonger ["c"]).site.rollups (afterLonger ["c"]).cache
      (perStore "a") false).1 =
      RollupEngine.executeDirectly nested (afterLonger ["c"]).site.rollups (perStore "a") false ∧
    (afterLonger ["c"]).asked = [⟨"a/b", "c"⟩] ∧
    RollupEngine.asked nested (afterLonger ["c"]).site.rollups (perStore "a") = [⟨"a", "c"⟩] := by
  have hbefore : (afterLonger ["c"]).asked = [⟨"a/b", "c"⟩] := by decide +kernel
  have hnow : RollupEngine.asked nested (afterLonger ["c"]).site.rollups (perStore "a") =
      [⟨"a", "c"⟩] := by decide +kernel
  refine ⟨execute_eq_directly nested _ _ (perStore "a") false ?_, hbefore, hnow⟩
  change SliceId.Apart fun id => id ∈ (afterLonger ["c"]).asked ++
    RollupEngine.asked nested (afterLonger ["c"]).site.rollups (perStore "a")
  rw [hbefore, hnow]
  unfold SliceId.Apart
  decide +kernel

/-- **With a second store the cache confuses two slices**: it gives the slice of `c` in `a/b` for that
of `b/c` in `a`, so that the line of `c` is counted twice and that of `b/c` not at all. -/
theorem execute_ne_with_shared_text :
    (RollupEngine.execute nested (afterLonger ["c", "b/c"]).site.rollups
      (afterLonger ["c", "b/c"]).cache (perStore "a") false).1.toOption.map (·.rows) =
        some [{ key := ["c"], values := .ofList [("lines", .count 2)] }] ∧
    (RollupEngine.executeDirectly nested (afterLonger ["c", "b/c"]).site.rollups (perStore "a")
      false).toOption.map (·.rows) =
        some [{ key := ["b/c"], values := .ofList [("lines", .count 1)] },
          { key := ["c"], values := .ofList [("lines", .count 1)] }] := by
  constructor <;> decide +kernel

/-- **For unambiguous names** the cache never changes an answer, whatever the stores are called. -/
theorem execute_eq_of_unambiguous {plans : PlanTable}
    (h : SliceId.Unambiguous (plans.values.map (·.name))) (config : CacheConfig)
    (ops : List CachedOp) (r : MetricRequest) (cancelled : Bool) :
    (RollupEngine.execute plans (run plans config ops).site.rollups (run plans config ops).cache r
      cancelled).1 =
      RollupEngine.executeDirectly plans (run plans config ops).site.rollups r cancelled := by
  have hA := SliceId.apart_iff.2 h
  exact (RollupEngine.execute_eq hA (shows_run hA fun _ => name_of_mem_asked)
    (fun _ => RollupEngine.name_of_mem_asked) cancelled).1

end CachedSite

end RetailReport
