import RetailReport.Proofs.Fact.Consistency
import RetailReport.Proofs.Sync.Alone
import RetailReport.Sync.Workers

/-!
# No rebuild is lost

Changes, jobs, retries and synchronisations follow one another in any order.  A store whose slices
are not right has a job or a retry before it, or somebody was told: its notification was refused, or
its retries are used up.  Stores are folded into queued jobs by the set of those that are pending;
all of them are in the queue, also after a retry has taken some of them off that set.

## Main definitions

* `PoolWorld`, `PoolWorld.Step`, `PoolWorld.Reachable`: the states that the workers can come to.
* `PoolWorld.Queued`, `PoolWorld.Waiting`, `PoolWorld.Forsaken`: what is known of a store.
* `PoolWorld.Sound`: the invariant.

## Main results

* `PoolWorld.Sound.step`: every step keeps the invariant.
* `PoolWorld.expected_or_right`: **a store without a rebuild before it has right slices.**
-/

namespace RetailReport

/-! ### What workers and callers do -/

namespace WorkSite

variable {w : WorkSite} {keys : KeySet String}

theorem notify_alike (w : WorkSite) (keys : KeySet String) :
    w.site.Alike (w.notify keys).2.site := by
  unfold notify
  dsimp only
  split
  · exact ⟨rfl, rfl, rfl, rfl⟩
  · split
    · exact ⟨rfl, rfl, rfl, rfl⟩
    · split <;> exact ⟨rfl, rfl, rfl, rfl⟩

/-- What a notification does to the queue: nothing if it is refused, or if its stores are pending; a
job for the stores that are not, otherwise. -/
theorem notify_cases (w : WorkSite) (keys : KeySet String) :
    (∃ e, (w.notify keys).1 = .error e ∧ (w.notify keys).2.pool = w.pool) ∨
    ((w.notify keys).1 = .ok () ∧ (w.notify keys).2.pool = w.pool ∧
      ∀ key ∈ keys.members, key ∈ w.pool.pending.members) ∨
    ((w.notify keys).1 = .ok () ∧ (w.notify keys).2.pool =
      { w.pool.addPending (w.pool.fresh keys) with
        queue := w.pool.queue ++ [⟨w.pool.fresh keys, 0⟩] }) := by
  unfold notify
  dsimp only
  split
  · exact .inl ⟨_, rfl, rfl⟩
  · split
    · next h =>
      refine .inr (.inl ⟨rfl, rfl, fun key hkey => ?_⟩)
      -- A key that is not pending yet would be a new one.
      by_contra hn
      refine KeySet.isEmpty_iff.1 h key ?_
      rw [WorkerPool.fresh, KeySet.mem_filter]
      refine ⟨hkey, ?_⟩
      rw [Bool.not_eq_true', Bool.eq_false_iff]
      exact fun hc => hn (KeySet.contains_iff.1 hc)
    · split
      · next pool h =>
        unfold WorkerPool.enqueue? at h
        split at h
        · cases h
          exact .inr (.inr ⟨rfl, rfl⟩)
        · cases h
      · exact .inl ⟨_, rfl, rfl⟩

/-- Retries are planned for all stores of a job that have failed, or for none of them. -/
theorem foldl_plan (attempt : Nat) (failures : List SyncFailure) (p : WorkerPool)
    (stats : SyncStats) :
    (failures.foldl (WorkerPool.plan attempt) (p, stats)).1 =
      if p.config.maxRetries < attempt then p
      else { p with retries := p.retries ++
        failures.map fun f => ⟨f.key, attempt, p.now + p.config.backoffMs attempt⟩ } := by
  induction failures generalizing p stats with
  | nil => simp
  | cons f failures ih =>
    rw [List.foldl_cons]
    by_cases h : p.config.maxRetries < attempt
    · obtain ⟨stats', e⟩ : ∃ stats', WorkerPool.plan attempt (p, stats) f = (p, stats') :=
        ⟨_, if_pos h⟩
      rw [e, ih, if_pos h, if_pos h]
    · obtain ⟨stats', e⟩ : ∃ stats', WorkerPool.plan attempt (p, stats) f = ({ p with retries :=
          p.retries ++ [⟨f.key, attempt, p.now + p.config.backoffMs attempt⟩] }, stats') :=
        ⟨_, if_neg h⟩
      rw [e, ih, if_neg h, if_neg h, List.append_assoc]
      rfl

theorem runJob_alike (w : WorkSite) (job : SyncJob) :
    (w.site.sync job.keys).2.2.Alike (w.runJob job).2.site := ⟨rfl, rfl, rfl, rfl⟩

theorem pool_runJob (w : WorkSite) (job : SyncJob) :
    (w.runJob job).2.pool =
      if w.pool.config.maxRetries < job.attempt + 1 then w.pool.removePending job.keys
      else { w.pool.removePending job.keys with
        retries := w.pool.retries ++ (w.site.sync job.keys).1.failures.map (fun f =>
          ⟨f.key, job.attempt + 1,
            w.pool.now + w.pool.config.backoffMs (job.attempt + 1)⟩) } :=
  foldl_plan _ _ _ _

theorem mem_removePending {p : WorkerPool} {key : String} :
    key ∈ (p.removePending keys).pending.members ↔
      key ∈ p.pending.members ∧ key ∉ keys.members := by
  rw [WorkerPool.removePending, KeySet.mem_filter, Bool.not_eq_true', Bool.eq_false_iff, Ne,
    KeySet.contains_iff]

end WorkSite

/-! ### The world of the workers -/

/-- What somebody was told. -/
inductive PoolEvent where
  /-- A notification of some stores was refused. -/
  | refused (keys : KeySet String)
  /-- The retries of a store are used up. -/
  | exhausted (key : String)
  /-- A store was rebuilt. -/
  | rebuilt (key : String)
deriving DecidableEq

/-- The workers, what they work on, and what somebody was told so far. -/
structure PoolWorld where
  /-- The workers and what they work on. -/
  work : WorkSite
  /-- What somebody was told, in order. -/
  journal : List PoolEvent := []

namespace PoolWorld

/-- The world before anything happens. -/
def start (plans : List RebuildPlan) (config : WorkerConfig) : PoolWorld where
  work := { site := { facts := {}, rollups := {}, synchronizer := { plans } }, pool := { config } }

/-- Changes the lines of some stores and notifies the workers of these stores. -/
def change (w : PoolWorld) (facts : FactStore) (keys : KeySet String) : PoolWorld :=
  let answer := { w.work with site := { w.work.site with facts } }.notify keys
  { work := answer.2
    journal := match answer.1 with
      | .ok () => w.journal
      | .error _ => w.journal ++ [.refused keys] }

/-- What is told of a job: which stores it has rebuilt, and for which no retry is left. -/
def jobEvents (w : WorkSite) (job : SyncJob) : List PoolEvent :=
  let report := (w.site.sync job.keys).1
  report.rebuilt.map .rebuilt ++
    if w.pool.config.maxRetries < job.attempt + 1 then report.failedKeys.map .exhausted else []

/-- A worker runs a job that it has taken from the pool. -/
def run (w : PoolWorld) (pool : WorkerPool) (job : SyncJob) : PoolWorld :=
  let work := { w.work with pool }
  { work := (work.runJob job).2, journal := w.journal ++ jobEvents work job }

/-- Somebody synchronises some stores without the workers. -/
def sync (w : PoolWorld) (keys : KeySet String) : PoolWorld :=
  let (report, _, site) := w.work.site.sync keys
  { work := { w.work with site }, journal := w.journal ++ report.rebuilt.map .rebuilt }

/-- **One step of the world.** -/
inductive Step (w : PoolWorld) : PoolWorld → Prop
  /-- Lines of some stores change, and the workers are notified of these stores. -/
  | change {facts : FactStore} {keys : KeySet String} :
      w.work.site.facts.Change keys facts → Step w (w.change facts keys)
  /-- A worker takes the next job and runs it. -/
  | job {job : SyncJob} {pool : WorkerPool} :
      w.work.pool.takeJob? = some (job, pool) → Step w (w.run pool job)
  /-- A worker takes a retry that is due and runs it. -/
  | retry {r : RetryEntry} {early late : List RetryEntry} :
      w.work.pool.retries = early ++ r :: late → r.due ≤ w.work.pool.now →
      Step w (w.run { w.work.pool with retries := early ++ late } (WorkerPool.RetryEntry.job r))
  /-- Somebody synchronises some stores. -/
  | sync (keys : KeySet String) : Step w (w.sync keys)
  /-- The fact store becomes available or unavailable. -/
  | setAvailable (available : Bool) : Step w { w with work.site.facts.available := available }
  /-- Time passes. -/
  | elapse (ms : Nat) : Step w { w with work.pool.now := w.work.pool.now + ms }
  /-- The workers are stopped. -/
  | stop : Step w { w with work.pool.stopped := true }

/-- The states that the world can come to. -/
inductive Reachable (plans : List RebuildPlan) (config : WorkerConfig) : PoolWorld → Prop
  | start : Reachable plans config (start plans config)
  | step {w w' : PoolWorld} : Reachable plans config w → Step w w' → Reachable plans config w'

/-! ### What is known of a store -/

/-- A queued job is for the store. -/
def Queued (w : PoolWorld) (key : String) : Prop :=
  ∃ job ∈ w.work.pool.queue, key ∈ job.keys.members

/-- A retry of the store waits. -/
def Waiting (w : PoolWorld) (key : String) : Prop := ∃ r ∈ w.work.pool.retries, r.key = key

/-- What is told of a store that nobody is going to rebuild. -/
def PoolEvent.Forsakes (key : String) : PoolEvent → Prop
  | .refused keys => key ∈ keys.members
  | .exhausted key' => key' = key
  | .rebuilt _ => False

/-- Since the store was rebuilt, a notification of it was refused, or its retries were used up. -/
def Forsaken (w : PoolWorld) (key : String) : Prop :=
  ∃ before e later, w.journal = before ++ e :: later ∧ PoolEvent.Forsakes key e ∧
    .rebuilt key ∉ later

/-- A rebuild of the store is to come, or nobody is to expect one. -/
def Expected (w : PoolWorld) (key : String) : Prop :=
  w.Queued key ∨ w.Waiting key ∨ w.Forsaken key

/-- The store has right slices. -/
def StoreRight (w : PoolWorld) (key : String) : Prop :=
  ∀ p ∈ Rebuild.storePlans w.work.site.synchronizer.plans,
    w.work.site.rollups.Holds p key (w.work.site.facts.linesOf key)

/-- The slices that are computed from all lines are right. -/
def AllRight (w : PoolWorld) : Prop :=
  ∀ p ∈ Rebuild.globalPlans w.work.site.synchronizer.plans,
    w.work.site.rollups.Holds p globalScope w.work.site.facts.lines

/-- **What every step keeps.** -/
structure Sound (plans : List RebuildPlan) (w : PoolWorld) : Prop where
  /-- The rollups are those of the start. -/
  plans_eq : w.work.site.synchronizer.plans = plans
  /-- The stores that notifications are folded into are in the queue. -/
  pending : ∀ key ∈ w.work.pool.pending.members, w.Queued key
  /-- No slices from lines later than the present ones are there. -/
  version_le : ∀ v ∈ w.work.site.synchronizer.globalVersion, v ≤ w.work.site.facts.version
  /-- Each store has right slices, unless a rebuild of it is expected. -/
  stores : ∀ key, w.Expected key ∨ w.StoreRight key
  /-- The slices from all lines are right, unless a rebuild of some store is expected. -/
  all : (∃ key, w.Expected key) ∨ w.AllRight

theorem sound_start (plans : List RebuildPlan) (config : WorkerConfig) :
    (start plans config).Sound plans where
  plans_eq := rfl
  pending := fun key h => by cases h
  version_le := fun v h => by cases h
  stores := fun key => .inr fun p _ => RollupStore.holds_empty p key
  all := .inr fun p _ => RollupStore.holds_empty p globalScope

/-- What was told before stays told, unless the store is rebuilt. -/
theorem Forsaken.append {w w' : PoolWorld} {key : String} (h : w.Forsaken key)
    (events : List PoolEvent) (e : w'.journal = w.journal ++ events) (hn : .rebuilt key ∉ events) :
    w'.Forsaken key := by
  obtain ⟨before, event, later, hj, hf, hlater⟩ := h
  refine ⟨before, event, later ++ events, ?_, hf, ?_⟩
  · rw [e, hj, List.append_assoc, List.cons_append]
  · rw [List.mem_append]
    exact fun hmem => hmem.elim hlater hn

/-! ### What a job leaves in the pool -/

section Run

variable {w : PoolWorld} {pool : WorkerPool} {job : SyncJob} {key : String}

theorem queue_run (w : PoolWorld) (pool : WorkerPool) (job : SyncJob) :
    (w.run pool job).work.pool.queue = pool.queue := by
  rw [run, WorkSite.pool_runJob]
  split <;> rfl

theorem mem_retries_run {r : RetryEntry} (hr : r ∈ pool.retries) :
    r ∈ (w.run pool job).work.pool.retries := by
  rw [run, WorkSite.pool_runJob]
  split
  · exact hr
  · exact List.mem_append_left _ hr

theorem mem_pending_run : key ∈ (w.run pool job).work.pool.pending.members ↔
    key ∈ pool.pending.members ∧ key ∉ job.keys.members := by
  rw [run, WorkSite.pool_runJob]
  split <;> exact WorkSite.mem_removePending

/-- A store that fails has a retry before it, or none is left. -/
theorem expected_of_failed (w : PoolWorld) (pool : WorkerPool)
    (hk : key ∈ (w.work.site.sync job.keys).1.failedKeys) : (w.run pool job).Expected key := by
  by_cases hmax : pool.config.maxRetries < job.attempt + 1
  · obtain ⟨before, later, e⟩ := List.append_of_mem hk
    refine .inr (.inr ⟨w.journal ++ ((w.work.site.sync job.keys).1.rebuilt.map .rebuilt ++
      before.map .exhausted), .exhausted key, later.map .exhausted, ?_, rfl, by simp⟩)
    change w.journal ++ (_ ++ if pool.config.maxRetries < job.attempt + 1 then _ else _) = _
    rw [if_pos hmax, e]
    simp only [List.map_append, List.map_cons, List.append_assoc]
  · obtain ⟨f, hf, rfl⟩ := List.mem_map.1 hk
    have hr : (⟨f.key, job.attempt + 1, pool.now + pool.config.backoffMs (job.attempt + 1)⟩ :
        RetryEntry) ∈ (w.run pool job).work.pool.retries := by
      rw [run, WorkSite.pool_runJob, if_neg hmax]
      exact List.mem_append_right _ (List.mem_map_of_mem hf)
    exact .inr (.inl ⟨_, hr, rfl⟩)

/-- Of the stores that a job is told to have rebuilt each is in its report. -/
theorem mem_rebuilt_of_jobEvents {work : WorkSite} (h : .rebuilt key ∈ jobEvents work job) :
    key ∈ (work.site.sync job.keys).1.rebuilt := by
  rcases List.mem_append.1 h with hmem | hmem
  · obtain ⟨k, hk, e⟩ := List.mem_map.1 hmem
    cases e
    exact hk
  · split at hmem
    · obtain ⟨k, -, e⟩ := List.mem_map.1 hmem
      cases e
    · cases hmem

end Run

/-! ### The steps -/

namespace Sound

variable {plans : List RebuildPlan} {w : PoolWorld}

/-- A notification of changed stores leaves a rebuild of each of them to come, or is refused; and it
takes nothing off what is to come. -/
theorem expected_change (h : w.Sound plans) (facts : FactStore) (keys : KeySet String) :
    (∀ key, w.Expected key → (w.change facts keys).Expected key) ∧
      (∀ key ∈ keys.members, (w.change facts keys).Expected key) ∧
      ∀ key ∈ (w.change facts keys).work.pool.pending.members,
        (w.change facts keys).Queued key := by
  have hcases := WorkSite.notify_cases { w.work with site := { w.work.site with facts } } keys
  unfold PoolWorld.change Expected Queued Waiting
  dsimp only
  rcases hcases with ⟨e, hans, hpool⟩ | ⟨hans, hpool, hall⟩ | ⟨hans, hpool⟩
  · -- refused
    rw [hpool]
    refine ⟨fun key hk => hk.imp_right (.imp_right fun hf => ?_), fun key hk => ?_, h.pending⟩
    · exact hf.append [.refused keys] (by simp only [hans]) (by simp)
    · exact .inr (.inr ⟨w.journal, .refused keys, [], by simp only [hans], hk, by simp⟩)
  · -- folded into the queued jobs
    rw [hpool]
    refine ⟨fun key hk => hk.imp_right (.imp_right fun hf => ?_), fun key hk => ?_, h.pending⟩
    · exact hf.append [] (by simp only [hans, List.append_nil]) (by simp)
    · exact .inl (h.pending key (hall key hk))
  · -- queued
    rw [hpool]
    have hold {key : String} (hq : w.Queued key) : ∃ job ∈ w.work.pool.queue ++
        [⟨w.work.pool.fresh keys, 0⟩], key ∈ job.keys.members := by
      obtain ⟨job, hj, hk⟩ := hq
      exact ⟨job, List.mem_append_left _ hj, hk⟩
    have hnew {key : String} (hk : key ∈ (w.work.pool.fresh keys).members) :
        ∃ job ∈ w.work.pool.queue ++ [⟨w.work.pool.fresh keys, 0⟩], key ∈ job.keys.members :=
      ⟨_, List.mem_append_right _ (List.mem_singleton_self _), hk⟩
    refine ⟨fun key hk => hk.imp hold (.imp_right fun hf => ?_), fun key hk => .inl ?_,
      fun key hk => ?_⟩
    · exact hf.append [] (by simp only [hans, List.append_nil]) (by simp)
    · by_cases hp : key ∈ w.work.pool.pending.members
      · exact hold (h.pending key hp)
      · refine hnew (KeySet.mem_filter.2 ⟨hk, ?_⟩)
        rw [Bool.not_eq_true', Bool.eq_false_iff]
        exact fun hc => hp (KeySet.contains_iff.1 hc)
    · rcases KeySet.mem_union.1 hk with hp | hf
      · exact hold (h.pending key hp)
      · exact hnew hf

/-- A change of some stores, with the notification of it. -/
theorem change (h : w.Sound plans) {facts : FactStore} {keys : KeySet String}
    (hc : w.work.site.facts.Change keys facts) : (w.change facts keys).Sound plans := by
  have halike := WorkSite.notify_alike { w.work with site := { w.work.site with facts } } keys
  have hrollups : (w.change facts keys).work.site.rollups = w.work.site.rollups := halike.rollups
  obtain ⟨hexp, hkeys, hpend⟩ := h.expected_change facts keys
  refine ⟨halike.plans.trans h.plans_eq, hpend, fun v hv => ?_, fun key => ?_, ?_⟩
  · have hv' : v ∈ w.work.site.synchronizer.globalVersion := halike.globalVersion ▸ hv
    have hfacts : (w.change facts keys).work.site.facts = facts := halike.facts
    rw [hfacts]
    exact Nat.le_trans (h.version_le v hv') hc.version_le
  · by_cases hk : key ∈ keys.members
    · exact .inl (hkeys key hk)
    · refine (h.stores key).imp (hexp key) fun hr p hp => ?_
      have hlines : (w.change facts keys).work.site.facts.linesOf key =
          w.work.site.facts.linesOf key :=
        (congrArg (·.linesOf key) halike.facts).trans (hc.linesOf_eq hk)
      rw [hlines]
      exact (hr p (halike.plans ▸ hp)).congr (by rw [hrollups])
  · by_cases hk : ∃ key, key ∈ keys.members
    · exact .inl (hk.imp hkeys)
    · refine h.all.imp (fun ⟨key, he⟩ => ⟨key, hexp key he⟩) fun hr p hp => ?_
      have hlines : (w.change facts keys).work.site.facts.lines = w.work.site.facts.lines :=
        (congrArg (·.lines) halike.facts).trans (hc.lines_eq (not_exists.1 hk))
      rw [hlines]
      exact (hr p (halike.plans ▸ hp)).congr (by rw [hrollups])

/-- A synchronisation brings right what it rebuilds and leaves the rest as it is; so the invariant
is kept if a rebuild is still expected of every store that it has not rebuilt. -/
theorem synced (h : w.Sound plans) {w' : PoolWorld} {keys : List String} {p : SyncSite.Progress}
    (hs : w.work.site.Synced keys w'.work.site p)
    (hpend : ∀ key ∈ w'.work.pool.pending.members, w'.Queued key)
    (hexp : ∀ key ∉ p.report.rebuilt, w.Expected key → w'.Expected key) : w'.Sound plans := by
  refine ⟨hs.plans.trans h.plans_eq, hpend, ?_, fun key => ?_, ?_⟩
  · rw [hs.facts]
    exact hs.version_le
  · unfold StoreRight
    rw [hs.facts, hs.plans]
    by_cases hk : key ∈ p.report.rebuilt
    · exact .inr (hs.stores key hk)
    · exact (h.stores key).imp (hexp key hk) fun hr q hq =>
        (hr q hq).congr (hs.others key hk q hq)
  · unfold AllRight
    rw [hs.facts, hs.plans]
    by_cases hr : p.report.rebuilt = []
    · have hnone (key : String) : key ∉ p.report.rebuilt := by simp [hr]
      exact h.all.imp (fun ⟨key, he⟩ => ⟨key, hexp key (hnone key) he⟩) fun hall q hq =>
        (hall q hq).congr (hs.globals_eq hr q hq)
    · exact .inr (hs.globals hr)

/-- A job brings its stores right, or leaves a retry for each store that fails, as long as there is
one left. -/
theorem run (hn : DistinctNames plans) (h : w.Sound plans) {pool : WorkerPool} {job : SyncJob}
    (hpend : pool.pending = w.work.pool.pending)
    (hqueue : ∀ key, w.Queued key →
      key ∈ job.keys.members ∨ ∃ job' ∈ pool.queue, key ∈ job'.keys.members)
    (hretries : ∀ key, w.Waiting key →
      key ∈ job.keys.members ∨ ∃ r ∈ pool.retries, r.key = key) :
    (w.run pool job).Sound plans := by
  obtain ⟨p, hs, hreport⟩ := SyncSite.synced_sync (h.plans_eq ▸ hn) h.version_le job.keys
  refine h.synced (hs.congr (WorkSite.runJob_alike { w.work with pool } job)) (fun key hk => ?_)
    fun key hk he => ?_
  · rw [mem_pending_run, hpend] at hk
    obtain ⟨job', hj, hkey⟩ := (hqueue key (h.pending key hk.1)).resolve_left hk.2
    exact ⟨job', (queue_run w pool job).symm ▸ hj, hkey⟩
  · by_cases hf : key ∈ p.report.failedKeys
    · exact expected_of_failed w pool (hreport ▸ hf)
    · -- the job is not for this store
      have hnot : key ∉ job.keys.members := by
        rw [hs.reported, not_or]
        exact ⟨hk, hf⟩
      rcases he with hq | hr | hforsaken
      · obtain ⟨job', hj, hkey⟩ := (hqueue key hq).resolve_left hnot
        exact .inl ⟨job', (queue_run w pool job).symm ▸ hj, hkey⟩
      · obtain ⟨r, hr, hkey⟩ := (hretries key hr).resolve_left hnot
        exact .inr (.inl ⟨r, mem_retries_run hr, hkey⟩)
      · refine .inr (.inr (hforsaken.append _ rfl fun hmem => hk ?_))
        have hrebuilt := mem_rebuilt_of_jobEvents hmem
        change key ∈ (w.work.site.sync job.keys).1.rebuilt at hrebuilt
        rwa [hreport] at hrebuilt

/-- A synchronisation without the workers takes nothing off what they are to do. -/
theorem sync (hn : DistinctNames plans) (h : w.Sound plans) (keys : KeySet String) :
    (w.sync keys).Sound plans := by
  obtain ⟨p, hs, hreport⟩ := SyncSite.synced_sync (h.plans_eq ▸ hn) h.version_le keys
  have hs' : w.work.site.Synced keys.members (w.sync keys).work.site p := hs
  refine h.synced hs' h.pending fun key hk he => ?_
  refine he.imp_right (.imp_right fun hf => hf.append _ rfl fun hmem => ?_)
  obtain ⟨k, hk', e⟩ := List.mem_map.1 hmem
  cases e
  rw [← hreport] at hk
  exact hk hk'

/-- **Every step keeps the invariant.** -/
theorem step (hn : DistinctNames plans) {w' : PoolWorld} (h : w.Sound plans) (hstep : Step w w') :
    w'.Sound plans := by
  cases hstep with
  | change hc => exact h.change hc
  | @job job pool ht =>
    unfold WorkerPool.takeJob? at ht
    split at ht
    · cases ht
    · next hq =>
      cases ht
      -- The keys of the job are the ones that go from the queue.
      refine h.run hn rfl (fun key hk => ?_) fun key hk => .inr hk
      obtain ⟨job', hj, hkey⟩ := hk
      rw [hq] at hj
      rcases List.mem_cons.1 hj with rfl | hj
      · exact .inl hkey
      · exact .inr ⟨job', hj, hkey⟩
  | @retry r early late hr hdue =>
    refine h.run hn rfl (fun key hk => .inr hk) fun key hk => ?_
    obtain ⟨r', hr', rfl⟩ := hk
    rw [hr, List.mem_append, List.mem_cons] at hr'
    rcases hr' with hr' | rfl | hr'
    · exact .inr ⟨r', List.mem_append_left _ hr', rfl⟩
    · exact .inl (KeySet.mem_ofList.2 (List.mem_singleton_self _))
    · exact .inr ⟨r', List.mem_append_right _ hr', rfl⟩
  | sync keys => exact h.sync hn keys
  | setAvailable available => exact ⟨h.1, h.2, h.3, h.4, h.5⟩
  | elapse ms => exact ⟨h.1, h.2, h.3, h.4, h.5⟩
  | stop => exact ⟨h.1, h.2, h.3, h.4, h.5⟩

end Sound

theorem Reachable.sound {plans : List RebuildPlan} {config : WorkerConfig} {w : PoolWorld}
    (hn : DistinctNames plans) (h : Reachable plans config w) : w.Sound plans := by
  induction h with
  | start => exact sound_start plans config
  | step _ hstep ih => exact ih.step hn hstep

/-- **A store without a rebuild before it has right slices**: each store is in a queued job, or a
retry of it waits, or somebody was told that it is given up, or its slices are what the rollups make
of its lines.  If all stores are of the last kind, the slices from all lines are right, too. -/
theorem expected_or_right {plans : List RebuildPlan} {config : WorkerConfig} {w : PoolWorld}
    (hn : DistinctNames plans) (h : Reachable plans config w) :
    (∀ key, w.Queued key ∨ w.Waiting key ∨ w.Forsaken key ∨
      ∀ p ∈ plans, p.isStoreScoped = true →
        w.work.site.rollups.Holds p key (w.work.site.facts.linesOf key)) ∧
    ((∀ key, ¬w.Queued key ∧ ¬w.Waiting key ∧ ¬w.Forsaken key) →
      ∀ p ∈ plans, p.isStoreScoped = false →
        w.work.site.rollups.Holds p globalScope w.work.site.facts.lines) := by
  have hs := h.sound hn
  constructor
  · intro key
    rcases hs.stores key with (hq | hw | hf) | hr
    · exact .inl hq
    · exact .inr (.inl hw)
    · exact .inr (.inr (.inl hf))
    · refine .inr (.inr (.inr fun p hp hscope => hr p ?_))
      rw [hs.plans_eq]
      exact Rebuild.mem_storePlans.2 ⟨hp, hscope⟩
  · -- The slices from all lines are right unless something is still expected of some key.
    intro hnone p hp hscope
    have hall : w.AllRight := hs.all.resolve_left fun ⟨key, he⟩ =>
      he.elim (hnone key).1 fun he => he.elim (hnone key).2.1 (hnone key).2.2
    refine hall p ?_
    rw [hs.plans_eq]
    exact Rebuild.mem_globalPlans.2 ⟨hp, hscope⟩

/-- Two notifications of a store are folded into one job; after the job its slices are right. -/
theorem right_after_folded_notification :
    DistinctNames [lineCount "daily" [.storeId, .date], lineCount "by_channel" [.channel]] ∧
    ∃ w, Reachable [lineCount "daily" [.storeId, .date], lineCount "by_channel" [.channel]] {} w ∧
      w.work.site.facts.lines.length = 2 ∧
      w.work.site.rollups.Holds (lineCount "daily" [.storeId, .date]) "S1"
        (w.work.site.facts.linesOf "S1") ∧
      w.work.site.rollups.Holds (lineCount "by_channel" [.channel]) globalScope
        w.work.site.facts.lines := by
  have hn : DistinctNames [lineCount "daily" [.storeId, .date],
      lineCount "by_channel" [.channel]] := by decide
  have appended {s s' : FactStore} {stores : KeySet String} (facts : List FactRecord)
      (h : s.append facts = .ok (s', stores)) : s.Change stores s' := .append h
  obtain ⟨w, hr, hqueue, hretries, hjournal, hlines⟩ : ∃ w : PoolWorld,
      Reachable [lineCount "daily" [.storeId, .date], lineCount "by_channel" [.channel]] {} w ∧
      w.work.pool.queue = [] ∧ w.work.pool.retries = [] ∧ w.journal = [.rebuilt "S1"] ∧
      w.work.site.facts.lines.length = 2 :=
    ⟨_, .step (.step (.step .start (.change (appended [sampleLine "S1" "r1"] rfl)))
      (.change (appended [sampleLine "S1" "r2"] rfl))) (.job rfl), by decide +kernel⟩
  obtain ⟨hstores, hall⟩ := expected_or_right hn hr
  have hnone (key : String) : ¬w.Queued key ∧ ¬w.Waiting key ∧ ¬w.Forsaken key := by
    refine ⟨?_, ?_, ?_⟩
    · rintro ⟨job, hjob, -⟩
      rw [hqueue] at hjob
      cases hjob
    · rintro ⟨r, hr, -⟩
      rw [hretries] at hr
      cases hr
    · rintro ⟨before, e, later, he, hf, -⟩
      have hmem : e ∈ w.journal := he ▸ List.mem_append_right _ List.mem_cons_self
      rw [hjournal, List.mem_singleton] at hmem
      rw [hmem] at hf
      exact hf
  obtain ⟨hq, hw, hf⟩ := hnone "S1"
  have hstore := (((hstores "S1").resolve_left hq).resolve_left hw).resolve_left hf
  exact ⟨hn, w, hr, hlines, hstore _ List.mem_cons_self rfl,
    hall hnone _ (List.mem_cons_of_mem _ List.mem_cons_self) rfl⟩

end PoolWorld

end RetailReport
