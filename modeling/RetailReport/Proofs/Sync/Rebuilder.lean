import RetailReport.Proofs.Sync.Notices

/-!
# Workers whose rebuilds may fail

A worker leaves it to the synchronizer to rebuild the stores of a job, and is told which of them have
failed.  Here somebody else may rebuild them: a `Rebuilder` does what it likes, as long as it says of
each store at most once that it has failed, and does not count retries.

Retries are numbered.  A job from the queue has number 0, a retry one more than the job that it comes
from, and none is planned beyond the last one.

## Main definitions

* `Rebuilder`, `Rebuilder.own`: whoever rebuilds stores, and the synchronizer itself.
* `SyncFloor.actWith`: what can happen while somebody rebuilds stores.
* `SyncFloor.Bounded`: the numbers of the jobs and retries are right.

## Main results

* `SyncFloor.actWith_own`: with the synchronizer itself nothing is different.
* `SyncFloor.Bounded.actWith`: whatever happens, the numbers stay right.
-/

namespace RetailReport

/-- **Whoever rebuilds stores**, and tells which have failed. -/
structure Rebuilder where
  /-- Rebuilds some stores. -/
  run : SyncSite → KeySet String → List SyncFailure × SyncSite
  /-- A store is told at most once. -/
  nodup : ∀ w keys, ((run w keys).1.map (·.key)).Nodup
  /-- No other stores are told. -/
  subset : ∀ w keys, ∀ f ∈ (run w keys).1, f.key ∈ keys.members
  retries : ∀ w keys, (run w keys).2.synchronizer.stats.retries = w.synchronizer.stats.retries
  exhausted : ∀ w keys, (run w keys).2.synchronizer.stats.exhausted = w.synchronizer.stats.exhausted

/-! ### The synchronizer -/

namespace SyncSite

theorem stats_rebuild (w : SyncSite) (key : String) (known : Option GlobalOutcome) :
    (w.rebuild key known).2.2.2.synchronizer.stats = w.synchronizer.stats := by
  have hcommit (batch : RollupBatch) (globals : Option GlobalSlices) :
      (w.commit key batch globals).2.2.synchronizer.stats = w.synchronizer.stats := by
    rw [w.synchronizer_commit key batch globals]
  unfold rebuild
  dsimp only
  split
  · rfl
  · next batch _ =>
    split
    · exact (hcommit batch none :)
    · rfl
    · next g _ => exact (hcommit batch (some g) :)

theorem key_of_rebuild_eq_error {w : SyncSite} {key : String} {known : Option GlobalOutcome}
    {f : SyncFailure} (h : (w.rebuild key known).1 = .error f) : f.key = key := by
  unfold rebuild at h
  dsimp only at h
  split at h
  · next hscan =>
    cases h
    exact Rebuild.key_of_ofKeyScan_eq_error hscan
  · split at h <;> cases h
    rfl

/-- The stores that fail come in the order in which they are rebuilt, and only rebuilds are counted. -/
theorem foldl_syncKey (keys : List String) (step : SyncSite × Progress) :
    ∃ failed, failed.Sublist keys ∧
      (keys.foldl syncKey step).2.report.failedKeys = step.2.report.failedKeys ++ failed ∧
      (keys.foldl syncKey step).1.synchronizer.stats.retries = step.1.synchronizer.stats.retries ∧
      (keys.foldl syncKey step).1.synchronizer.stats.exhausted =
        step.1.synchronizer.stats.exhausted := by
  induction keys generalizing step with
  | nil => exact ⟨[], List.Sublist.refl _, (List.append_nil _).symm, rfl, rfl⟩
  | cons key keys ih =>
    obtain ⟨failed, hsublist, hfailed, hretries, hexhausted⟩ := ih (syncKey step key)
    rw [List.foldl_cons, hfailed, hretries, hexhausted]
    obtain ⟨w, p⟩ := step
    let w₁ : SyncSite := { w with synchronizer := (w.synchronizer.openFlight key).2 }
    have hstats : (syncKey (w, p) key).1.synchronizer.stats =
        Synchronizer.count w.synchronizer.stats (w₁.rebuild key p.globals).1 :=
      congrArg (Synchronizer.count · (w₁.rebuild key p.globals).1) (w₁.stats_rebuild key p.globals)
    have hreport : (syncKey (w, p) key).2.report =
        p.report.add key (w₁.rebuild key p.globals).1 false := rfl
    rw [hstats, hreport]
    cases houtcome : (w₁.rebuild key p.globals).1 with
    | ok version => exact ⟨failed, hsublist.cons key, rfl, rfl, rfl⟩
    | error f =>
      have hkey : f.key = key := key_of_rebuild_eq_error houtcome
      refine ⟨key :: failed, hsublist.cons_cons key, ?_, rfl, rfl⟩
      simp [SyncReport.add, SyncReport.failedKeys, hkey]

end SyncSite

/-- **The synchronizer itself.** -/
def Rebuilder.own : Rebuilder where
  run w keys := ((w.sync keys).1.failures, (w.sync keys).2.2)
  nodup w keys := by
    obtain ⟨failed, hsublist, hfailed, -⟩ :=
      SyncSite.foldl_syncKey keys.members ({ w with synchronizer := w.synchronizer.begin }, {})
    have heq : (w.sync keys).1.failures.map (·.key) = failed := hfailed
    rw [heq]
    exact hsublist.nodup keys.nodup_members
  subset w keys f hf := by
    obtain ⟨failed, hsublist, hfailed, -⟩ :=
      SyncSite.foldl_syncKey keys.members ({ w with synchronizer := w.synchronizer.begin }, {})
    have heq : (w.sync keys).1.failures.map (·.key) = failed := hfailed
    exact hsublist.subset (heq ▸ List.mem_map_of_mem hf)
  retries w keys := by
    obtain ⟨-, -, -, hretries, -⟩ :=
      SyncSite.foldl_syncKey keys.members ({ w with synchronizer := w.synchronizer.begin }, {})
    exact hretries
  exhausted w keys := by
    obtain ⟨-, -, -, -, hexhausted⟩ :=
      SyncSite.foldl_syncKey keys.members ({ w with synchronizer := w.synchronizer.begin }, {})
    exact hexhausted

/-! ### What can happen -/

/-- The next step of a worker that has somebody rebuild its stores. -/
def WorkerPhase.advanceWith (r : Rebuilder) (w : WorkSite) (active : Nat) :
    WorkerPhase → WorkSite × Nat × WorkerPhase
  | .running queued job .cleared more =>
    let (failures, site) := r.run w.site job.keys
    ({ w with site }, active, .running queued job (.synced failures) more)
  | p => p.advance w active

theorem WorkerPhase.advanceWith_own (w : WorkSite) (active : Nat) (p : WorkerPhase) :
    p.advanceWith .own w active = p.advance w active := by
  cases p with
  | running queued job stage more => cases stage <;> rfl
  | _ => rfl

namespace SyncFloor

/-- After the next step of a worker that has somebody rebuild its stores. -/
def stepWorkerWith (r : Rebuilder) (w : SyncFloor) (place : Nat) (p : WorkerPhase) : SyncFloor :=
  let (work, active, p') := p.advanceWith r w.work w.active
  { work, active, workers := w.workers.set place p',
    calls := w.calls.map (Notice.noteSync p.begins) }

/-- **After something has happened**, while somebody rebuilds the stores. -/
def actWith (r : Rebuilder) (w : SyncFloor) : FloorAct → SyncFloor
  | .work place =>
    match w.workers[place]? with
    | some p => w.stepWorkerWith r place p
    | none => w
  | a => w.act a

/-- **Nothing is different** if the synchronizer rebuilds the stores. -/
theorem actWith_own (w : SyncFloor) (a : FloorAct) : w.actWith .own a = w.act a := by
  cases a with
  | work place =>
    cases hp : w.workers[place]? with
    | some p => simp only [actWith, act, hp, stepWorkerWith, stepWorker, WorkerPhase.advanceWith_own]
    | none => simp only [actWith, act, hp]
  | _ => rfl

end SyncFloor

/-! ### Steps of a caller -/

namespace Notice

/-- The next step of a notification queues its job. -/
def Sends (w : WorkSite) (c : Notice) : Prop :=
  c.phase = .marked ∧ w.pool.queue.length < w.pool.room

instance (w : WorkSite) (c : Notice) : Decidable (c.Sends w) :=
  inferInstanceAs (Decidable (_ ∧ _))

/-- **What a step of a caller does to the queue and the retries.** -/
structure AdvancedPool (w : WorkSite) (c : Notice) (w' : WorkSite) : Prop where
  queue : w'.pool.queue = if c.Sends w then w.pool.queue ++ [⟨c.fresh, 0⟩] else w.pool.queue
  retries : w'.pool.retries = w.pool.retries
  config : w'.pool.config = w.pool.config
  retried : w'.site.synchronizer.stats.retries = w.site.synchronizer.stats.retries
  exhausted : w'.site.synchronizer.stats.exhausted = w.site.synchronizer.stats.exhausted

theorem advancedPool (w : WorkSite) (c : Notice) : AdvancedPool w c (c.advance w).1 := by
  cases hphase : c.phase with
  | marked =>
    by_cases hroom : w.pool.queue.length < w.pool.room
    · have heq : (c.advance w).1 =
          { w with pool := { w.pool with queue := w.pool.queue ++ [⟨c.fresh, 0⟩] } } := by
        simp only [advance, hphase, WorkerPool.enqueue?, if_pos hroom]
      rw [heq]
      exact ⟨(if_pos ⟨hphase, hroom⟩).symm, rfl, rfl, rfl, rfl⟩
    · have heq : (c.advance w).1 = w := by
        simp only [advance, hphase, WorkerPool.enqueue?, if_neg hroom]
      rw [heq]
      exact ⟨(if_neg fun h => hroom h.2).symm, rfl, rfl, rfl, rfl⟩
  | noted | refused | accepted | rejected =>
    have hsends : ¬c.Sends w := fun h => by cases hphase.symm.trans h.1
    simp only [advance, hphase]
    exact ⟨(if_neg hsends).symm, rfl, rfl, rfl, rfl⟩

/-- **A notification with stores of its own is accepted when its job is queued**, and stays so. -/
theorem accepted_advance (w : WorkSite) (c : Notice) (key : String) :
    (c.advance w).2.phase = .accepted ∧ key ∈ (c.advance w).2.fresh.members ↔
      (c.phase = .accepted ∨ c.Sends w) ∧ key ∈ c.fresh.members := by
  cases hphase : c.phase with
  | noted =>
    simp only [advance, hphase, Sends]
    refine iff_of_false ?_ (by simp)
    rintro ⟨h, hkey⟩
    split at h
    · next hempty => exact KeySet.isEmpty_iff.1 hempty key hkey
    · cases h
  | marked =>
    by_cases hroom : w.pool.queue.length < w.pool.room
    · simp [advance, hphase, WorkerPool.enqueue?, hroom, Sends]
    · simp [advance, hphase, WorkerPool.enqueue?, hroom, Sends]
  | refused | accepted | rejected => simp [advance, hphase, Sends]

end Notice

/-! ### The numbers of the retries -/

namespace WorkSite

/-- What has been counted after retries were planned. -/
theorem foldl_plan_stats (attempt : Nat) (failures : List SyncFailure) (p : WorkerPool)
    (stats : SyncStats) :
    (failures.foldl (WorkerPool.plan attempt) (p, stats)).2 =
      if p.config.maxRetries < attempt then
        { stats with exhausted := stats.exhausted + failures.length }
      else { stats with retries := stats.retries + failures.length } := by
  induction failures generalizing p stats with
  | nil => simp
  | cons f failures ih =>
    rw [List.foldl_cons]
    by_cases h : p.config.maxRetries < attempt
    · have hplan : WorkerPool.plan attempt (p, stats) f =
          (p, { stats with exhausted := stats.exhausted + 1 }) := if_pos h
      rw [hplan, ih, if_pos h, if_pos h, List.length_cons, Nat.add_right_comm, Nat.add_assoc]
    · have hplan : WorkerPool.plan attempt (p, stats) f = ({ p with retries :=
          p.retries ++ [⟨f.key, attempt, p.now + p.config.backoffMs attempt⟩] },
          { stats with retries := stats.retries + 1 }) := if_neg h
      rw [hplan, ih, if_neg h, if_neg h, List.length_cons, Nat.add_right_comm, Nat.add_assoc]

end WorkSite

namespace WorkerPool

theorem takeDueRetries_eq (p : WorkerPool) : p.takeDueRetries =
    ((p.retries.filter fun r => r.due ≤ p.now).map RetryEntry.job,
      { p with retries := p.retries.filter fun r => !decide (r.due ≤ p.now) }) := by
  unfold takeDueRetries
  rw [List.partition_eq_filter_filter]
  rfl

end WorkerPool

/-- **The numbers of the jobs and retries of a pool are right.** -/
structure WorkerPool.Bounded (limit : Nat) (p : WorkerPool) : Prop where
  config : p.config.maxRetries = limit
  queue : ∀ job ∈ p.queue, job.attempt = 0
  retries : ∀ r ∈ p.retries, 1 ≤ r.attempt ∧ r.attempt ≤ limit

namespace WorkerPhase

theorem jobs_turn (queued : Bool) (jobs : List SyncJob) : (turn queued jobs).jobs = jobs := by
  cases jobs <;> rfl

variable {limit : Nat} {w : WorkSite}

theorem bounded_planRetries (h : w.pool.Bounded limit) (job : SyncJob) (failures : List SyncFailure) :
    (w.planRetries job failures).pool.Bounded limit := by
  have hpool : (w.planRetries job failures).pool = _ := WorkSite.foldl_plan (job.attempt + 1) failures
    w.pool w.site.synchronizer.stats
  rw [hpool, h.config]
  split
  · exact h
  · next hlimit =>
    refine ⟨h.config, h.queue, fun r hr => ?_⟩
    rcases List.mem_append.1 hr with hr | hr
    · exact h.retries r hr
    · obtain ⟨f, -, rfl⟩ := List.mem_map.1 hr
      exact ⟨Nat.le_add_left 1 job.attempt, Nat.le_of_not_lt hlimit⟩

/-- **A step of a worker keeps the numbers right.** -/
theorem bounded_advanceWith (r : Rebuilder) (active : Nat) {p : WorkerPhase}
    (h : w.pool.Bounded limit) (hjobs : ∀ job ∈ p.jobs, job.attempt ≤ limit) :
    (p.advanceWith r w active).1.pool.Bounded limit ∧
      ∀ job ∈ (p.advanceWith r w active).2.2.jobs, job.attempt ≤ limit := by
  have hnone : ∀ job ∈ ([] : List SyncJob), job.attempt ≤ limit := fun _ hjob =>
    absurd hjob List.not_mem_nil
  cases p with
  | looking =>
    simp only [advanceWith, advance]
    split <;> exact ⟨h, hnone⟩
  | counted =>
    simp only [advanceWith, advance, WorkerPool.takeDueRetries_eq, jobs_turn]
    refine ⟨⟨h.config, h.queue, fun r hr => h.retries r (List.mem_of_mem_filter hr)⟩,
      fun job hjob => ?_⟩
    obtain ⟨r, hr, rfl⟩ := List.mem_map.1 hjob
    exact (h.retries r (List.mem_of_mem_filter hr)).2
  | waiting =>
    simp only [advanceWith, advance, WorkerPool.takeJob?]
    cases hqueue : w.pool.queue with
    | nil => exact ⟨h, hnone⟩
    | cons job queue =>
      -- Jobs in the queue have not been tried yet.
      have hzero : ∀ job' ∈ job :: queue, job'.attempt = 0 := hqueue ▸ h.queue
      refine ⟨⟨h.config, fun job' hjob' => hzero job' (List.mem_cons_of_mem _ hjob'), h.retries⟩,
        fun job' hjob' => ?_⟩
      rw [List.mem_singleton.1 hjob', hzero job List.mem_cons_self]
      exact Nat.zero_le limit
  | holding job => exact ⟨h, hjobs⟩
  | running queued job stage more =>
    cases stage with
    | taken | cleared => exact ⟨⟨h.config, h.queue, h.retries⟩, hjobs⟩
    | synced failures =>
      refine ⟨bounded_planRetries h job failures, fun job' hjob' => hjobs job' ?_⟩
      change job' ∈ (turn queued more).jobs at hjob'
      rw [jobs_turn] at hjob'
      exact List.mem_cons_of_mem _ hjob'
  | spent queued => cases queued <;> exact ⟨h, hnone⟩

end WorkerPhase

namespace SyncFloor

/-- **The numbers of all jobs and retries are right.** -/
structure Bounded (limit : Nat) (w : SyncFloor) : Prop where
  pool : w.work.pool.Bounded limit
  jobs : ∀ p ∈ w.workers, ∀ job ∈ p.jobs, job.attempt ≤ limit

variable {limit : Nat} {w : SyncFloor}

theorem bounded_start (plans : List RebuildPlan) (config : WorkerConfig) (workers : Nat) :
    (start plans config workers).Bounded config.maxRetries where
  pool := ⟨rfl, nofun, nofun⟩
  jobs p hp job hjob := by
    rw [List.eq_of_mem_replicate hp] at hjob
    cases hjob

theorem Bounded.stepWorkerWith (h : w.Bounded limit) (r : Rebuilder) {place : Nat} {p : WorkerPhase}
    (hp : w.workers[place]? = some p) : (w.stepWorkerWith r place p).Bounded limit := by
  obtain ⟨hpool, hjobs⟩ := WorkerPhase.bounded_advanceWith r w.active h.pool
    (h.jobs p (List.mem_of_getElem? hp))
  refine ⟨hpool, fun p' hp' => ?_⟩
  rcases List.mem_or_eq_of_mem_set hp' with hp' | rfl
  · exact h.jobs p' hp'
  · exact hjobs

theorem Bounded.stepCall (h : w.Bounded limit) (place : Nat) (c : Notice) :
    (w.stepCall place c).Bounded limit := by
  have hadvanced := c.advancedPool w.work
  refine ⟨⟨?_, fun job hjob => ?_, fun r hr => h.pool.retries r (hadvanced.retries ▸ hr)⟩, h.jobs⟩
  · exact (congrArg WorkerConfig.maxRetries hadvanced.config).trans h.pool.config
  · change job ∈ (c.advance w.work).1.pool.queue at hjob
    rw [hadvanced.queue] at hjob
    split at hjob
    · rcases List.mem_append.1 hjob with hjob | hjob
      · exact h.pool.queue job hjob
      · rw [List.mem_singleton.1 hjob]
    · exact h.pool.queue job hjob

/-- **Whatever happens, the numbers stay right.** -/
theorem Bounded.actWith (h : w.Bounded limit) (r : Rebuilder) (a : FloorAct) :
    (w.actWith r a).Bounded limit := by
  cases a with
  | change op | elapse ms | stop => exact ⟨⟨h.pool.config, h.pool.queue, h.pool.retries⟩, h.jobs⟩
  | note keys =>
    simp only [SyncFloor.actWith, act]
    split
    · exact h
    · exact ⟨⟨h.pool.config, h.pool.queue, h.pool.retries⟩, h.jobs⟩
  | call place =>
    simp only [SyncFloor.actWith, act]
    split
    · exact h.stepCall place _
    · exact h
  | work place =>
    simp only [SyncFloor.actWith]
    split
    · next hp => exact h.stepWorkerWith r hp
    · exact h

end SyncFloor

end RetailReport
