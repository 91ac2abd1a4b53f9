import RetailReport.Proofs.Sync.Ledger
import RetailReport.Proofs.Sync.Rebuilder

/-!
# Who works for which notification

A job that comes from the queue is for all stores that its notification has put down; after a failure
each of them goes its own way, by the list of retries and the hands of the workers.  Meanwhile other
notifications bring jobs for the same store.  So jobs and retries are followed by the notification
that they are for, and all that happens to the stores of each notification is written down.

## Main definitions

* `TracedJob`, `TracedRetry`, `TracedPhase`, `TracedFloor`: who works for which notification.
* `TracedFloor.act`, `TracedFloor.run`: what can happen, and what is written down.
* `TracedFloor.Happened`: the steps, one by one.
* `TracedFloor.Aligned`: jobs and retries are those of the floor.

## Main results

* `TracedFloor.floor_run_own`: nobody does anything else because he is followed.
* `TracedFloor.Aligned.happened`, `TracedFloor.Aligned.of_happened`: **jobs and retries stay those of the
  floor**, whatever happens.
-/

namespace RetailReport

/-! ### Who works for which notification -/

/-- A job and the notification that it is for. -/
structure TracedJob where
  /-- The number of the notification. -/
  origin : Nat
  /-- The job. -/
  job : SyncJob

namespace TracedJob

/-- The rebuilds that a job is for. -/
def attempts (j : TracedJob) : List Attempt :=
  j.job.keys.members.map fun key => ⟨⟨j.origin, key⟩, j.job.attempt⟩

/-- Those of them that have failed. -/
def failed (j : TracedJob) (failures : List SyncFailure) : List Attempt :=
  failures.map fun f => ⟨⟨j.origin, f.key⟩, j.job.attempt⟩

/-- Those that have not. -/
def rebuilt (j : TracedJob) (failures : List SyncFailure) : List Attempt :=
  j.attempts.filter (· ∉ j.failed failures)

/-- What has become of all of them. -/
def outcomes (j : TracedJob) (failures : List SyncFailure) : List ChainEvent :=
  (j.failed failures).map (.failed ·.chain) ++ (j.rebuilt failures).map (.rebuilt ·.chain)

theorem eq_of_mem_outcomes {j : TracedJob} {failures : List SyncFailure} {e : ChainEvent}
    (h : e ∈ j.outcomes failures) : e = .failed e.chain ∨ e = .rebuilt e.chain := by
  rcases List.mem_append.1 h with h | h
  · obtain ⟨a, -, rfl⟩ := List.mem_map.1 h
    exact .inl rfl
  · obtain ⟨a, -, rfl⟩ := List.mem_map.1 h
    exact .inr rfl

end TracedJob

/-- A retry and the notification that it is for. -/
structure TracedRetry where
  /-- The number of the notification. -/
  origin : Nat
  /-- The retry. -/
  entry : RetryEntry

namespace TracedRetry

/-- The rebuild that is to come. -/
def attempt (r : TracedRetry) : Attempt := ⟨⟨r.origin, r.entry.key⟩, r.entry.attempt⟩

/-- The retry as a job. -/
def job (r : TracedRetry) : TracedJob := ⟨r.origin, WorkerPool.RetryEntry.job r.entry⟩

@[simp] theorem attempts_job (r : TracedRetry) : r.job.attempts = [r.attempt] := rfl

end TracedRetry

/-- How far a worker is, and which notifications it works for. -/
inductive TracedPhase where
  | looking
  | counted
  | waiting
  | holding (job : TracedJob)
  | running (queued : Bool) (job : TracedJob) (stage : JobStage) (more : List TracedJob)
  | spent (queued : Bool)

namespace TracedPhase

/-- How far the worker is. -/
def erase : TracedPhase → WorkerPhase
  | .looking => .looking
  | .counted => .counted
  | .waiting => .waiting
  | .holding j => .holding j.job
  | .running queued j stage more => .running queued j.job stage (more.map (·.job))
  | .spent queued => .spent queued

/-- Turns to the next of some jobs. -/
def turn (queued : Bool) : List TracedJob → TracedPhase
  | [] => .spent queued
  | j :: more => .running queued j .taken more

/-- The rebuilds that a worker has before it. -/
def due : TracedPhase → List Attempt
  | .holding j => j.attempts
  | .running _ _ (.synced _) more => more.flatMap (·.attempts)
  | .running _ j _ more => j.attempts ++ more.flatMap (·.attempts)
  | .looking | .counted | .waiting | .spent _ => []

/-- The rebuilds that have failed, and that it has planned nothing for. -/
def unplanned : TracedPhase → List Attempt
  | .running _ j (.synced failures) _ => j.failed failures
  | _ => []

theorem erase_turn (queued : Bool) (jobs : List TracedJob) :
    (turn queued jobs).erase = .turn queued (jobs.map (·.job)) := by
  cases jobs <;> rfl

theorem due_turn (queued : Bool) (jobs : List TracedJob) :
    (turn queued jobs).due = jobs.flatMap (·.attempts) := by
  cases jobs <;> rfl

theorem unplanned_turn (queued : Bool) (jobs : List TracedJob) :
    (turn queued jobs).unplanned = [] := by
  cases jobs <;> rfl

end TracedPhase

/-! ### What happens -/

/-- **Callers and workers, with books** of what they work for. -/
structure TracedFloor where
  /-- Callers and workers. -/
  floor : SyncFloor
  /-- The queued jobs. -/
  queue : List TracedJob := []
  /-- The retries that wait. -/
  retries : List TracedRetry := []
  /-- How far each worker is. -/
  workers : List TracedPhase
  /-- What has happened. -/
  journal : List ChainEvent := []

namespace TracedFloor

/-- A caller makes a step. -/
def noteCall (w : TracedFloor) (place : Nat) (c : Notice) : TracedFloor :=
  if c.Sends w.floor.work then
    { w with
      queue := w.queue ++ [⟨place, ⟨c.fresh, 0⟩⟩]
      journal := w.journal ++ c.fresh.members.map fun key => .accepted ⟨place, key⟩ }
  else w

/-- Retries are planned. -/
def plan (w : TracedFloor) (j : TracedJob) (failures : List SyncFailure) : TracedFloor :=
  let pool := w.floor.work.pool
  let attempt := j.job.attempt + 1
  if pool.config.maxRetries < attempt then
    { w with journal := w.journal ++ (j.failed failures).map (.exhausted ·.chain) }
  else
    { w with
      retries := w.retries ++ failures.map fun f =>
        ⟨j.origin, ⟨f.key, attempt, pool.now + pool.config.backoffMs attempt⟩⟩
      journal := w.journal ++ (j.failed failures).map (.retried ·.chain) }

/-- A worker makes a step. -/
def advance (r : Rebuilder) (w : TracedFloor) : TracedPhase → TracedFloor × TracedPhase
  | .looking => (w, if w.floor.work.pool.stopped then .looking else .counted)
  | .counted =>
    ({ w with retries := w.retries.filter fun t => !decide (t.entry.due ≤ w.floor.work.pool.now) },
      .turn false ((w.retries.filter fun t => t.entry.due ≤ w.floor.work.pool.now).map (·.job)))
  | .waiting =>
    match w.queue with
    | [] => (w, .looking)
    | j :: queue => ({ w with queue }, .holding j)
  | .holding j => (w, .running true j .taken [])
  | .running queued j .taken more => (w, .running queued j .cleared more)
  | .running queued j .cleared more =>
    let failures := (r.run w.floor.work.site j.job.keys).1
    ({ w with journal := w.journal ++ j.outcomes failures }, .running queued j (.synced failures) more)
  | .running queued j (.synced failures) more => (w.plan j failures, .turn queued more)
  | .spent queued => (w, if queued then .looking else .waiting)

/-- A worker at some place makes a step. -/
def noteWorker (r : Rebuilder) (w : TracedFloor) (place : Nat) (p : TracedPhase) : TracedFloor :=
  let (w', p') := w.advance r p
  { w' with workers := w.workers.set place p' }

/-- What the books say after something has happened. -/
def note (r : Rebuilder) (w : TracedFloor) : FloorAct → TracedFloor
  | .call place =>
    match w.floor.calls[place]? with
    | some c => w.noteCall place c
    | none => w
  | .work place =>
    match w.workers[place]? with
    | some p => w.noteWorker r place p
    | none => w
  | .change _ | .note _ | .elapse _ | .stop => w

/-- **After something has happened**, while somebody rebuilds the stores. -/
def act (r : Rebuilder) (w : TracedFloor) (a : FloorAct) : TracedFloor :=
  { w.note r a with floor := w.floor.actWith r a }

/-- Some workers, before anything happens. -/
def start (plans : List RebuildPlan) (config : WorkerConfig) (workers : Nat) : TracedFloor where
  floor := .start plans config workers
  workers := List.replicate workers .looking

/-- **After a number of things have happened.**  Each time somebody else may rebuild the stores. -/
def run (w : TracedFloor) (acts : List (Rebuilder × FloorAct)) : TracedFloor :=
  acts.foldl (fun w a => w.act a.1 a.2) w

/-- If it is always the synchronizer, all is as without books. -/
theorem floor_run_own (w : TracedFloor) (acts : List FloorAct) :
    (w.run (acts.map (.own, ·))).floor = w.floor.run acts := by
  induction acts generalizing w with
  | nil => rfl
  | cons a acts ih =>
    have hfloor : (w.act .own a).floor = w.floor.act a := w.floor.actWith_own a
    exact (ih _).trans (congrArg (SyncFloor.run · acts) hfloor)

/-! ### The books are those of the floor -/

/-- **Jobs and retries are those of the floor.** -/
structure Aligned (w : TracedFloor) : Prop where
  queue : w.queue.map (·.job) = w.floor.work.pool.queue
  retries : w.retries.map (·.entry) = w.floor.work.pool.retries
  workers : w.workers.map TracedPhase.erase = w.floor.workers

variable {w w' : TracedFloor} {r : Rebuilder}

theorem aligned_start (plans : List RebuildPlan) (config : WorkerConfig) (workers : Nat) :
    (start plans config workers).Aligned where
  queue := rfl
  retries := rfl
  workers := List.map_replicate

theorem Aligned.noteCall (h : w.Aligned) (place : Nat) (c : Notice) :
    Aligned { w.noteCall place c with floor := w.floor.stepCall place c } := by
  have hadvanced := c.advancedPool w.floor.work
  unfold TracedFloor.noteCall
  split
  · next hsends =>
    refine ⟨?_, h.retries.trans hadvanced.retries.symm, h.workers⟩
    refine Eq.trans ?_ (hadvanced.queue.trans (if_pos hsends)).symm
    rw [List.map_append, h.queue]
    rfl
  · next hsends =>
    exact ⟨h.queue.trans (hadvanced.queue.trans (if_neg hsends)).symm,
      h.retries.trans hadvanced.retries.symm, h.workers⟩

theorem Aligned.plan (h : w.Aligned) (j : TracedJob) (failures : List SyncFailure) :
    (w.plan j failures).queue.map (·.job) =
        (w.floor.work.planRetries j.job failures).pool.queue ∧
      (w.plan j failures).retries.map (·.entry) =
        (w.floor.work.planRetries j.job failures).pool.retries := by
  have hpool : (w.floor.work.planRetries j.job failures).pool = _ :=
    WorkSite.foldl_plan (j.job.attempt + 1) failures w.floor.work.pool
      w.floor.work.site.synchronizer.stats
  rw [hpool]
  unfold TracedFloor.plan
  dsimp only
  split
  · exact ⟨h.queue, h.retries⟩
  · refine ⟨h.queue, ?_⟩
    rw [List.map_append, h.retries, List.map_map]
    rfl

/-- A step of a worker with books is one without. -/
theorem Aligned.advance (h : w.Aligned) (r : Rebuilder) (p : TracedPhase) :
    (w.advance r p).1.queue.map (·.job) =
        (p.erase.advanceWith r w.floor.work w.floor.active).1.pool.queue ∧
      (w.advance r p).1.retries.map (·.entry) =
        (p.erase.advanceWith r w.floor.work w.floor.active).1.pool.retries ∧
      (w.advance r p).2.erase = (p.erase.advanceWith r w.floor.work w.floor.active).2.2 := by
  -- Forgetting where jobs come from turns each step into the one of the plain worker.
  cases p with
  | looking =>
    simp only [TracedFloor.advance, TracedPhase.erase, WorkerPhase.advanceWith, WorkerPhase.advance]
    split <;> exact ⟨h.queue, h.retries, rfl⟩
  | counted =>
    have hdue (due : RetryEntry → Bool) : (w.retries.filter fun t => due t.entry).map (·.entry) =
        w.floor.work.pool.retries.filter due := by
      rw [← h.retries, List.filter_map]
      rfl
    have htake := w.floor.work.pool.takeDueRetries_eq
    refine ⟨h.queue, ?_, (TracedPhase.erase_turn _ _).trans (congrArg (WorkerPhase.turn false) ?_)⟩
    · exact (hdue fun r => !decide (r.due ≤ w.floor.work.pool.now)).trans
        (congrArg (·.2.retries) htake).symm
    · refine Eq.trans ?_ (congrArg (·.1) htake).symm
      rw [← hdue fun r => r.due ≤ w.floor.work.pool.now, List.map_map, List.map_map]
      rfl
  | waiting =>
    cases hjobs : w.queue with
    | nil =>
      have hqueue : w.floor.work.pool.queue = [] := by rw [← h.queue, hjobs, List.map_nil]
      simp only [TracedFloor.advance, TracedPhase.erase, WorkerPhase.advanceWith,
        WorkerPhase.advance, WorkerPool.takeJob?, hjobs, hqueue]
      exact ⟨rfl, h.retries, trivial⟩
    | cons j queue =>
      have hqueue : w.floor.work.pool.queue = j.job :: queue.map (·.job) := by
        rw [← h.queue, hjobs, List.map_cons]
      simp only [TracedFloor.advance, TracedPhase.erase, WorkerPhase.advanceWith,
        WorkerPhase.advance, WorkerPool.takeJob?, hjobs, hqueue]
      exact ⟨trivial, h.retries, trivial⟩
  | holding j => exact ⟨h.queue, h.retries, rfl⟩
  | running queued j stage more =>
    cases stage with
    | taken | cleared => exact ⟨h.queue, h.retries, rfl⟩
    | synced failures =>
      obtain ⟨hqueue, hretries⟩ := h.plan j failures
      exact ⟨hqueue, hretries, TracedPhase.erase_turn queued more⟩
  | spent queued => cases queued <;> exact ⟨h.queue, h.retries, rfl⟩

/-- Steps that are none of a caller or a worker leave jobs, retries and counts alone. -/
structure Quiet (w w' : SyncFloor) : Prop where
  queue : w'.work.pool.queue = w.work.pool.queue
  retries : w'.work.pool.retries = w.work.pool.retries
  config : w'.work.pool.config = w.work.pool.config
  workers : w'.workers = w.workers
  retried : w'.work.site.synchronizer.stats.retries = w.work.site.synchronizer.stats.retries
  exhausted : w'.work.site.synchronizer.stats.exhausted = w.work.site.synchronizer.stats.exhausted
  calls : w'.calls = w.calls ∨ ∃ keys : KeySet String, w'.calls = w.calls ++ [({ keys } : Notice)]

/-- **What can have happened.** -/
inductive Happened (r : Rebuilder) (w : TracedFloor) : TracedFloor → Prop
  /-- Nobody has made a step. -/
  | quiet {floor : SyncFloor} (h : Quiet w.floor floor) : Happened r w { w with floor }
  /-- A caller has made a step. -/
  | call {place : Nat} {c : Notice} (hc : w.floor.calls[place]? = some c) :
      Happened r w { w.noteCall place c with floor := w.floor.stepCall place c }
  /-- A worker has made a step. -/
  | work {place : Nat} {p : TracedPhase} (hp : w.workers[place]? = some p) :
      Happened r w { w.noteWorker r place p with floor := w.floor.stepWorkerWith r place p.erase }

theorem Aligned.happened (h : w.Aligned) (r : Rebuilder) (a : FloorAct) :
    Happened r w (w.act r a) := by
  cases a with
  | change op | elapse ms | stop => exact .quiet ⟨rfl, rfl, rfl, rfl, rfl, rfl, .inl rfl⟩
  | note keys =>
    simp only [act, note, SyncFloor.actWith, SyncFloor.act]
    split
    · exact .quiet ⟨rfl, rfl, rfl, rfl, rfl, rfl, .inl rfl⟩
    · exact .quiet ⟨rfl, rfl, rfl, rfl, rfl, rfl, .inr ⟨keys, rfl⟩⟩
  | call place =>
    simp only [act, note, SyncFloor.actWith, SyncFloor.act]
    cases hc : w.floor.calls[place]? with
    | some c => exact .call hc
    | none => exact .quiet ⟨rfl, rfl, rfl, rfl, rfl, rfl, .inl rfl⟩
  | work place =>
    have hfloor : w.floor.workers[place]? = w.workers[place]?.map TracedPhase.erase := by
      rw [← h.workers, List.getElem?_map]
    simp only [act, note, SyncFloor.actWith, hfloor]
    cases hp : w.workers[place]? with
    | some p => exact .work hp
    | none => exact .quiet ⟨rfl, rfl, rfl, rfl, rfl, rfl, .inl rfl⟩

/-- **The books stay those of the floor.** -/
theorem Aligned.of_happened (h : w.Aligned) (hw : Happened r w w') : w'.Aligned := by
  cases hw with
  | quiet hquiet =>
    exact ⟨h.queue.trans hquiet.queue.symm, h.retries.trans hquiet.retries.symm,
      h.workers.trans hquiet.workers.symm⟩
  | call hc => exact h.noteCall _ _
  | @work place p hp =>
    obtain ⟨hqueue, hretries, herase⟩ := h.advance r p
    have hworkers : (w.workers.set place (w.advance r p).2).map TracedPhase.erase =
        w.floor.workers.set place (p.erase.advanceWith r w.floor.work w.floor.active).2.2 := by
      rw [List.map_set, h.workers, herase]
    exact ⟨hqueue, hretries, hworkers⟩

end TracedFloor

end RetailReport
