import RetailReport.Sync.Synchronizer

/-!
# The sync workers

Whoever changes lines notifies the workers.  A notification becomes a job in a bounded queue, for
those of its stores that no queued job is for yet.  A worker takes a job, synchronises its stores, and
plans a retry for each store that fails, with a delay that doubles from one retry to the next, up to
a number of retries.

## Main definitions

* `WorkerConfig`, `WorkerConfig.backoffMs`.
* `SyncJob`, `RetryEntry`, `WorkerPool`.
* `WorkerPool.notify`, `WorkerPool.takeJob?`, `WorkerPool.takeDueRetries`, `WorkerPool.plan`: the
  steps of the callers and the workers.
* `WorkSite.runJob`, `WorkSite.drain`, `WorkSite.waitIdle`: the work until nothing is left to do.
-/

namespace RetailReport

-- Powers are those of the core library.
attribute [local instance (high)] instPowNat

/-- How the workers are set up. -/
structure WorkerConfig where
  /-- How many workers there are; there is at least one. -/
  workerCount : Nat := 2
  /-- For how many jobs the queue has room; it has room for at least one. -/
  queueCapacity : Nat := 1024
  /-- How often a failed store is tried again. -/
  maxRetries : Nat := 5
  /-- The delay of the first retry, in milliseconds. -/
  retryBaseMs : Nat := 200
  /-- The greatest delay of a retry, in milliseconds. -/
  retryMaxMs : Nat := 30000
  /-- How often an idle worker looks for retries, in milliseconds. -/
  pollIntervalMs : Nat := 50
deriving DecidableEq, Repr, Inhabited

/-- The delay of a retry in milliseconds; retries are numbered from 1. -/
def WorkerConfig.backoffMs (c : WorkerConfig) (attempt : Nat) : Nat :=
  min (c.retryBaseMs * 2 ^ min (attempt - 1) 16) c.retryMaxMs

/-- Stores that are to be synchronised. -/
structure SyncJob where
  /-- The stores. -/
  keys : KeySet String
  /-- How often they have been tried again. -/
  attempt : Nat := 0
deriving DecidableEq, Repr

/-- A store that is to be tried again. -/
structure RetryEntry where
  /-- The store. -/
  key : String
  /-- The number of the retry. -/
  attempt : Nat
  /-- When it is due, in milliseconds. -/
  due : Nat
deriving DecidableEq, Repr

/-- The queue of the workers, and what else they share. -/
structure WorkerPool where
  /-- How the workers are set up. -/
  config : WorkerConfig := {}
  /-- The jobs that no worker has taken, the next one first. -/
  queue : List SyncJob := []
  /-- The stores that the queued jobs are for. -/
  pending : KeySet String := .empty
  /-- The stores that are to be tried again. -/
  retries : List RetryEntry := []
  /-- Whether the workers were started. -/
  started : Bool := false
  /-- Whether they were stopped. -/
  stopped : Bool := false
  /-- The present moment, in milliseconds. -/
  now : Nat := 0
deriving Inhabited

/-! ### The steps of callers and workers -/

namespace WorkerPool

/-- For how many jobs the queue has room. -/
def room (p : WorkerPool) : Nat := max p.config.queueCapacity 1

/-- Starts the workers. -/
def start (p : WorkerPool) : WorkerPool := { p with started := true }

/-- Whether there are workers at work. -/
def isRunning (p : WorkerPool) : Bool := p.started && !p.stopped

/-- The stores of a notification that no queued job is for. -/
def fresh (p : WorkerPool) (keys : KeySet String) : KeySet String :=
  keys.filter fun key _ => !p.pending.contains key

/-- Puts stores down as those that queued jobs are for. -/
def addPending (p : WorkerPool) (keys : KeySet String) : WorkerPool :=
  { p with pending := p.pending.union keys }

/-- Takes stores off again. -/
def removePending (p : WorkerPool) (keys : KeySet String) : WorkerPool :=
  { p with pending := p.pending.filter fun key _ => !keys.contains key }

/-- Puts a job into the queue, if there is room. -/
def enqueue? (p : WorkerPool) (job : SyncJob) : Option WorkerPool :=
  if p.queue.length < p.room then some { p with queue := p.queue ++ [job] } else none

/-- Takes a job from the queue. -/
def takeJob? (p : WorkerPool) : Option (SyncJob × WorkerPool) :=
  match p.queue with
  | [] => none
  | job :: queue => some (job, { p with queue })

/-- The retry of a store as a job. -/
def RetryEntry.job (r : RetryEntry) : SyncJob := ⟨KeySet.ofList [r.key], r.attempt⟩

/-- Takes the retries that are due. -/
def takeDueRetries (p : WorkerPool) : List SyncJob × WorkerPool :=
  let (due, waiting) := p.retries.partition fun r => r.due ≤ p.now
  (due.map RetryEntry.job, { p with retries := waiting })

/-- Plans a retry for a store of a job that has failed, unless it has been tried often enough. -/
def plan (attempt : Nat) (step : WorkerPool × SyncStats) (f : SyncFailure) : WorkerPool × SyncStats :=
  let (p, stats) := step
  if p.config.maxRetries < attempt then (p, { stats with exhausted := stats.exhausted + 1 })
  else
    ({ p with
      retries := p.retries ++ [⟨f.key, attempt, p.now + p.config.backoffMs attempt⟩] },
      { stats with retries := stats.retries + 1 })

end WorkerPool

/-- The workers and what they work on. -/
structure WorkSite where
  /-- The synchronizer and the stores. -/
  site : SyncSite
  /-- The workers. -/
  pool : WorkerPool

namespace WorkSite

/-- Changes what has been counted. -/
def mapStats (w : WorkSite) (f : SyncStats → SyncStats) : WorkSite :=
  { w with site := { w.site with
      synchronizer := { w.site.synchronizer with stats := f w.site.synchronizer.stats } } }

/-- Takes note of a change of some stores. -/
def recordMutation (w : WorkSite) (keys : KeySet String) : WorkSite :=
  { w with site := { w.site with synchronizer := w.site.synchronizer.recordMutation keys } }

/-- **Notifies the workers of a change of some stores.** -/
def notify (w : WorkSite) (keys : KeySet String) : Except SyncError Unit × WorkSite :=
  if w.pool.stopped then (.error .shutDown, w)
  else
    let w := w.recordMutation keys
    let fresh := w.pool.fresh keys
    if fresh.isEmpty then (.ok (), w)
    else
      match (w.pool.addPending fresh).enqueue? ⟨fresh, 0⟩ with
      | some pool => (.ok (), { w with pool })
      | none =>
        (.error (.queueFull w.pool.config.queueCapacity),
          w.mapStats fun s => { s with queueRejected := s.queueRejected + 1 })

/-- **Runs a job**: synchronises its stores and plans retries. -/
def runJob (w : WorkSite) (job : SyncJob) : List SyncEvent × WorkSite :=
  let pool := w.pool.removePending job.keys
  let (report, events, site) := w.site.sync job.keys
  let (pool, stats) := report.failures.foldl (WorkerPool.plan (job.attempt + 1))
    (pool, site.synchronizer.stats)
  (events, { site := { site with synchronizer := { site.synchronizer with stats } }, pool })

/-- Runs jobs one after the other. -/
def runJobs (w : WorkSite) (jobs : List SyncJob) : List SyncEvent × WorkSite :=
  jobs.foldl
    (fun (events, w) job =>
      let (more, w) := w.runJob job
      (events ++ more, w))
    ([], w)

/-- Runs the jobs that are queued, as far as workers are there: at most `limit` of them. -/
def drain (w : WorkSite) (limit : Nat) : List SyncEvent × WorkSite :=
  if w.pool.isRunning then
    { w with pool := { w.pool with queue := w.pool.queue.drop limit } }.runJobs
      (w.pool.queue.take limit)
  else ([], w)

/-- Whether nothing is left to do. -/
def isIdle (w : WorkSite) : Bool :=
  w.pool.queue.isEmpty && w.pool.pending.isEmpty && w.pool.retries.isEmpty

/-- The moment at which the next retry is due, the present one if it is over. -/
def nextDue? (p : WorkerPool) : Option Nat :=
  match p.retries.map (·.due) with
  | [] => none
  | due :: more => some (max p.now (more.foldl min due))

/-- Works until nothing is left to do, or the next retry is due after a deadline. -/
def workUntil (deadline : Nat) : (fuel : Nat) → WorkSite → List SyncEvent → List SyncEvent × WorkSite
  | 0, w, events => (events, w)
  | fuel + 1, w, events =>
    let (more, w) := w.drain w.pool.queue.length
    let events := events ++ more
    match nextDue? w.pool with
    | none => (events, w)
    | some due =>
      if deadline < due then (events, w)
      else
        let (jobs, pool) := { w.pool with now := due }.takeDueRetries
        let (more, w) := { w with pool }.runJobs jobs
        workUntil deadline fuel w (events ++ more)

/-- How many rounds of retries are waited for at most. -/
def patience : Nat := 20000

/-- **Waits until nothing is left to do**, at most for some time, and tells whether that is so. -/
def waitIdle (w : WorkSite) (timeoutMs : Nat) : Bool × List SyncEvent × WorkSite :=
  if w.pool.isRunning then
    let (events, w) := workUntil (w.pool.now + timeoutMs) patience w []
    (w.isIdle, events, w)
  else (w.isIdle, [], w)

/-- Stops the workers; each of them still runs the job that it has before it. -/
def stop (w : WorkSite) : List SyncEvent × WorkSite :=
  let (events, w) := w.drain (max w.pool.config.workerCount 1)
  (events, { w with pool := { w.pool with stopped := true } })

end WorkSite

end RetailReport
