import RetailReport.Proofs.Fact.History
import RetailReport.Proofs.Sync.Pool

/-!
# Callers and workers side by side

A notification is several steps of its caller, and a job is several steps of a worker; steps of other
callers and workers may come between any two of them.  A caller takes note of the change, puts down the
stores that are not pending, tries to queue one job for them, and takes them off again if there was no
room.  A worker counts itself as busy and runs the retries that are due; then it waits for a job, takes
it, counts itself as busy, and runs it.  To run a job is to take its stores off those that are pending,
to synchronise them, and to plan retries for those that have failed.

Beside each notification it is kept for which stores a synchronisation has begun since it took note of
its change, and which stores were taken off again since it put down its own.

## Main definitions

* `Notice`, `WorkerPhase`: a caller and a worker, and how far they are.
* `SyncFloor`, `FloorAct`, `SyncFloor.act`, `SyncFloor.run`: what can happen, in any order.

## Main results

* `Notice.advance_noted`, `WorkerPhase.advance_running`: **steps that nothing comes between** are a
  notification, or a job.
-/

namespace RetailReport

/-! ### Callers -/

/-- How far a notification is. -/
inductive NoticePhase where
  /-- The change is noted. -/
  | noted
  /-- The stores that were not pending are put down. -/
  | marked
  /-- There was no room for a job. -/
  | refused
  /-- The caller was told that the notification is accepted. -/
  | accepted
  /-- The caller was told that it is not. -/
  | rejected
deriving DecidableEq, Repr

/-- A notification. -/
structure Notice where
  /-- The stores. -/
  keys : KeySet String
  /-- How far it is. -/
  phase : NoticePhase := .noted
  /-- The stores that it has put down. -/
  fresh : KeySet String := .empty
  /-- The stores that a synchronisation has begun for since the change was noted. -/
  synced : KeySet String := .empty
  /-- The stores that were taken off again since it has put down its own. -/
  dropped : KeySet String := .empty

namespace Notice

/-- A synchronisation of some stores begins. -/
def noteSync (keys : KeySet String) (c : Notice) : Notice := { c with synced := c.synced.union keys }

/-- Some stores are taken off again. -/
def noteDrop (keys : KeySet String) (c : Notice) : Notice :=
  if c.phase = .noted then c else { c with dropped := c.dropped.union keys }

/-- The next step of a notification. -/
def advance (w : WorkSite) (c : Notice) : WorkSite × Notice :=
  match c.phase with
  | .noted =>
    let fresh := w.pool.fresh c.keys
    ({ w with pool := w.pool.addPending fresh },
      { c with fresh, phase := if fresh.isEmpty then .accepted else .marked })
  | .marked =>
    match w.pool.enqueue? ⟨c.fresh, 0⟩ with
    | some pool => ({ w with pool }, { c with phase := .accepted })
    | none => (w, { c with phase := .refused })
  | .refused =>
    ({ w with pool := w.pool.removePending c.fresh }.mapStats fun s =>
      { s with queueRejected := s.queueRejected + 1 }, { c with phase := .rejected })
  | .accepted | .rejected => (w, c)

/-- The stores that are taken off by the next step of a notification. -/
def drops (c : Notice) : KeySet String := if c.phase = .refused then c.fresh else .empty

end Notice

/-! ### Workers -/

/-- How far a job is that a worker runs. -/
inductive JobStage where
  /-- It was taken. -/
  | taken
  /-- Its stores were taken off those that are pending. -/
  | cleared
  /-- Its stores were synchronised. -/
  | synced (failures : List SyncFailure)

/-- How far a worker is. -/
inductive WorkerPhase where
  /-- It is about to look for retries. -/
  | looking
  /-- It has counted itself as busy, and is about to take the retries that are due. -/
  | counted
  /-- It waits for a job. -/
  | waiting
  /-- It has taken a job from the queue. -/
  | holding (job : SyncJob)
  /-- It runs a job, from the queue or not, and has others to run after it. -/
  | running (queued : Bool) (job : SyncJob) (stage : JobStage) (more : List SyncJob)
  /-- It has run what it had taken, and still counts as busy. -/
  | spent (queued : Bool)

namespace WorkerPhase

/-- Turns to the next of some jobs. -/
def turn (queued : Bool) : List SyncJob → WorkerPhase
  | [] => .spent queued
  | job :: more => .running queued job .taken more

/-- Whether a worker has counted itself as busy. -/
def isCounted : WorkerPhase → Bool
  | .counted | .running .. | .spent _ => true
  | .looking | .waiting | .holding _ => false

/-- The jobs that a worker has taken and not finished. -/
def jobs : WorkerPhase → List SyncJob
  | .holding job => [job]
  | .running _ job _ more => job :: more
  | .looking | .counted | .waiting | .spent _ => []

/-- Those of them whose stores are not taken off yet. -/
def uncleared : WorkerPhase → List SyncJob
  | .holding job => [job]
  | .running _ job .taken more => job :: more
  | .running _ _ _ more => more
  | .looking | .counted | .waiting | .spent _ => []

/-- Those of them whose synchronisation has not begun yet. -/
def unsynced : WorkerPhase → List SyncJob
  | .holding job => [job]
  | .running _ _ (.synced _) more => more
  | .running _ job _ more => job :: more
  | .looking | .counted | .waiting | .spent _ => []

/-- The stores that the next step of a worker begins to synchronise. -/
def begins : WorkerPhase → KeySet String
  | .running _ job .cleared _ => job.keys
  | _ => .empty

end WorkerPhase

namespace WorkSite

/-- Synchronises stores, and tells which have failed. -/
def syncKeys (w : WorkSite) (keys : KeySet String) : List SyncFailure × WorkSite :=
  let (report, _, site) := w.site.sync keys
  (report.failures, { w with site })

/-- Plans retries for the stores of a job that have failed. -/
def planRetries (w : WorkSite) (job : SyncJob) (failures : List SyncFailure) : WorkSite :=
  let (pool, stats) := failures.foldl (WorkerPool.plan (job.attempt + 1))
    (w.pool, w.site.synchronizer.stats)
  { site := { w.site with synchronizer := { w.site.synchronizer with stats } }, pool }

end WorkSite

/-- The next step of a worker, with the number of workers that are busy.  A worker that finds the queue
empty looks for retries again, and one that was stopped does not. -/
def WorkerPhase.advance (w : WorkSite) (active : Nat) : WorkerPhase → WorkSite × Nat × WorkerPhase
  | .looking => if w.pool.stopped then (w, active, .looking) else (w, active + 1, .counted)
  | .counted =>
    let (jobs, pool) := w.pool.takeDueRetries
    ({ w with pool }, active, turn false jobs)
  | .waiting =>
    match w.pool.takeJob? with
    | some (job, pool) => ({ w with pool }, active, .holding job)
    | none => (w, active, .looking)
  | .holding job => (w, active + 1, .running true job .taken [])
  | .running queued job .taken more =>
    ({ w with pool := w.pool.removePending job.keys }, active, .running queued job .cleared more)
  | .running queued job .cleared more =>
    let (failures, w) := w.syncKeys job.keys
    (w, active, .running queued job (.synced failures) more)
  | .running queued job (.synced failures) more =>
    (w.planRetries job failures, active, turn queued more)
  | .spent queued => (w, active - 1, if queued then .looking else .waiting)

/-! ### All of them -/

/-- Callers and workers, and what they work on. -/
structure SyncFloor where
  /-- What they work on. -/
  work : WorkSite
  /-- How far each worker is. -/
  workers : List WorkerPhase
  /-- How many workers are busy. -/
  active : Nat := 0
  /-- The notifications so far. -/
  calls : List Notice := []

/-- What can happen. -/
inductive FloorAct where
  /-- Lines change. -/
  | change (op : FactOp)
  /-- A caller takes note of a change of some stores, unless the workers were stopped. -/
  | note (keys : KeySet String)
  /-- The next step of a notification. -/
  | call (place : Nat)
  /-- The next step of a worker. -/
  | work (place : Nat)
  /-- Time passes. -/
  | elapse (ms : Nat)
  /-- The workers are stopped. -/
  | stop

namespace SyncFloor

/-- After the next step of a notification. -/
def stepCall (w : SyncFloor) (place : Nat) (c : Notice) : SyncFloor :=
  let (work, c') := c.advance w.work
  { w with work, calls := (w.calls.set place c').map (Notice.noteDrop c.drops) }

/-- After the next step of a worker. -/
def stepWorker (w : SyncFloor) (place : Nat) (p : WorkerPhase) : SyncFloor :=
  let (work, active, p') := p.advance w.work w.active
  { work, active, workers := w.workers.set place p',
    calls := w.calls.map (Notice.noteSync p.begins) }

/-- After something has happened. -/
def act (w : SyncFloor) : FloorAct → SyncFloor
  | .change op => { w with work.site.facts := w.work.site.facts.apply op }
  | .note keys =>
    if w.work.pool.stopped then w
    else { w with work := w.work.recordMutation keys, calls := w.calls ++ [{ keys }] }
  | .call place =>
    match w.calls[place]? with
    | some c => w.stepCall place c
    | none => w
  | .work place =>
    match w.workers[place]? with
    | some p => w.stepWorker place p
    | none => w
  | .elapse ms => { w with work.pool.now := w.work.pool.now + ms }
  | .stop => { w with work.pool.stopped := true }

/-- Some workers, before anything happens. -/
def start (plans : List RebuildPlan) (config : WorkerConfig) (workers : Nat) : SyncFloor where
  work := { site := { facts := {}, rollups := {}, synchronizer := { plans } }, pool := { config } }
  workers := List.replicate workers .looking

/-- After a number of things have happened. -/
def run (w : SyncFloor) (acts : List FloorAct) : SyncFloor := acts.foldl act w

end SyncFloor

/-! ### Steps that nothing comes between -/

/-- **A job that nothing comes between** is the job of the workers. -/
theorem WorkerPhase.advance_running (w : WorkSite) (active : Nat) (queued : Bool) (job : SyncJob)
    (more : List SyncJob) : ∃ w₁ w₂ failures,
    advance w active (.running queued job .taken more) =
      (w₁, active, .running queued job .cleared more) ∧
    advance w₁ active (.running queued job .cleared more) =
      (w₂, active, .running queued job (.synced failures) more) ∧
    advance w₂ active (.running queued job (.synced failures) more) =
      ((w.runJob job).2, active, turn queued more) :=
  ⟨_, _, _, rfl, rfl, rfl⟩

/-- Stores that were put down are taken off again without a trace. -/
theorem WorkerPool.removePending_addPending (p : WorkerPool) (keys : KeySet String) :
    (p.addPending (p.fresh keys)).removePending (p.fresh keys) = p := by
  have hpending : ((p.addPending (p.fresh keys)).removePending (p.fresh keys)).pending =
      p.pending := by
    refine KeySet.ext_mem fun key => ?_
    rw [WorkSite.mem_removePending, addPending, KeySet.mem_union, fresh, KeySet.mem_filter,
      Bool.not_eq_true', Bool.eq_false_iff, Ne, KeySet.contains_iff]
    tauto
  show { p with pending := ((p.addPending (p.fresh keys)).removePending (p.fresh keys)).pending } = p
  rw [hpending]

theorem WorkerPool.addPending_of_isEmpty {p : WorkerPool} {keys : KeySet String}
    (h : keys.isEmpty = true) : p.addPending keys = p := by
  have hpending : (p.addPending keys).pending = p.pending := by
    refine KeySet.ext_mem fun key => ?_
    rw [addPending, KeySet.mem_union]
    exact or_iff_left (KeySet.isEmpty_iff.1 h key)
  show { p with pending := (p.addPending keys).pending } = p
  rw [hpending]

/-- **A notification that nothing comes between** is that of the workers. -/
theorem Notice.advance_noted (w : WorkSite) (keys : KeySet String) (hrunning : w.pool.stopped = false) :
    ∃ w₁ w₂ c₁ c₂ c₃, advance (w.recordMutation keys) { keys } = (w₁, c₁) ∧
      advance w₁ c₁ = (w₂, c₂) ∧ advance w₂ c₂ = ((w.notify keys).2, c₃) ∧
      c₃.phase = if (w.notify keys).1.isOk then .accepted else .rejected := by
  unfold WorkSite.notify
  rw [if_neg (Bool.eq_false_iff.1 hrunning)]
  dsimp only
  generalize w.recordMutation keys = w
  -- With nothing new to send, the call is accepted at once.
  by_cases hempty : (w.pool.fresh keys).isEmpty = true
  · have hfirst : advance w { keys } =
        (w, { keys, fresh := w.pool.fresh keys, phase := .accepted }) := by
      simp only [advance, if_pos hempty, WorkerPool.addPending_of_isEmpty hempty]
    rw [if_pos hempty]
    exact ⟨_, _, _, _, _, hfirst, rfl, rfl, rfl⟩
  · have hfirst : advance w { keys } =
        ({ w with pool := w.pool.addPending (w.pool.fresh keys) },
          { keys, fresh := w.pool.fresh keys, phase := .marked }) := by
      simp only [advance, if_neg hempty]
    rw [if_neg hempty]
    cases hqueue : (w.pool.addPending (w.pool.fresh keys)).enqueue? ⟨w.pool.fresh keys, 0⟩ with
    | some pool =>
      have hsecond : advance { w with pool := w.pool.addPending (w.pool.fresh keys) }
          { keys, fresh := w.pool.fresh keys, phase := .marked } =
            ({ w with pool }, { keys, fresh := w.pool.fresh keys, phase := .accepted }) := by
        simp only [advance, hqueue]
      exact ⟨_, _, _, _, _, hfirst, hsecond, rfl, rfl⟩
    | none =>
      have hsecond : advance { w with pool := w.pool.addPending (w.pool.fresh keys) }
          { keys, fresh := w.pool.fresh keys, phase := .marked } =
            ({ w with pool := w.pool.addPending (w.pool.fresh keys) },
              { keys, fresh := w.pool.fresh keys, phase := .refused }) := by
        simp only [advance, hqueue]
      refine ⟨_, _, _, _, { keys, fresh := w.pool.fresh keys, phase := .rejected }, hfirst, hsecond,
        ?_, rfl⟩
      simp only [advance, WorkerPool.removePending_addPending]

end RetailReport
