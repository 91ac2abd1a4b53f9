import Mathlib.Data.List.Infix
import RetailReport.Proofs.Sync.Notices

/-!
# Looking whether anything is left to do

Whoever waits for the workers looks four times: whether the queue is empty, whether no worker counts
itself as busy, whether no store is pending, and whether no retry waits.  Workers make steps between the
looks, and what has just been looked at may change: a worker that takes a job counts itself only
afterwards, and a worker that counts itself may take the retries before they are looked at.

## Main definitions

* `SyncFloor.Idle`: nothing is left to do.
* `SyncFloor.Round`, `SyncFloor.Round.saysIdle`: four looks, and what happens between them.
* `SyncFloor.Counted`: what every step keeps.

## Main results

* `SyncFloor.counted_act`: one step; `SyncFloor.counted_run`: any number of them.
* `SyncFloor.wasIdle_or_overtaken`: **what it means that a round has found nothing to do**.
* `SyncFloor.not_wasIdle_while_retrying`, `SyncFloor.not_wasIdle_while_taking`: two rounds that have
  found nothing to do while something was done all the time.
-/

namespace RetailReport

/-! ### Busy workers -/

namespace WorkerPhase

theorem isCounted_turn (queued : Bool) (jobs : List SyncJob) :
    (turn queued jobs).isCounted = true := by
  cases jobs <;> rfl

/-- A worker that is not counted has no job but one that it has just taken. -/
theorem holding_of_not_isCounted {p : WorkerPhase} (h : p.isCounted = false) :
    p.jobs = [] ∨ ∃ job, p = .holding job := by
  cases p with
  | holding job => exact .inr ⟨job, rfl⟩
  | looking | waiting => exact .inl rfl
  | counted | running | spent => cases h

/-- **A worker counts itself as busy** once, and not any more when it is done. -/
theorem active_advance (w : WorkSite) {active : Nat} (p : WorkerPhase)
    (h : p.isCounted = true → 0 < active) :
    (p.advance w active).2.1 = active - (if p.isCounted = true then 1 else 0) +
      if (p.advance w active).2.2.isCounted = true then 1 else 0 := by
  -- A busy worker that stays busy is counted all along.
  have hstays : p.isCounted = true → active = active - 1 + 1 := fun hcounted =>
    (Nat.sub_add_cancel (h hcounted)).symm
  cases p with
  | looking =>
    simp only [advance]
    split <;> rfl
  | counted =>
    have hturn : (turn false w.pool.takeDueRetries.1).isCounted = true := isCounted_turn _ _
    simp only [advance, hturn]
    exact hstays rfl
  | waiting =>
    cases htake : w.pool.takeJob? with
    | none =>
      simp only [advance, htake]
      rfl
    | some taken =>
      simp only [advance, htake]
      rfl
  | holding job => rfl
  | running queued job stage more =>
    cases stage with
    | taken | cleared => exact hstays rfl
    | synced failures =>
      simp only [advance, isCounted_turn]
      exact hstays rfl
  | spent queued => cases queued <;> rfl

/-- Workers put no jobs into the queue. -/
theorem queue_advance (w : WorkSite) (active : Nat) (p : WorkerPhase) (h : w.pool.queue = []) :
    (p.advance w active).1.pool.queue = [] := by
  cases p with
  | looking =>
    simp only [advance]
    split <;> exact h
  | waiting =>
    simp only [advance, WorkerPool.takeJob?, h]
  | running queued job stage more =>
    cases stage with
    | taken | cleared => exact h
    | synced failures => exact (w.planRetries_pool job failures).1.trans h
  | counted | holding | spent => exact h

end WorkerPhase

namespace SyncFloor

/-! ### A round -/

/-- **Nothing is left to do**: no job is queued, no retry waits, and no worker has a job. -/
def Idle (w : SyncFloor) : Prop :=
  w.work.pool.queue = [] ∧ w.work.pool.retries = [] ∧ ∀ p ∈ w.workers, p.jobs = []

instance (w : SyncFloor) : Decidable w.Idle := inferInstanceAs (Decidable (_ ∧ _ ∧ ∀ p ∈ _, _))

/-- What happens before the second, the third and the last look of a round. -/
structure Round where
  second : List FloorAct
  third : List FloorAct
  last : List FloorAct

/-- All that happens during a round. -/
def Round.acts (r : Round) : List FloorAct := r.second ++ r.third ++ r.last

/-- Whether all four looks of a round have found nothing to do. -/
def Round.saysIdle (r : Round) (w : SyncFloor) : Bool :=
  w.work.pool.queue.isEmpty && (w.run r.second).active == 0 &&
    (w.run (r.second ++ r.third)).work.pool.pending.isEmpty &&
    (w.run r.acts).work.pool.retries.isEmpty

/-- At some instant nothing was left to do. -/
def WasIdle (w : SyncFloor) (acts : List FloorAct) : Prop := ∃ before ∈ acts.inits, (w.run before).Idle

instance (w : SyncFloor) (acts : List FloorAct) : Decidable (w.WasIdle acts) :=
  inferInstanceAs (Decidable (∃ before ∈ _, _))

/-- **A round that nothing comes between** looks at the workers as they are. -/
theorem saysIdle_alone (w : SyncFloor) :
    Round.saysIdle ⟨[], [], []⟩ w = (w.work.isIdle && w.active == 0) := by
  show (_ && _ && _ && _) = (_ && _ && _ && _)
  simp only [run, Round.acts, List.append_nil, List.foldl_nil]
  ac_rfl

/-! ### What every step keeps -/

/-- The number of busy workers is right. -/
def Counted (w : SyncFloor) : Prop := w.active = w.workers.countP WorkerPhase.isCounted

variable {w : SyncFloor}

theorem counted_start (plans : List RebuildPlan) (config : WorkerConfig) (workers : Nat) :
    (start plans config workers).Counted :=
  (List.countP_eq_zero.2 fun p hp => by rw [(List.mem_replicate.1 hp).2]; exact nofun).symm

theorem Counted.stepWorker (h : w.Counted) {place : Nat} {p : WorkerPhase}
    (hp : w.workers[place]? = some p) : (w.stepWorker place p).Counted := by
  obtain ⟨hlt, rfl⟩ := List.getElem?_eq_some_iff.1 hp
  have hpos : w.workers[place].isCounted = true → 0 < w.active := fun hcounted => by
    rw [h]
    exact List.countP_pos_iff.2 ⟨_, List.getElem_mem hlt, hcounted⟩
  show (w.workers[place].advance w.work w.active).2.1 =
    (w.workers.set place (w.workers[place].advance w.work w.active).2.2).countP _
  rw [List.countP_set hlt, ← h]
  exact WorkerPhase.active_advance w.work _ hpos

theorem counted_act (h : w.Counted) (a : FloorAct) : (w.act a).Counted := by
  cases a with
  | change | elapse | stop => exact h
  | note keys =>
    simp only [act]
    split <;> exact h
  | call place =>
    simp only [act]
    split <;> exact h
  | work place =>
    simp only [act]
    split
    · next hp => exact h.stepWorker hp
    · exact h

theorem counted_run (h : w.Counted) (acts : List FloorAct) : (w.run acts).Counted := by
  induction acts generalizing w with
  | nil => exact h
  | cons a acts ih => exact ih (counted_act h a)

end SyncFloor

/-- Whether a caller makes a step that may queue a job. -/
def FloorAct.isCall : FloorAct → Bool
  | .call _ => true
  | _ => false

namespace SyncFloor

variable {w : SyncFloor}

/-- An empty queue stays empty unless callers make steps. -/
theorem queue_act {a : FloorAct} (ha : a.isCall = false) (h : w.work.pool.queue = []) :
    (w.act a).work.pool.queue = [] := by
  cases a with
  | change | elapse | stop => exact h
  | note keys =>
    simp only [act]
    split <;> exact h
  | call place => cases ha
  | work place =>
    simp only [act]
    split
    · exact WorkerPhase.queue_advance _ _ _ h
    · exact h

theorem queue_run {acts : List FloorAct} (hacts : ∀ a ∈ acts, a.isCall = false)
    (h : w.work.pool.queue = []) : (w.run acts).work.pool.queue = [] := by
  induction acts generalizing w with
  | nil => exact h
  | cons a acts ih =>
    exact ih (fun a' ha' => hacts a' (List.mem_cons_of_mem _ ha'))
      (queue_act (hacts a List.mem_cons_self) h)

/-! ### What a round has found -/

theorem Counted.holding_or_jobs_eq_nil (h : w.Counted) (hactive : w.active = 0) {p : WorkerPhase}
    (hp : p ∈ w.workers) : p.jobs = [] ∨ ∃ job, p = .holding job := by
  refine WorkerPhase.holding_of_not_isCounted (Bool.eq_false_iff.2 ?_)
  exact List.countP_eq_zero.1 (h.symm.trans hactive) p hp

/-- **What it means that a round has found nothing to do**, if no caller queued a job in the meantime:
at some instant nothing was left to do.  Else, when the busy workers were counted, a worker had taken a
job without counting itself yet, or a retry was waiting, and some worker is at work in the end. -/
theorem wasIdle_or_overtaken (plans : List RebuildPlan) (config : WorkerConfig) (workers : Nat)
    (acts : List FloorAct) (r : Round) (hr : ∀ a ∈ r.acts, a.isCall = false)
    (hidle : r.saysIdle ((start plans config workers).run acts) = true) :
    ((start plans config workers).run acts).WasIdle r.acts ∨
      ((∃ p ∈ (((start plans config workers).run acts).run r.second).workers,
          ∃ job, p = .holding job) ∨
        (((start plans config workers).run acts).run r.second).work.pool.retries ≠ []) ∧
      ∃ p ∈ (((start plans config workers).run acts).run r.acts).workers, p.jobs ≠ [] := by
  have hcounted := counted_run (counted_start plans config workers) acts
  generalize (start plans config workers).run acts = w at hcounted hidle ⊢
  obtain ⟨⟨⟨hqueue, hactive⟩, -⟩, hretries⟩ : ((w.work.pool.queue = [] ∧
      (w.run r.second).active = 0) ∧ _) ∧ (w.run r.acts).work.pool.retries = [] := by
    simpa [Round.saysIdle] using hidle
  have hsecond : r.second <+: r.acts := ⟨r.third ++ r.last, (List.append_assoc _ _ _).symm⟩
  by_cases hend : ∀ p ∈ (w.run r.acts).workers, p.jobs = []
  · -- Then nothing is left to do at the last look.
    exact .inl ⟨r.acts, (List.mem_inits _ _).2 (List.prefix_refl _), queue_run hr hqueue, hretries, hend⟩
  by_cases hwaiting : (w.run r.second).work.pool.retries = []
  · by_cases hjobs : ∀ p ∈ (w.run r.second).workers, p.jobs = []
    · -- Then nothing is left to do at the second look.
      exact .inl ⟨r.second, (List.mem_inits _ _).2 hsecond,
        queue_run (fun a ha => hr a (hsecond.subset ha)) hqueue, hwaiting, hjobs⟩
    · refine .inr ⟨.inl ?_, by push Not at hend; exact hend⟩
      push Not at hjobs
      obtain ⟨p, hp, hjob⟩ := hjobs
      have hheld := (counted_run hcounted r.second).holding_or_jobs_eq_nil hactive hp
      exact ⟨p, hp, hheld.resolve_left hjob⟩
  · exact .inr ⟨.inr hwaiting, by push Not at hend; exact hend⟩

/-- What a worker does with a job: it counts itself for the retries, of which there are none, takes the
job, counts itself again, runs the job, and is done. -/
def oneJob : List FloorAct := List.replicate 9 (.work 0)

set_option maxRecDepth 20000 in
/-- A round that has found nothing to do after a worker is done, and while it looks for retries. -/
theorem wasIdle_after_oneJob :
    (∀ a ∈ (⟨[], [.work 0], []⟩ : Round).acts, a.isCall = false) ∧
    (⟨[], [.work 0], []⟩ : Round).saysIdle ((start [] {} 1).run
      ([.note (.ofList ["S1"]), .call 0, .call 0] ++ oneJob)) = true ∧
    ((start [] {} 1).run ([.note (.ofList ["S1"]), .call 0, .call 0] ++ oneJob)).WasIdle
      (⟨[], [.work 0], []⟩ : Round).acts := by
  have hr : ∀ a ∈ (⟨[], [.work 0], []⟩ : Round).acts, a.isCall = false := by decide
  have hidle : (⟨[], [.work 0], []⟩ : Round).saysIdle ((start [] {} 1).run
      ([.note (.ofList ["S1"]), .call 0, .call 0] ++ oneJob)) = true := by decide +kernel
  refine ⟨hr, hidle, (wasIdle_or_overtaken [] {} 1 _ _ hr hidle).resolve_right fun h => ?_⟩
  obtain ⟨p, hp, hjobs⟩ := h.2
  exact absurd hjobs (by
    revert p
    decide +kernel)

set_option maxRecDepth 20000 in
/-- **A retry is run all the time.**  It waits when the busy workers are counted, and is taken before the
waiting retries are looked at. -/
theorem not_wasIdle_while_retrying :
    ∃ w : SyncFloor, ∃ r : Round,
      w = (start [] {} 1).run ([.change (.setAvailable false), .note (.ofList ["S1"]), .call 0,
        .call 0] ++ oneJob ++ [.elapse 200]) ∧
      r = ⟨[], [.work 0, .work 0], []⟩ ∧ (∀ a ∈ r.acts, a.isCall = false) ∧
      r.saysIdle w = true ∧ ¬w.WasIdle r.acts :=
  ⟨_, _, rfl, rfl, by decide +kernel⟩

set_option maxRecDepth 20000 in
/-- **A job is run all the time.**  When the busy workers are counted, a worker has taken it and has not
counted itself yet, and its stores are taken off before the pending ones are looked at. -/
theorem not_wasIdle_while_taking :
    ∃ w : SyncFloor, ∃ r : Round,
      w = (start [] {} 1).run ([.note (.ofList ["S1"]), .call 0, .call 0] ++ oneJob.take 4) ∧
      r = ⟨[], [.work 0, .work 0], []⟩ ∧ (∀ a ∈ r.acts, a.isCall = false) ∧
      r.saysIdle w = true ∧ ¬w.WasIdle r.acts :=
  ⟨_, _, rfl, rfl, by decide +kernel⟩

end SyncFloor

end RetailReport
