import Mathlib.Algebra.BigOperators.Group.List.Basic
import Mathlib.Tactic.Abel
import RetailReport.Proofs.Sync.Tracing

/-!
# How failed stores are retried

The books of the retries list what queue, retries and workers have before them, and what has been
written down.  Each step of a caller or a worker is a number of entries; hence the books are right at
any time, and tell of each store of an accepted notification how often it is rebuilt and what becomes of
it.

## Main definitions

* `TracedFloor.ledger`: the books.
* `TracedFloor.Filed`, `TracedFloor.Counted`: the chains are those of the accepted notifications, and
  what is counted is what has happened.
* `TracedFloor.Sound`: what every step keeps.

## Main results

* `TracedFloor.Filed.steps`: whatever happens is written down entry by entry.
* `TracedFloor.Sound.act`: one step; `TracedFloor.Sound.run`: any number of them.
* `TracedFloor.retries_bounded_and_counted`: **how the stores of accepted notifications are retried**.
-/

namespace RetailReport

-- Powers are those of the core library.
attribute [local instance (high)] instPowNat

namespace TracedFloor

variable {w w' : TracedFloor} {r : Rebuilder}

/-! ### The books -/

/-- The rebuilds that no worker has taken. -/
def waiting (w : TracedFloor) : Multiset Attempt :=
  w.queue.flatMap (·.attempts) + w.retries.map (·.attempt)

/-- **The books.** -/
def ledger (w : TracedFloor) : Ledger where
  due := w.waiting + (w.workers.map fun p => (p.due : Multiset Attempt)).sum
  unplanned := (w.workers.map fun p => (p.unplanned : Multiset Attempt)).sum
  journal := w.journal

/-- The number of retries that a store has. -/
def limit (w : TracedFloor) : Nat := w.floor.work.pool.config.maxRetries

theorem ledger_start (plans : List RebuildPlan) (config : WorkerConfig) (workers : Nat) :
    (start plans config workers).ledger = ⟨0, 0, []⟩ := by
  simp [ledger, start, waiting, TracedPhase.due, TracedPhase.unplanned, List.sum_replicate]

/-- Some of the retries that wait, as jobs. -/
theorem waiting_eq (w : TracedFloor) (isDue : TracedRetry → Bool) :
    w.waiting = waiting { w with retries := w.retries.filter fun t => !isDue t } +
      (((w.retries.filter isDue).map (·.job)).flatMap (·.attempts) : List Attempt) := by
  have hperm := (List.filter_append_perm isDue w.retries).map (·.attempt)
  have hretries : (w.retries.map (·.attempt) : Multiset Attempt) =
      ((w.retries.filter isDue).map (·.attempt) : List Attempt) +
        ((w.retries.filter fun t => !isDue t).map (·.attempt) : List Attempt) := by
    rw [Multiset.coe_add, ← List.map_append]
    exact (Multiset.coe_eq_coe.2 hperm).symm
  have hjobs : ((w.retries.filter isDue).map (·.job)).flatMap (·.attempts) =
      (w.retries.filter isDue).map (·.attempt) := by
    simp only [List.flatMap_map, TracedRetry.attempts_job, ← List.map_eq_flatMap]
  simp only [waiting, hretries, hjobs]
  abel

/-- A sum over a list of which one member is replaced. -/
theorem exists_sum_set {α β : Type} (f : α → Multiset β) {l : List α} {place : Nat} {a : α}
    (h : l[place]? = some a) :
    ∃ rest, (l.map f).sum = f a + rest ∧ ∀ b, ((l.set place b).map f).sum = f b + rest := by
  induction l generalizing place with
  | nil => cases h
  | cons x l ih =>
    cases place with
    | zero =>
      cases h
      exact ⟨(l.map f).sum, rfl, fun b => rfl⟩
    | succ place =>
      obtain ⟨rest, hsum, hset⟩ := ih h
      refine ⟨f x + rest, ?_, fun b => ?_⟩
      · rw [List.map_cons, List.sum_cons, hsum, add_left_comm]
      · rw [List.set_cons_succ, List.map_cons, List.sum_cons, hset, add_left_comm]

/-- Each rebuild of a job has failed or not. -/
theorem attempts_eq (r : Rebuilder) (site : SyncSite) (j : TracedJob) :
    (j.attempts : Multiset Attempt) = (j.failed (r.run site j.job.keys).1 : Multiset Attempt) +
      j.rebuilt (r.run site j.job.keys).1 := by
  let failed := j.failed (r.run site j.job.keys).1
  let attempt (key : String) : Attempt := ⟨⟨j.origin, key⟩, j.job.attempt⟩
  have hinjective : Function.Injective attempt := fun key key' h =>
    congrArg (fun a : Attempt => a.chain.key) h
  -- No store fails twice, so the failures are exactly those rebuilds that are among them.
  have hfailed : failed = ((r.run site j.job.keys).1.map (·.key)).map attempt := by
    rw [List.map_map]
    rfl
  have hattempts : j.attempts.Nodup := j.job.keys.nodup_members.map hinjective
  have hperm : (j.attempts.filter (· ∈ failed)).Perm failed := by
    refine (List.perm_ext_iff_of_nodup (hattempts.filter _) ?_).2 fun a => ?_
    · rw [hfailed]
      exact (r.nodup site j.job.keys).map hinjective
    · rw [List.mem_filter, decide_eq_true_eq, and_iff_right_iff_imp]
      intro ha
      obtain ⟨f, hf, rfl⟩ := List.mem_map.1 ha
      exact List.mem_map_of_mem (r.subset site j.job.keys f hf)
  have hsplit := List.filter_append_perm (· ∈ failed) j.attempts
  simp only [← decide_not] at hsplit
  rw [Multiset.coe_add]
  exact Multiset.coe_eq_coe.2 (hsplit.symm.trans (hperm.append_right _))

/-- Retries are written down entry by entry. -/
theorem steps_plan (w : TracedFloor) (j : TracedJob) (failures : List SyncFailure)
    (due unplanned : Multiset Attempt) :
    Ledger.Steps w.limit ⟨w.waiting + due, j.failed failures + unplanned, w.journal⟩
      ⟨(w.plan j failures).waiting + due, unplanned, (w.plan j failures).journal⟩ := by
  have hnumber : ∀ a ∈ j.failed failures, a.number = j.job.attempt := by
    intro a ha
    obtain ⟨f, -, rfl⟩ := List.mem_map.1 ha
    rfl
  unfold plan
  dsimp only
  split
  · next hlimit =>
    exact Ledger.Steps.exhaust _ _ _ fun a ha => hnumber a ha ▸ Nat.le_of_lt_succ hlimit
  · next hlimit =>
    have hlt : ∀ a ∈ j.failed failures, a.number < w.limit := fun a ha =>
      (hnumber a ha).symm ▸ Nat.lt_of_succ_le (Nat.le_of_not_lt hlimit)
    have hsteps := Ledger.Steps.retry (w.waiting + due) unplanned w.journal hlt
    refine Relation.ReflTransGen.trans hsteps (Ledger.Steps.of_eq ?_)
    simp only [waiting, TracedJob.failed, List.map_append, List.map_map, ← Multiset.coe_add]
    have hnew (a b c : Multiset Attempt) : c + (a + b + due) = a + (b + c) + due := by abel
    exact hnew _ _ _

/-- **A step of a worker is written down entry by entry**, beside whatever the other workers have. -/
theorem steps_advance (r : Rebuilder) (w : TracedFloor) (p : TracedPhase)
    (due unplanned : Multiset Attempt) :
    Ledger.Steps w.limit ⟨w.waiting + (p.due + due), p.unplanned + unplanned, w.journal⟩
      ⟨(w.advance r p).1.waiting + ((w.advance r p).2.due + due),
        (w.advance r p).2.unplanned + unplanned, (w.advance r p).1.journal⟩ := by
  cases p with
  | looking =>
    simp only [advance]
    split <;> exact .refl
  | counted =>
    -- Retries turn into jobs for the same rebuilds, so nothing is written down.
    simp only [advance, TracedPhase.due_turn, TracedPhase.unplanned_turn]
    refine .of_eq ?_
    change w.waiting + (0 + due) = _
    rw [w.waiting_eq fun t => t.entry.due ≤ w.floor.work.pool.now, zero_add, add_assoc]
  | waiting =>
    simp only [advance]
    cases hqueue : w.queue with
    | nil => exact .refl
    | cons j queue =>
      refine .of_eq ?_
      change w.waiting + (0 + due) = waiting { w with queue } + (j.attempts + due)
      simp only [waiting, hqueue, List.flatMap_cons, ← Multiset.coe_add]
      abel
  | holding j =>
    refine .of_eq ?_
    change w.waiting + (j.attempts + due) = w.waiting + ((j.attempts ++ [] : List Attempt) + due)
    rw [List.append_nil]
  | running queued j stage more =>
    cases stage with
    | taken => exact .refl
    | cleared =>
      let failures := (r.run w.floor.work.site j.job.keys).1
      let rest : Multiset Attempt := more.flatMap (·.attempts)
      have hdue : w.waiting + ((j.attempts ++ more.flatMap (·.attempts) : List Attempt) + due) =
          j.failed failures + (j.rebuilt failures + (w.waiting + (rest + due))) := by
        rw [← Multiset.coe_add, attempts_eq r w.floor.work.site j]
        abel
      have hnone : ((TracedPhase.running queued j .cleared more).unplanned : Multiset Attempt) +
          unplanned = unplanned := zero_add unplanned
      -- First the failures are written down, then the other rebuilds.
      have hfail : Ledger.Steps w.limit _ _ := Ledger.Steps.fail
        (j.rebuilt failures + (w.waiting + (rest + due))) unplanned w.journal (j.failed failures)
      have hsucceed : Ledger.Steps w.limit _ _ := Ledger.Steps.succeed (w.waiting + (rest + due))
        (j.failed failures + unplanned)
        (w.journal ++ (j.failed failures).map (.failed ·.chain)) (j.rebuilt failures)
      have hsteps := hfail.trans hsucceed
      rw [← hdue, List.append_assoc] at hsteps
      rw [hnone]
      exact hsteps
    | synced failures =>
      simp only [advance, TracedPhase.due_turn, TracedPhase.unplanned_turn, Multiset.coe_nil, zero_add]
      exact w.steps_plan j failures _ _
  | spent queued => cases queued <;> exact .refl

/-! ### Whose chains there are, and what is counted -/

/-- **The chains that have begun** are those of the stores that accepted notifications have put down. -/
def Filed (w : TracedFloor) : Prop :=
  ∀ origin key, .accepted ⟨origin, key⟩ ∈ w.journal ↔
    ∃ c, w.floor.calls[origin]? = some c ∧ c.phase = .accepted ∧ key ∈ c.fresh.members

/-- **What is counted** is what has happened. -/
structure Counted (w : TracedFloor) : Prop where
  retried : w.floor.work.site.synchronizer.stats.retries = w.journal.countP ChainEvent.isRetried
  exhausted : w.floor.work.site.synchronizer.stats.exhausted =
    w.journal.countP ChainEvent.isExhausted

/-- What a worker writes down, and what it counts. -/
structure Written (w : TracedFloor) (events : List ChainEvent) (journal : List ChainEvent)
    (work : WorkSite) : Prop where
  journal : journal = w.journal ++ events
  accepted : ∀ c, .accepted c ∉ events
  retried : work.site.synchronizer.stats.retries =
    w.floor.work.site.synchronizer.stats.retries + events.countP ChainEvent.isRetried
  exhausted : work.site.synchronizer.stats.exhausted =
    w.floor.work.site.synchronizer.stats.exhausted + events.countP ChainEvent.isExhausted

theorem written_plan (w : TracedFloor) (j : TracedJob) (failures : List SyncFailure) :
    ∃ events, Written w events (w.plan j failures).journal
      (w.floor.work.planRetries j.job failures) := by
  have hstats : (w.floor.work.planRetries j.job failures).site.synchronizer.stats = _ :=
    WorkSite.foldl_plan_stats (j.job.attempt + 1) failures w.floor.work.pool
      w.floor.work.site.synchronizer.stats
  have hlength : (j.failed failures).length = failures.length := List.length_map _
  by_cases hlimit : w.floor.work.pool.config.maxRetries < j.job.attempt + 1
  · have hjournal : (w.plan j failures).journal =
        w.journal ++ (j.failed failures).map (.exhausted ·.chain) := by
      unfold plan
      exact congrArg journal (if_pos hlimit)
    rw [if_pos hlimit] at hstats
    refine ⟨_, hjournal, fun c => by simp, ?_, ?_⟩
    · rw [hstats, List.countP_map]
      simp [ChainEvent.isRetried]
    · rw [hstats, List.countP_map]
      simp [Function.comp_def, ChainEvent.isExhausted, hlength]
  · have hjournal : (w.plan j failures).journal =
        w.journal ++ (j.failed failures).map (.retried ·.chain) := by
      unfold plan
      exact congrArg journal (if_neg hlimit)
    rw [if_neg hlimit] at hstats
    refine ⟨_, hjournal, fun c => by simp, ?_, ?_⟩
    · rw [hstats, List.countP_map]
      simp [Function.comp_def, ChainEvent.isRetried, hlength]
    · rw [hstats, List.countP_map]
      simp [Function.comp_def, ChainEvent.isExhausted]

theorem written_advance (r : Rebuilder) (w : TracedFloor) (p : TracedPhase) :
    ∃ events, Written w events (w.advance r p).1.journal
      (p.erase.advanceWith r w.floor.work w.floor.active).1 := by
  have hnothing : Written w [] w.journal w.floor.work :=
    ⟨(List.append_nil _).symm, fun _ => List.not_mem_nil, rfl, rfl⟩
  cases p with
  | looking =>
    simp only [advance, TracedPhase.erase, WorkerPhase.advanceWith, WorkerPhase.advance]
    split <;> exact ⟨[], hnothing⟩
  | counted => exact ⟨[], hnothing.1, hnothing.2, rfl, rfl⟩
  | waiting =>
    simp only [advance, TracedPhase.erase, WorkerPhase.advanceWith, WorkerPhase.advance]
    refine ⟨[], ?_, hnothing.accepted, ?_, ?_⟩
    · split <;> exact hnothing.journal
    · split <;> rfl
    · split <;> rfl
  | holding j => exact ⟨[], hnothing⟩
  | running queued j stage more =>
    cases stage with
    | taken => exact ⟨[], hnothing.1, hnothing.2, rfl, rfl⟩
    | cleared =>
      -- The outcomes of a rebuild are successes and failures; retries are written when they are
      -- planned.
      let events := j.outcomes (r.run w.floor.work.site j.job.keys).1
      have hretried : events.countP ChainEvent.isRetried = 0 := by
        refine List.countP_eq_zero.2 fun e he => ?_
        rcases TracedJob.eq_of_mem_outcomes he with heq | heq <;> rw [heq] <;> exact Bool.false_ne_true
      have hexhausted : events.countP ChainEvent.isExhausted = 0 := by
        refine List.countP_eq_zero.2 fun e he => ?_
        rcases TracedJob.eq_of_mem_outcomes he with heq | heq <;> rw [heq] <;> exact Bool.false_ne_true
      refine ⟨events, rfl, fun c hc => ?_, ?_, ?_⟩
      · rcases TracedJob.eq_of_mem_outcomes hc with heq | heq <;> cases heq
      · rw [hretried]
        exact r.retries w.floor.work.site j.job.keys
      · rw [hexhausted]
        exact r.exhausted w.floor.work.site j.job.keys
    | synced failures => exact w.written_plan j failures
  | spent queued => cases queued <;> exact ⟨[], hnothing⟩

theorem journal_noteCall (w : TracedFloor) (place : Nat) (c : Notice) :
    (w.noteCall place c).journal = w.journal ++
      if c.Sends w.floor.work then c.fresh.members.map fun key => .accepted ⟨place, key⟩ else [] := by
  unfold noteCall
  split
  · rfl
  · exact (List.append_nil _).symm

theorem mem_calls_stepCall {w : SyncFloor} {place : Nat} {c : Notice} (hc : w.calls[place]? = some c)
    {origin : Nat} {key : String} :
    (∃ c', (w.stepCall place c).calls[origin]? = some c' ∧ c'.phase = .accepted ∧
        key ∈ c'.fresh.members) ↔
      (∃ c', w.calls[origin]? = some c' ∧ c'.phase = .accepted ∧ key ∈ c'.fresh.members) ∨
        origin = place ∧ c.Sends w.work ∧ key ∈ c.fresh.members := by
  have hcalls : (w.stepCall place c).calls[origin]? =
      ((w.calls.set place (c.advance w.work).2)[origin]?).map (Notice.noteDrop c.drops) :=
    List.getElem?_map
  rw [hcalls]
  by_cases horigin : origin = place
  · subst horigin
    have hset : (w.calls.set origin (c.advance w.work).2)[origin]? = some (c.advance w.work).2 :=
      List.getElem?_set_self (List.getElem?_eq_some_iff.1 hc).1
    have hstep := c.accepted_advance w.work key
    simp only [hset, hc, Option.map_some, Option.some.injEq, exists_eq_left', Notice.phase_noteDrop,
      Notice.fresh_noteDrop, hstep, or_and_right, true_and]
  · rw [List.getElem?_set_ne (Ne.symm horigin)]
    cases hother : w.calls[origin]? with
    | none => simp [horigin]
    | some c' => simp [horigin]

/-- **Whatever happens, the chains are those of the accepted notifications.** -/
theorem Filed.of_happened (h : w.Filed) (hw : Happened r w w') : w'.Filed := by
  intro origin key
  cases hw with
  | quiet hquiet =>
    refine (h origin key).trans ?_
    rcases hquiet.calls with hcalls | ⟨keys, hcalls⟩
    · rw [hcalls]
    rw [hcalls]
    by_cases hlt : origin < w.floor.calls.length
    · rw [List.getElem?_append_left hlt]
    · -- The new notification is not accepted yet.
      refine iff_of_false (fun ⟨c, hc, _⟩ => hlt (List.getElem?_eq_some_iff.1 hc).1) ?_
      rintro ⟨c, hc, hphase, -⟩
      rw [List.getElem?_append_right (Nat.le_of_not_lt hlt)] at hc
      rw [List.mem_singleton.1 (List.mem_of_getElem? hc)] at hphase
      cases hphase
  | @call place c hc =>
    refine Iff.trans ?_ (mem_calls_stepCall hc).symm
    change _ ∈ (w.noteCall place c).journal ↔ _
    rw [journal_noteCall, List.mem_append, h origin key]
    refine or_congr_right ?_
    split
    · next hsends => simp [hsends, eq_comm, and_comm]
    · next hsends => simp [hsends]
  | @work place p hp =>
    obtain ⟨events, hwritten⟩ := w.written_advance r p
    have hcalls : (w.floor.stepWorkerWith r place p.erase).calls[origin]? =
        w.floor.calls[origin]?.map (Notice.noteSync p.erase.begins) := List.getElem?_map
    change _ ∈ (w.advance r p).1.journal ↔ _
    rw [hwritten.journal, List.mem_append, or_iff_left (hwritten.accepted _), h origin key, hcalls]
    cases w.floor.calls[origin]? with
    | none => simp
    | some c => simp [Notice.noteSync]

/-- **Whatever happens is counted.** -/
theorem Counted.of_happened (h : w.Counted) (hw : Happened r w w') : w'.Counted := by
  cases hw with
  | quiet hquiet => exact ⟨hquiet.retried.trans h.retried, hquiet.exhausted.trans h.exhausted⟩
  | @call place c hc =>
    have hadvanced := c.advancedPool w.floor.work
    have hnone (p : ChainEvent → Bool) (hp : ∀ c, p (.accepted c) = false) :
        (w.noteCall place c).journal.countP p = w.journal.countP p := by
      rw [journal_noteCall]
      split <;> simp [List.countP_append, List.countP_map, Function.comp_def, hp]
    refine ⟨hadvanced.retried.trans (h.retried.trans ?_),
      hadvanced.exhausted.trans (h.exhausted.trans ?_)⟩
    · exact (hnone ChainEvent.isRetried fun _ => rfl).symm
    · exact (hnone ChainEvent.isExhausted fun _ => rfl).symm
  | @work place p hp =>
    obtain ⟨events, hwritten⟩ := w.written_advance r p
    have hjournal : (w.noteWorker r place p).journal = w.journal ++ events := hwritten.journal
    refine ⟨hwritten.retried.trans ?_, hwritten.exhausted.trans ?_⟩
    · change _ = (w.noteWorker r place p).journal.countP _
      rw [hjournal, List.countP_append, h.retried]
    · change _ = (w.noteWorker r place p).journal.countP _
      rw [hjournal, List.countP_append, h.exhausted]

/-! ### Entry by entry -/

/-- **Whatever happens is written down entry by entry.** -/
theorem Filed.steps (h : w.Filed) (hw : Happened r w w') :
    Ledger.Steps w.limit w.ledger w'.ledger := by
  cases hw with
  | quiet _ => exact .refl
  | @call place c hc =>
    by_cases hsends : c.Sends w.floor.work
    · let chains := c.fresh.members.map (Chain.mk place)
      have hnodup : chains.Nodup := c.fresh.nodup_members.map fun key key' heq => by cases heq; rfl
      -- The notification has not been accepted, so none of its chains has begun.
      have hnew : ∀ c' ∈ chains, .accepted c' ∉ w.journal := by
        rintro c' hc' haccepted
        obtain ⟨key, -, rfl⟩ := List.mem_map.1 hc'
        obtain ⟨c₁, hc₁, hphase, -⟩ := (h place key).1 haccepted
        rw [hc, Option.some.injEq] at hc₁
        cases (hsends.1.symm.trans (hc₁ ▸ hphase))
      have hsteps : Ledger.Steps w.limit _ _ :=
        Ledger.Steps.accept w.ledger.due w.ledger.unplanned w.journal hnodup hnew
      have hattempts : chains.map (fun c => Attempt.mk c 0) =
          TracedJob.attempts ⟨place, ⟨c.fresh, 0⟩⟩ := List.map_map
      have haccepted : chains.map ChainEvent.accepted =
          c.fresh.members.map fun key => .accepted ⟨place, key⟩ := List.map_map
      have hnote : w.noteCall place c = _ := if_pos hsends
      rw [hattempts, haccepted] at hsteps
      rw [hnote]
      refine Relation.ReflTransGen.trans hsteps (Ledger.Steps.of_eq ?_)
      simp only [ledger, waiting, List.flatMap_append, List.flatMap_singleton, ← Multiset.coe_add]
      abel
    · have hnote : w.noteCall place c = w := if_neg hsends
      rw [hnote]
      exact .refl
  | @work place p hp =>
    obtain ⟨due, hdue, hdue'⟩ := exists_sum_set (fun p => (p.due : Multiset Attempt)) hp
    obtain ⟨unplanned, hunplanned, hunplanned'⟩ :=
      exists_sum_set (fun p => (p.unplanned : Multiset Attempt)) hp
    have hsteps := steps_advance r w p due unplanned
    rw [← hdue, ← hunplanned, ← hdue', ← hunplanned'] at hsteps
    exact hsteps

/-! ### Any run -/

/-- **What every step keeps.** -/
structure Sound (limit : Nat) (w : TracedFloor) : Prop where
  bounded : w.floor.Bounded limit
  aligned : w.Aligned
  filed : w.Filed
  counted : w.Counted
  balanced : w.ledger.Balanced limit

theorem sound_start (plans : List RebuildPlan) (config : WorkerConfig) (workers : Nat) :
    (start plans config workers).Sound config.maxRetries where
  bounded := SyncFloor.bounded_start plans config workers
  aligned := aligned_start plans config workers
  filed origin key := by simp [start, SyncFloor.start]
  counted := ⟨rfl, rfl⟩
  balanced := ledger_start plans config workers ▸ Ledger.balanced_empty config.maxRetries

variable {limit : Nat}

/-- **Whatever happens.** -/
theorem Sound.act (h : w.Sound limit) (r : Rebuilder) (a : FloorAct) :
    (w.act r a).Sound limit ∧ Ledger.Steps limit w.ledger (w.act r a).ledger := by
  have hhappened := h.aligned.happened r a
  have hlimit : w.limit = limit := h.bounded.pool.config
  have hsteps := hlimit ▸ h.filed.steps hhappened
  exact ⟨⟨h.bounded.actWith r a, h.aligned.of_happened hhappened, h.filed.of_happened hhappened,
    h.counted.of_happened hhappened, h.balanced.steps hsteps⟩, hsteps⟩

theorem Sound.run (h : w.Sound limit) (acts : List (Rebuilder × FloorAct)) :
    (w.run acts).Sound limit ∧ Ledger.Steps limit w.ledger (w.run acts).ledger := by
  induction acts generalizing w with
  | nil => exact ⟨h, .refl⟩
  | cons a acts ih =>
    obtain ⟨hact, hsteps⟩ := h.act a.1 a.2
    obtain ⟨hrun, hmore⟩ := ih hact
    exact ⟨hrun, hsteps.trans hmore⟩

/-- **How the stores of accepted notifications are retried.**  Callers and workers make their steps in
any order, and rebuilds succeed or fail as they like.  Then each retry that waits has a number from 1 to
the last one, and no number is too large for a machine word.  For each accepted notification and each
store that it has put down there is at most one rebuild more than there are retries; after a success
nothing of it is due, and nothing will happen to it any more; if all rebuilds have failed, and the last
failure has been dealt with, all retries were used and the store was given up once.  Over all, each
failure was retried or given up, but for those that a worker is about to deal with. -/
theorem retries_bounded_and_counted (plans : List RebuildPlan) {config : WorkerConfig}
    (hmax : config.maxRetries < 2 ^ (32 : Nat) - 1) (workers : Nat)
    (acts : List (Rebuilder × FloorAct)) :
    let w := (start plans config workers).run acts
    let stats := w.floor.work.site.synchronizer.stats
    (w.Aligned ∧ w.Counted) ∧
    (∀ entry ∈ w.floor.work.pool.retries, 1 ≤ entry.attempt ∧ entry.attempt ≤ config.maxRetries) ∧
    (∀ job, (job ∈ w.floor.work.pool.queue ∨ ∃ p ∈ w.floor.workers, job ∈ p.jobs) →
      job.attempt + 1 < 2 ^ (32 : Nat)) ∧
    (∀ place c key, w.floor.calls[place]? = some c → c.phase = .accepted → key ∈ c.fresh.members →
      let chain : Chain := ⟨place, key⟩
      .accepted chain ∈ w.journal ∧
      w.journal.count (.rebuilt chain) + w.journal.count (.failed chain) ≤ 1 + config.maxRetries ∧
      (.rebuilt chain ∈ w.journal → ∀ later, (w.run later).ledger.Ended chain ∧
        (w.run later).ledger.eventsOf chain = w.ledger.eventsOf chain) ∧
      (w.journal.count (.failed chain) = 1 + config.maxRetries →
        (∀ a ∈ w.ledger.unplanned, a.chain ≠ chain) →
        w.journal.count (.retried chain) = config.maxRetries ∧
          w.journal.count (.exhausted chain) = 1)) ∧
    w.journal.countP ChainEvent.isFailed =
      stats.retries + stats.exhausted + w.ledger.unplanned.card := by
  intro w stats
  have h : w.Sound config.maxRetries := ((sound_start plans config workers).run acts).1
  -- All parts are read off the invariant; those about a chain off its books, which are balanced.
  refine ⟨⟨h.aligned, h.counted⟩, h.bounded.pool.retries, fun job hjob => ?_,
    fun place c key hc haccepted hkey => ⟨?_, ?_, fun hrebuilt later => ?_, ?_⟩, ?_⟩
  · have hle : job.attempt ≤ config.maxRetries := by
      rcases hjob with hjob | ⟨p, hp, hjob⟩
      · exact (h.bounded.pool.queue job hjob).trans_le (Nat.zero_le _)
      · exact h.bounded.jobs p hp job hjob
    omega
  · exact (h.filed place key).2 ⟨c, hc, haccepted, hkey⟩
  · exact h.balanced.rebuilds_le ⟨place, key⟩
  · obtain ⟨hended, -⟩ := h.balanced.of_rebuilt hrebuilt
    exact hended.steps (h.run later).2
  · exact h.balanced.of_failed
  · have htotal : w.journal.countP ChainEvent.isFailed = _ := h.balanced.total
    rw [htotal, h.counted.retried, h.counted.exhausted]
    rfl

/-- Some steps of the only worker. -/
def workerSteps (n : Nat) : List FloorAct := List.replicate n (.work 0)

/-- A store is rebuilt twice while its lines cannot be read, and is given up.  Then another notification
of it comes, and the lines can be read again. -/
def givenUpAndNotifiedAgain : List FloorAct :=
  [.change (.setAvailable false), .note (.ofList ["S1"]), .call 0, .call 0] ++ workerSteps 10 ++
    [.elapse 1000] ++ workerSteps 6 ++
    [.change (.setAvailable true), .note (.ofList ["S1"]), .call 1, .call 1] ++ workerSteps 8

set_option maxRecDepth 20000 in
/-- **The second notification begins anew**: the first one has used up its retry, and the second one has
succeeded at once. -/
theorem retries_of_two_notifications :
    ({ maxRetries := 1 } : WorkerConfig).maxRetries < 2 ^ (32 : Nat) - 1 ∧
    ∃ w, w = (start [lineCount "daily" [.storeId, .date]] { maxRetries := 1 } 1).run
        (givenUpAndNotifiedAgain.map (.own, ·)) ∧
      w.journal.count (.failed ⟨0, "S1"⟩) = 2 ∧ w.journal.count (.retried ⟨0, "S1"⟩) = 1 ∧
      w.journal.count (.exhausted ⟨0, "S1"⟩) = 1 ∧
      .rebuilt ⟨1, "S1"⟩ ∈ w.journal ∧ w.journal.count (.failed ⟨1, "S1"⟩) = 0 ∧
      w.ledger.Ended ⟨1, "S1"⟩ := by
  have hmax : ({ maxRetries := 1 } : WorkerConfig).maxRetries < 2 ^ (32 : Nat) - 1 := by decide
  obtain ⟨-, -, -, hchains, -⟩ := retries_bounded_and_counted [lineCount "daily" [.storeId, .date]]
    hmax 1 (givenUpAndNotifiedAgain.map (.own, ·))
  obtain ⟨w, hw, ⟨c, hc, hfirst⟩, ⟨c', hc', hsecond⟩, hfailed, hunplanned, hrebuilt, hnone⟩ :
      ∃ w : TracedFloor, w = (start [lineCount "daily" [.storeId, .date]] { maxRetries := 1 } 1).run
          (givenUpAndNotifiedAgain.map (.own, ·)) ∧
        (∃ c, w.floor.calls[0]? = some c ∧ c.phase = .accepted ∧ "S1" ∈ c.fresh.members) ∧
        (∃ c, w.floor.calls[1]? = some c ∧ c.phase = .accepted ∧ "S1" ∈ c.fresh.members) ∧
        w.journal.count (.failed ⟨0, "S1"⟩) = 2 ∧
        (∀ a ∈ w.ledger.unplanned, a.chain ≠ ⟨0, "S1"⟩) ∧
        .rebuilt ⟨1, "S1"⟩ ∈ w.journal ∧ w.journal.count (.failed ⟨1, "S1"⟩) = 0 :=
    ⟨_, rfl, ⟨_, rfl, by decide +kernel⟩, ⟨_, rfl, by decide +kernel⟩, by decide +kernel⟩
  rw [← hw] at hchains
  obtain ⟨-, -, -, hgivenUp⟩ := hchains 0 c "S1" hc hfirst.1 hfirst.2
  obtain ⟨-, -, hended, -⟩ := hchains 1 c' "S1" hc' hsecond.1 hsecond.2
  obtain ⟨hretried, hexhausted⟩ := hgivenUp hfailed hunplanned
  exact ⟨hmax, w, hw, hfailed, hretried, hexhausted, hrebuilt, hnone, (hended hrebuilt []).1⟩

end TracedFloor

end RetailReport
