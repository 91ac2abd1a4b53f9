import RetailReport.Proofs.Sync.Interleaved

/-!
# Notifications that are accepted

A notification is accepted if its job was queued, or if all its stores were pending.  A store that is
pending is in a queued job, or in one that a worker has taken and not taken off yet, or some caller has
put it down and not queued its job.  That caller may find the queue full; it takes the store off again
and is told so, but whoever has relied on it in the meantime is not.

## Main definitions

* `SyncFloor.Queued`, `SyncFloor.InHand`, `SyncFloor.Sending`: where a store is.
* `SyncFloor.Covered`: a store that nobody has to worry about.
* `SyncFloor.Careful`: what every step keeps.

## Main results

* `WorkerPhase.advanced`: what a step of a worker can do.
* `SyncFloor.Careful.act`: one step; `SyncFloor.careful_run`: any number of them.
* `SyncFloor.covered_or_dropped`: **what becomes of a store whose notification was accepted**.
* `SyncFloor.not_covered_of_folded`: a store that is lost.
-/

namespace RetailReport

/-! ### Steps of a worker -/

/-- **What a step of a worker can do** to jobs and to the stores that are pending. -/
structure WorkerPhase.Advanced (w : WorkSite) (p : WorkerPhase) (w' : WorkSite) (p' : WorkerPhase) :
    Prop where
  /-- A queued job stays in the queue, or the worker takes it. -/
  queue : ∀ job ∈ w.pool.queue, job ∈ w'.pool.queue ∨ job ∈ p'.uncleared
  /-- No store becomes pending. -/
  pending : ∀ key ∈ w'.pool.pending.members, key ∈ w.pool.pending.members
  /-- The stores of a job are taken off all together. -/
  uncleared : ∀ job ∈ p.uncleared, job ∈ p'.uncleared ∨
    ∀ key ∈ w'.pool.pending.members, key ∉ job.keys.members
  /-- A job is not put aside before its stores are synchronised. -/
  unsynced : ∀ job ∈ p.unsynced, job ∈ p'.unsynced ∨ job.keys = p.begins

namespace WorkSite

/-- Only retries come from planning them. -/
theorem planRetries_pool (w : WorkSite) (job : SyncJob) (failures : List SyncFailure) :
    (w.planRetries job failures).pool.queue = w.pool.queue ∧
      (w.planRetries job failures).pool.pending = w.pool.pending := by
  have hpool : (w.planRetries job failures).pool = _ := foldl_plan (job.attempt + 1) failures
    w.pool w.site.synchronizer.stats
  rw [hpool]
  split <;> exact ⟨rfl, rfl⟩

end WorkSite

namespace WorkerPhase

theorem uncleared_turn (queued : Bool) (jobs : List SyncJob) : (turn queued jobs).uncleared = jobs := by
  cases jobs <;> rfl

theorem unsynced_turn (queued : Bool) (jobs : List SyncJob) : (turn queued jobs).unsynced = jobs := by
  cases jobs <;> rfl

/-- Before the stores of a job are taken off, none of them is synchronised. -/
theorem mem_unsynced_of_mem_uncleared {p : WorkerPhase} {job : SyncJob} (h : job ∈ p.uncleared) :
    job ∈ p.unsynced := by
  cases p with
  | running queued job' stage more =>
    cases stage with
    | taken => exact h
    | cleared => exact List.mem_cons_of_mem _ h
    | synced failures => exact h
  | _ => exact h

theorem advanced (w : WorkSite) (active : Nat) (p : WorkerPhase) :
    Advanced w p (p.advance w active).1 (p.advance w active).2.2 := by
  cases p with
  | looking =>
    simp only [advance]
    split <;> exact ⟨fun _ h => .inl h, fun _ h => h, nofun, nofun⟩
  | counted => exact ⟨fun _ h => .inl h, fun _ h => h, nofun, nofun⟩
  | waiting =>
    simp only [advance]
    split
    · next job pool htake =>
      unfold WorkerPool.takeJob? at htake
      split at htake
      · cases htake
      next hqueue =>
      cases htake
      refine ⟨fun job' h => ?_, fun _ h => h, nofun, nofun⟩
      rw [hqueue] at h
      rcases List.mem_cons.1 h with rfl | h
      · exact .inr List.mem_cons_self
      · exact .inl h
    · exact ⟨fun _ h => .inl h, fun _ h => h, nofun, nofun⟩
  | holding job => exact ⟨fun _ h => .inl h, fun _ h => h, fun _ h => .inl h, fun _ h => .inl h⟩
  | running queued job stage more =>
    cases stage with
    | taken =>
      refine ⟨fun _ h => .inl h, fun key h => (WorkSite.mem_removePending.1 h).1, fun job' h => ?_,
        fun _ h => .inl h⟩
      rcases List.mem_cons.1 h with rfl | h
      · exact .inr fun key hkey => (WorkSite.mem_removePending.1 hkey).2
      · exact .inl h
    | cleared =>
      refine ⟨fun _ h => .inl h, fun _ h => h, fun _ h => .inl h, fun job' h => ?_⟩
      rcases List.mem_cons.1 h with rfl | h
      · exact .inr rfl
      · exact .inl h
    | synced failures =>
      obtain ⟨hqueue, hpending⟩ := w.planRetries_pool job failures
      refine ⟨fun _ h => .inl (hqueue ▸ h), fun _ h => hpending ▸ h, fun _ h => .inl ?_,
        fun _ h => .inl ?_⟩
      · exact (uncleared_turn queued more).symm ▸ h
      · exact (unsynced_turn queued more).symm ▸ h
  | spent queued => exact ⟨fun _ h => .inl h, fun _ h => h, nofun, nofun⟩

end WorkerPhase

/-! ### Steps of a caller -/

namespace Notice

@[simp] theorem keys_noteDrop (keys : KeySet String) (c : Notice) :
    (c.noteDrop keys).keys = c.keys := by
  unfold noteDrop
  split <;> rfl

@[simp] theorem phase_noteDrop (keys : KeySet String) (c : Notice) :
    (c.noteDrop keys).phase = c.phase := by
  unfold noteDrop
  split <;> rfl

@[simp] theorem fresh_noteDrop (keys : KeySet String) (c : Notice) :
    (c.noteDrop keys).fresh = c.fresh := by
  unfold noteDrop
  split <;> rfl

@[simp] theorem synced_noteDrop (keys : KeySet String) (c : Notice) :
    (c.noteDrop keys).synced = c.synced := by
  unfold noteDrop
  split <;> rfl

theorem mem_dropped_noteDrop {keys : KeySet String} {c : Notice} {key : String} :
    key ∈ (c.noteDrop keys).dropped.members ↔
      key ∈ c.dropped.members ∨ c.phase ≠ .noted ∧ key ∈ keys.members := by
  unfold noteDrop
  split
  · next hnoted => exact (or_iff_left fun h => h.1 hnoted).symm
  · next hnoted =>
    rw [KeySet.mem_union]
    exact or_congr_right (and_iff_right hnoted).symm

/-- A caller is about to queue a job, or to take its stores off again. -/
def IsSending (c : Notice) : Prop := c.phase = .marked ∨ c.phase = .refused

instance (c : Notice) : Decidable c.IsSending :=
  inferInstanceAs (Decidable (_ ∨ _))

/-- **What a step of a caller can do** to jobs and to the stores that are pending. -/
structure Advanced (w : WorkSite) (c : Notice) (w' : WorkSite) (c' : Notice) : Prop where
  /-- No job leaves the queue. -/
  queue : ∀ job ∈ w.pool.queue, job ∈ w'.pool.queue
  /-- The stores are the same. -/
  keys : c'.keys = c.keys
  synced : c'.synced = c.synced
  dropped : c'.dropped = c.dropped
  /-- The first step is taken once. -/
  noted : c'.phase ≠ .noted
  /-- It puts down all stores that are not pending. -/
  folded : c.phase = .noted → ∀ key ∈ c.keys.members, key ∈ c'.fresh.members ∨
    key ∈ w.pool.pending.members
  /-- From then on no more are put down. -/
  fresh : c.phase ≠ .noted → c'.fresh = c.fresh
  /-- What was put down is queued at last, or taken off. -/
  sending : c.IsSending → ∀ key ∈ c.fresh.members, c'.IsSending ∨
    (∃ job ∈ w'.pool.queue, key ∈ job.keys.members) ∨ key ∈ c.drops.members
  /-- A notification is accepted when all that it has put down is queued. -/
  accepted : c'.phase = .accepted → c.phase = .accepted ∨
    ∀ key ∈ c'.fresh.members, ∃ job ∈ w'.pool.queue, key ∈ job.keys.members
  /-- What becomes pending was put down. -/
  pending : ∀ key ∈ w'.pool.pending.members, key ∈ w.pool.pending.members ∧ key ∉ c.drops.members ∨
    c'.IsSending ∧ key ∈ c'.fresh.members
  /-- What is taken off was put down, and the notification is rejected. -/
  drops : ∀ key ∈ c.drops.members, c'.phase = .rejected ∧ key ∈ c'.fresh.members
  /-- It stays so. -/
  rejected : c.phase = .rejected → c'.phase = .rejected

/-- A step that only goes on to another phase. -/
theorem Advanced.of_phase {w : WorkSite} {c : Notice} {phase : NoticePhase} (hnoted : c.phase ≠ .noted)
    (hnext : phase ≠ .noted) (hdrops : c.drops = .empty) (hsending : c.IsSending → phase = .refused)
    (haccepted : phase = .accepted → c.phase = .accepted)
    (hrejected : c.phase = .rejected → phase = .rejected) : Advanced w c w { c with phase } where
  queue _ h := h
  keys := rfl
  synced := rfl
  dropped := rfl
  noted := hnext
  folded h := absurd h hnoted
  fresh _ := rfl
  sending h _ _ := .inl (.inr (hsending h))
  accepted h := .inl (haccepted h)
  pending _ h := .inl ⟨h, by rw [hdrops]; exact List.not_mem_nil⟩
  drops _ h := by
    rw [hdrops] at h
    exact absurd h List.not_mem_nil
  rejected := hrejected

theorem drops_of_ne_refused {c : Notice} (h : c.phase ≠ .refused) : c.drops = .empty := if_neg h

/-- The first step puts stores down. -/
theorem advanced_of_noted (w : WorkSite) {c : Notice} (hphase : c.phase = .noted) :
    Advanced w c (c.advance w).1 (c.advance w).2 := by
  have hdrops : c.drops = .empty := drops_of_ne_refused (by simp [hphase])
  simp only [advance, hphase]
  refine ⟨fun _ h => h, rfl, rfl, rfl, ?_, fun _ key hkey => ?_, fun h => absurd hphase h,
    fun h => ?_, fun h => .inr fun key hkey => ?_, fun key h => ?_, fun key h => ?_, fun h => ?_⟩
  · show (if _ then _ else _) ≠ _
    split <;> decide
  · by_cases hpending : key ∈ w.pool.pending.members
    · exact .inr hpending
    · refine .inl (KeySet.mem_filter.2 ⟨hkey, ?_⟩)
      rw [Bool.not_eq_true', Bool.eq_false_iff]
      exact fun hc => hpending (KeySet.contains_iff.1 hc)
  · rcases h with h | h <;> cases hphase.symm.trans h
  · -- Nothing is queued, so nothing was put down.
    change (if _ then _ else _) = _ at h
    split at h
    · next hempty => exact absurd hkey (KeySet.isEmpty_iff.1 hempty key)
    · cases h
  · rcases KeySet.mem_union.1 h with h | h
    · exact .inl ⟨h, by rw [hdrops]; exact List.not_mem_nil⟩
    · refine .inr ⟨.inl (if_neg fun hempty => ?_), h⟩
      exact KeySet.isEmpty_iff.1 hempty key h
  · rw [hdrops] at h
    exact absurd h List.not_mem_nil
  · cases hphase.symm.trans h

theorem advanced (w : WorkSite) (c : Notice) : Advanced w c (c.advance w).1 (c.advance w).2 := by
  cases hphase : c.phase with
  | noted => exact advanced_of_noted w hphase
  | marked =>
    have hdrops : c.drops = .empty := drops_of_ne_refused (by simp [hphase])
    simp only [advance, hphase]
    split
    · next pool hqueue =>
      unfold WorkerPool.enqueue? at hqueue
      split at hqueue
      · cases hqueue
        have hsent : ∀ key ∈ c.fresh.members,
            ∃ job ∈ w.pool.queue ++ [⟨c.fresh, 0⟩], key ∈ job.keys.members :=
          fun key hkey => ⟨_, List.mem_append_right _ List.mem_cons_self, hkey⟩
        refine ⟨fun _ h => List.mem_append_left _ h, rfl, rfl, rfl, by simp, fun h => ?_, fun _ => rfl,
          fun _ key hkey => .inr (.inl (hsent key hkey)), fun _ => .inr hsent,
          fun key h => .inl ⟨h, by rw [hdrops]; exact List.not_mem_nil⟩, fun key h => ?_, fun h => ?_⟩
        · cases hphase.symm.trans h
        · rw [hdrops] at h
          exact absurd h List.not_mem_nil
        · cases hphase.symm.trans h
      · cases hqueue
    · exact .of_phase (by simp [hphase]) (by decide) hdrops (fun _ => rfl) (fun h => by cases h)
        (by simp [hphase])
  | refused =>
    have hdrops : c.drops = c.fresh := if_pos hphase
    simp only [advance, hphase]
    refine ⟨fun _ h => h, rfl, rfl, rfl, by simp, fun h => ?_, fun _ => rfl,
      fun _ key hkey => .inr (.inr (hdrops ▸ hkey)), fun h => ?_, fun key h => .inl ?_,
      fun key h => ⟨rfl, hdrops ▸ h⟩, fun _ => rfl⟩
    · cases hphase.symm.trans h
    · cases h
    · rw [hdrops]
      exact WorkSite.mem_removePending.1 h
  | accepted =>
    have heq : c.advance w = (w, { c with phase := .accepted }) := by
      simp only [advance, hphase]
      rw [← hphase]
    rw [heq]
    exact .of_phase (by simp [hphase]) (by decide) (drops_of_ne_refused (by simp [hphase]))
      (by simp [IsSending, hphase]) (fun _ => hphase) (by simp [hphase])
  | rejected =>
    have heq : c.advance w = (w, { c with phase := .rejected }) := by
      simp only [advance, hphase]
      rw [← hphase]
    rw [heq]
    exact .of_phase (by simp [hphase]) (by decide) (drops_of_ne_refused (by simp [hphase]))
      (by simp [IsSending, hphase]) (fun h => by cases h) (fun _ => rfl)

end Notice

/-! ### Where a store is -/

namespace SyncFloor

/-- A queued job is for the store. -/
def Queued (w : SyncFloor) (key : String) : Prop :=
  ∃ job ∈ w.work.pool.queue, key ∈ job.keys.members

/-- A worker has taken a job for the store, and its synchronisation has not begun. -/
def InHand (w : SyncFloor) (key : String) : Prop :=
  ∃ p ∈ w.workers, ∃ job ∈ p.unsynced, key ∈ job.keys.members

/-- A caller has put the store down, and has neither queued its job nor taken it off again. -/
def Sending (w : SyncFloor) (key : String) : Prop :=
  ∃ c ∈ w.calls, c.IsSending ∧ key ∈ c.fresh.members

/-- **A store that nobody has to worry about**: a job for it is to come, or its synchronisation has begun
since the change was noted. -/
def Covered (w : SyncFloor) (c : Notice) (key : String) : Prop :=
  w.Queued key ∨ w.InHand key ∨ key ∈ c.synced.members

instance (w : SyncFloor) (key : String) : Decidable (w.Queued key) :=
  inferInstanceAs (Decidable (∃ job ∈ _, _))

instance (w : SyncFloor) (key : String) : Decidable (w.InHand key) :=
  inferInstanceAs (Decidable (∃ p ∈ _, ∃ job ∈ _, _))

instance (w : SyncFloor) (key : String) : Decidable (w.Sending key) :=
  inferInstanceAs (Decidable (∃ c ∈ _, _))

instance (w : SyncFloor) (c : Notice) (key : String) : Decidable (w.Covered c key) :=
  inferInstanceAs (Decidable (_ ∨ _ ∨ _))

/-- **What every step keeps.** -/
structure Careful (w : SyncFloor) : Prop where
  /-- A store that is pending is in a queued job, or in one that was taken and not taken off, or some
  caller is about to queue a job for it. -/
  pending : ∀ key ∈ w.work.pool.pending.members, w.Queued key ∨
    (∃ p ∈ w.workers, ∃ job ∈ p.uncleared, key ∈ job.keys.members) ∨ w.Sending key
  /-- What a caller has queued itself is covered. -/
  queued : ∀ c ∈ w.calls, c.phase = .accepted → ∀ key ∈ c.fresh.members, w.Covered c key
  /-- So is what it has found pending, unless somebody else is about to queue it, or has taken it off. -/
  folded : ∀ c ∈ w.calls, c.phase ≠ .noted → ∀ key ∈ c.keys.members, key ∉ c.fresh.members →
    w.Covered c key ∨ w.Sending key ∨ key ∈ c.dropped.members
  /-- Stores are taken off by callers whose notifications are rejected. -/
  dropped : ∀ c ∈ w.calls, ∀ key ∈ c.dropped.members,
    ∃ c' ∈ w.calls, c'.phase = .rejected ∧ key ∈ c'.fresh.members

variable {w w' : SyncFloor} {c c' : Notice} {key : String}

theorem careful_start (plans : List RebuildPlan) (config : WorkerConfig) (workers : Nat) :
    (start plans config workers).Careful where
  pending _ h := by cases h
  queued _ h := by cases h
  folded _ h := by cases h
  dropped _ h := by cases h

/-- Lines, time and counts do not matter. -/
theorem Careful.congr (h : w.Careful) (hqueue : w'.work.pool.queue = w.work.pool.queue)
    (hpending : w'.work.pool.pending = w.work.pool.pending) (hworkers : w'.workers = w.workers)
    (hcalls : w'.calls = w.calls) : w'.Careful := by
  obtain ⟨pending, queued, folded, dropped⟩ := h
  constructor
  all_goals
    simp only [Covered, Queued, InHand, Sending, hqueue, hpending, hworkers, hcalls] at *
    assumption

/-! ### One step -/

/-- **A step goes forward** if jobs stay where they are until they have begun, and stores that were put
down are queued at last, or taken off. -/
structure Forward (w w' : SyncFloor) : Prop where
  queued : ∀ key, w.Queued key → w'.Queued key ∨ w'.InHand key
  inHand : ∀ key, w.InHand key → w'.InHand key ∨ ∀ c ∈ w'.calls, key ∈ c.synced.members
  sending : ∀ key, w.Sending key → w'.Sending key ∨ w'.Queued key ∨
    ∀ c ∈ w'.calls, c.phase ≠ .noted → key ∈ c.dropped.members

theorem Covered.forward (h : w.Covered c key) (hforward : Forward w w') (hc' : c' ∈ w'.calls)
    (hsynced : key ∈ c.synced.members → key ∈ c'.synced.members) : w'.Covered c' key := by
  rcases h with h | h | h
  · exact (hforward.queued key h).imp_right .inl
  · exact .inr ((hforward.inHand key h).imp_right fun hall => hall c' hc')
  · exact .inr (.inr (hsynced h))

/-- What a caller relies on. -/
theorem Forward.relied (hforward : Forward w w') (hc' : c' ∈ w'.calls) (hphase : c'.phase ≠ .noted)
    (hsynced : key ∈ c.synced.members → key ∈ c'.synced.members)
    (hdropped : key ∈ c.dropped.members → key ∈ c'.dropped.members)
    (h : w.Covered c key ∨ w.Sending key ∨ key ∈ c.dropped.members) :
    w'.Covered c' key ∨ w'.Sending key ∨ key ∈ c'.dropped.members := by
  rcases h with h | h | h
  · exact .inl (h.forward hforward hc' hsynced)
  · rcases hforward.sending key h with hsending | hqueued | hdrop
    · exact .inr (.inl hsending)
    · exact .inl (.inl hqueued)
    · exact .inr (.inr (hdrop c' hc' hphase))
  · exact .inr (.inr (hdropped h))

/-- Of a list in which one member is replaced all others stay. -/
theorem mem_set_or_eq {α : Type} {l : List α} {place : Nat} {a b x : α} (h : l[place]? = some a)
    (hx : x ∈ l) : x ∈ l.set place b ∨ x = a := by
  obtain ⟨other, hother⟩ := List.mem_iff_getElem?.1 hx
  by_cases heq : place = other
  · subst heq
    exact .inr (Option.some.inj (hother.symm.trans h))
  · refine .inl (List.mem_iff_getElem?.2 ⟨other, ?_⟩)
    rw [List.getElem?_set_ne heq, hother]

theorem mem_set_self {α : Type} {l : List α} {place : Nat} {a b : α} (h : l[place]? = some a) :
    b ∈ l.set place b :=
  List.mem_set (List.getElem?_eq_some_iff.1 h).1 b

section Worker

variable {place : Nat} {p : WorkerPhase}

theorem mem_workers_stepWorker (hp : w.workers[place]? = some p) :
    (p.advance w.work w.active).2.2 ∈ (w.stepWorker place p).workers ∧
      ∀ p' ∈ w.workers, p' ∈ (w.stepWorker place p).workers ∨ p' = p :=
  ⟨mem_set_self hp, fun _ hp' => mem_set_or_eq hp hp'⟩

theorem mem_calls_stepWorker (hc : c ∈ w.calls) :
    c.noteSync p.begins ∈ (w.stepWorker place p).calls := List.mem_map_of_mem hc

theorem forward_stepWorker (hp : w.workers[place]? = some p) : Forward w (w.stepWorker place p) := by
  have hadvanced := WorkerPhase.advanced w.work w.active p
  obtain ⟨hself, hworkers⟩ := mem_workers_stepWorker hp
  refine ⟨fun key hkey => ?_, fun key hkey => ?_, fun key hkey => .inl ?_⟩
  · obtain ⟨job, hjob, hkey⟩ := hkey
    rcases hadvanced.queue job hjob with hjob | hjob
    · exact .inl ⟨job, hjob, hkey⟩
    · exact .inr ⟨_, hself, job, WorkerPhase.mem_unsynced_of_mem_uncleared hjob, hkey⟩
  · obtain ⟨p', hp', job, hjob, hkey⟩ := hkey
    rcases hworkers p' hp' with hp' | rfl
    · exact .inl ⟨p', hp', job, hjob, hkey⟩
    · rcases hadvanced.unsynced job hjob with hjob | hbegins
      · exact .inl ⟨_, hself, job, hjob, hkey⟩
      · refine .inr fun c hc => ?_
        obtain ⟨c, -, rfl⟩ := List.mem_map.1 hc
        exact KeySet.mem_union.2 (.inr (hbegins ▸ hkey))
  · obtain ⟨c, hc, hsending, hkey⟩ := hkey
    exact ⟨_, mem_calls_stepWorker hc, hsending, hkey⟩

/-- **A step of a worker.** -/
theorem Careful.stepWorker (h : w.Careful) (hp : w.workers[place]? = some p) :
    (w.stepWorker place p).Careful := by
  have hadvanced := WorkerPhase.advanced w.work w.active p
  have hforward := forward_stepWorker hp
  obtain ⟨hself, hworkers⟩ := mem_workers_stepWorker hp
  have hsynced {c : Notice} {key : String} (hkey : key ∈ c.synced.members) :
      key ∈ (c.noteSync p.begins).synced.members := KeySet.mem_union.2 (.inl hkey)
  constructor
  · -- A key leaves the pending ones with the job that carries it, and not before.
    intro key hkey
    rcases h.pending key (hadvanced.pending key hkey) with hqueued | hcarried | hsending
    · obtain ⟨job, hjob, hin⟩ := hqueued
      rcases hadvanced.queue job hjob with hjob | hjob
      · exact .inl ⟨job, hjob, hin⟩
      · exact .inr (.inl ⟨_, hself, job, hjob, hin⟩)
    · obtain ⟨p', hp', job, hjob, hin⟩ := hcarried
      rcases hworkers p' hp' with hp' | rfl
      · exact .inr (.inl ⟨p', hp', job, hjob, hin⟩)
      · rcases hadvanced.uncleared job hjob with hjob | hoff
        · exact .inr (.inl ⟨_, hself, job, hjob, hin⟩)
        · exact absurd hin (hoff key hkey)
    · obtain ⟨c, hc, hsending, hin⟩ := hsending
      exact .inr (.inr ⟨_, mem_calls_stepWorker hc, hsending, hin⟩)
  · intro c hc hphase key hkey
    obtain ⟨c, hc', rfl⟩ := List.mem_map.1 hc
    exact (h.queued c hc' hphase key hkey).forward hforward hc hsynced
  · intro c hc hphase key hkey hfresh
    obtain ⟨c, hc', rfl⟩ := List.mem_map.1 hc
    exact hforward.relied hc hphase hsynced id (h.folded c hc' hphase key hkey hfresh)
  · intro c hc key hkey
    obtain ⟨c, hc', rfl⟩ := List.mem_map.1 hc
    obtain ⟨c', hc'', hrejected, hfresh⟩ := h.dropped c hc' key hkey
    exact ⟨_, mem_calls_stepWorker hc'', hrejected, hfresh⟩

end Worker

/-- **A caller has made a step**, and all callers have noted what it has taken off. -/
structure CallStep (w : SyncFloor) (c : Notice) (w' : SyncFloor) (next : Notice) : Prop where
  mem : c ∈ w.calls
  advanced : Notice.Advanced w.work c w'.work next
  workers : w'.workers = w.workers
  mem_next : next.noteDrop c.drops ∈ w'.calls
  /-- The others are still there. -/
  others : ∀ c₁ ∈ w.calls, c₁.noteDrop c.drops ∈ w'.calls ∨ c₁ = c
  /-- There is nobody else. -/
  calls : ∀ c₁ ∈ w'.calls, ∃ c₂, c₁ = c₂.noteDrop c.drops ∧ (c₂ = next ∨ c₂ ∈ w.calls)

theorem callStep {place : Nat} (hc : w.calls[place]? = some c) :
    CallStep w c (w.stepCall place c) (c.advance w.work).2 where
  mem := List.mem_iff_getElem?.2 ⟨place, hc⟩
  advanced := Notice.advanced w.work c
  workers := rfl
  mem_next := List.mem_map_of_mem (mem_set_self hc)
  others c₁ hc₁ := by
    have hset : c₁ ∈ w.calls.set place (c.advance w.work).2 ∨ c₁ = c := mem_set_or_eq hc hc₁
    exact hset.imp_left List.mem_map_of_mem
  calls c₁ hc₁ := by
    obtain ⟨c₂, hc₂, rfl⟩ := List.mem_map.1 hc₁
    exact ⟨c₂, rfl, (List.mem_or_eq_of_mem_set hc₂).symm⟩

namespace CallStep

variable {next c₁ c₂ : Notice}

theorem queued (hstep : CallStep w c w' next) (h : w.Queued key) : w'.Queued key :=
  h.imp fun job hjob => ⟨hstep.advanced.queue job hjob.1, hjob.2⟩

/-- Whoever is about to queue a store stays so, or has queued it, or takes it off. -/
theorem sending (hstep : CallStep w c w' next) (h : w.Sending key) :
    w'.Sending key ∨ w'.Queued key ∨ key ∈ c.drops.members := by
  obtain ⟨c₁, hc₁, hphase, hfresh⟩ := h
  rcases hstep.others c₁ hc₁ with hc₁ | rfl
  · exact .inl ⟨_, hc₁, by simpa [Notice.IsSending] using hphase, by simpa using hfresh⟩
  · have hnoted : c₁.phase ≠ .noted := by
      rcases hphase with hphase | hphase <;> simp [hphase]
    refine (hstep.advanced.sending hphase key hfresh).imp_left fun hnext => ?_
    refine ⟨_, hstep.mem_next, by simpa [Notice.IsSending] using hnext, ?_⟩
    simpa [hstep.advanced.fresh hnoted] using hfresh

theorem forward (hstep : CallStep w c w' next) : Forward w w' := by
  refine ⟨fun key h => .inl (hstep.queued h), fun key h => .inl ?_, fun key h => ?_⟩
  · unfold InHand
    rw [hstep.workers]
    exact h
  · refine (hstep.sending h).imp_right (.imp_right fun hdrops c₁ hc₁ hphase => ?_)
    obtain ⟨c₂, rfl, -⟩ := hstep.calls c₁ hc₁
    rw [Notice.phase_noteDrop] at hphase
    exact Notice.mem_dropped_noteDrop.2 (.inr ⟨hphase, hdrops⟩)

theorem covered (hstep : CallStep w c w' next) (hc₂ : c₂.noteDrop c.drops ∈ w'.calls)
    (hsynced : c₂.synced = c₁.synced) (h : w.Covered c₁ key) :
    w'.Covered (c₂.noteDrop c.drops) key :=
  h.forward hstep.forward hc₂ (by simp [hsynced])

theorem relied (hstep : CallStep w c w' next) (hc₂ : c₂.noteDrop c.drops ∈ w'.calls)
    (hphase : c₂.phase ≠ .noted) (hsynced : c₂.synced = c₁.synced) (hdropped : c₂.dropped = c₁.dropped)
    (h : w.Covered c₁ key ∨ w.Sending key ∨ key ∈ c₁.dropped.members) :
    w'.Covered (c₂.noteDrop c.drops) key ∨ w'.Sending key ∨
      key ∈ (c₂.noteDrop c.drops).dropped.members :=
  hstep.forward.relied hc₂ (by simpa using hphase) (by simp [hsynced])
    (fun h => Notice.mem_dropped_noteDrop.2 (.inl (hdropped ▸ h))) h

/-- A notification that was rejected is still there. -/
theorem exists_rejected (hstep : CallStep w c w' next)
    (h : ∃ c' ∈ w.calls, c'.phase = .rejected ∧ key ∈ c'.fresh.members) :
    ∃ c' ∈ w'.calls, c'.phase = .rejected ∧ key ∈ c'.fresh.members := by
  obtain ⟨c', hc', hrejected, hfresh⟩ := h
  rcases hstep.others c' hc' with hc' | rfl
  · exact ⟨_, hc', by simpa using hrejected, by simpa using hfresh⟩
  · refine ⟨_, hstep.mem_next, by simpa using hstep.advanced.rejected hrejected, ?_⟩
    simpa [hstep.advanced.fresh (by simp [hrejected] : c'.phase ≠ .noted)] using hfresh

end CallStep

/-- What a caller finds pending is covered, or somebody is about to queue it. -/
theorem Careful.relied_of_pending (h : w.Careful) (hkey : key ∈ w.work.pool.pending.members) :
    w.Covered c key ∨ w.Sending key ∨ key ∈ c.dropped.members := by
  rcases h.pending key hkey with hqueued | ⟨p, hp, job, hjob, hin⟩ | hsending
  · exact .inl (.inl hqueued)
  · exact .inl (.inr (.inl ⟨p, hp, job, WorkerPhase.mem_unsynced_of_mem_uncleared hjob, hin⟩))
  · exact .inr (.inl hsending)

/-- **A step of a caller.** -/
theorem Careful.callStep (h : w.Careful) {next : Notice} (hstep : CallStep w c w' next) :
    w'.Careful := by
  have hadvanced := hstep.advanced
  constructor
  · intro key hkey
    rcases hadvanced.pending key hkey with ⟨hkey, hkept⟩ | ⟨hphase, hfresh⟩
    · rcases h.pending key hkey with hold | hcarried | hold
      · exact .inl (hstep.queued hold)
      · exact .inr (.inl (hstep.workers ▸ hcarried))
      · rcases hstep.sending hold with hnew | hnew | hdrop
        · exact .inr (.inr hnew)
        · exact .inl hnew
        · exact absurd hdrop hkept
    · exact .inr (.inr ⟨_, hstep.mem_next, by simpa [Notice.IsSending] using hphase,
        by simpa using hfresh⟩)
  · intro c₁ hc₁ hphase key hkey
    obtain ⟨c₂, rfl, rfl | hc₂⟩ := hstep.calls c₁ hc₁
    · rw [Notice.phase_noteDrop] at hphase
      rw [Notice.fresh_noteDrop] at hkey
      rcases hadvanced.accepted hphase with haccepted | hsent
      · rw [hadvanced.fresh (by simp [haccepted])] at hkey
        exact hstep.covered hc₁ hadvanced.synced (h.queued c hstep.mem haccepted key hkey)
      · exact .inl (hsent key hkey)
    · refine hstep.covered hc₁ rfl (h.queued c₂ hc₂ ?_ key ?_)
      · simpa using hphase
      · simpa using hkey
  · intro c₁ hc₁ hphase key hkey hfresh
    obtain ⟨c₂, rfl, rfl | hc₂⟩ := hstep.calls c₁ hc₁
    · rw [Notice.keys_noteDrop, hadvanced.keys] at hkey
      rw [Notice.fresh_noteDrop] at hfresh
      refine hstep.relied hc₁ hadvanced.noted hadvanced.synced hadvanced.dropped ?_
      by_cases hnoted : c.phase = .noted
      · -- The store was pending, and whoever has put it down is relied on from here.
        exact h.relied_of_pending ((hadvanced.folded hnoted key hkey).resolve_left hfresh)
      · rw [hadvanced.fresh hnoted] at hfresh
        exact h.folded c hstep.mem hnoted key hkey hfresh
    · rw [Notice.phase_noteDrop] at hphase
      rw [Notice.keys_noteDrop] at hkey
      rw [Notice.fresh_noteDrop] at hfresh
      exact hstep.relied hc₁ hphase rfl rfl (h.folded c₂ hc₂ hphase key hkey hfresh)
  · intro c₁ hc₁ key hkey
    obtain ⟨c₂, rfl, hc₂⟩ := hstep.calls c₁ hc₁
    rcases Notice.mem_dropped_noteDrop.1 hkey with hkey | ⟨-, hkey⟩
    · refine hstep.exists_rejected ?_
      rcases hc₂ with rfl | hc₂
      · exact h.dropped c hstep.mem key (hadvanced.dropped ▸ hkey)
      · exact h.dropped c₂ hc₂ key hkey
    · obtain ⟨hrejected, hfresh⟩ := hadvanced.drops key hkey
      exact ⟨_, hstep.mem_next, by simpa using hrejected, by simpa using hfresh⟩

/-- **A caller takes note of a change.** -/
theorem Careful.note (h : w.Careful) (keys : KeySet String) :
    Careful { w with work := w.work.recordMutation keys, calls := w.calls ++ [{ keys }] } := by
  have hforward : Forward w
      { w with work := w.work.recordMutation keys, calls := w.calls ++ [{ keys }] } :=
    ⟨fun _ hkey => .inl hkey, fun _ hkey => .inl hkey, fun _ hkey => .inl
      (hkey.imp fun c hc => ⟨List.mem_append_left _ hc.1, hc.2⟩)⟩
  constructor
  · intro key hkey
    refine (h.pending key hkey).imp_right (.imp_right fun hsending => ?_)
    exact hsending.imp fun c hc => ⟨List.mem_append_left _ hc.1, hc.2⟩
  · intro c hc hphase key hkey
    rcases List.mem_append.1 hc with hc' | hc'
    · exact (h.queued c hc' hphase key hkey).forward hforward hc id
    · rw [List.mem_singleton.1 hc'] at hphase
      cases hphase
  · intro c hc hphase key hkey hfresh
    rcases List.mem_append.1 hc with hc' | hc'
    · exact hforward.relied hc hphase id id (h.folded c hc' hphase key hkey hfresh)
    · rw [List.mem_singleton.1 hc'] at hphase
      exact absurd rfl hphase
  · intro c hc key hkey
    rcases List.mem_append.1 hc with hc' | hc'
    · obtain ⟨c', hc', hrejected⟩ := h.dropped c hc' key hkey
      exact ⟨c', List.mem_append_left _ hc', hrejected⟩
    · rw [List.mem_singleton.1 hc'] at hkey
      cases hkey

/-- **Whatever happens.** -/
theorem Careful.act (h : w.Careful) (a : FloorAct) : (w.act a).Careful := by
  cases a with
  | change op => exact h.congr rfl rfl rfl rfl
  | note keys =>
    simp only [SyncFloor.act]
    split
    · exact h
    · exact h.note keys
  | call place =>
    simp only [SyncFloor.act]
    split
    · next hc => exact h.callStep (SyncFloor.callStep hc)
    · exact h
  | work place =>
    simp only [SyncFloor.act]
    split
    · next hp => exact h.stepWorker hp
    · exact h
  | elapse ms => exact h.congr rfl rfl rfl rfl
  | stop => exact h.congr rfl rfl rfl rfl

theorem careful_run (h : w.Careful) (acts : List FloorAct) : (w.run acts).Careful := by
  induction acts generalizing w with
  | nil => exact h
  | cons a acts ih => exact ih (h.act a)

/-! ### What is accepted -/

/-- **What becomes of a store whose notification was accepted**: a job for it is queued or a worker has
taken it, or a synchronisation of it has begun since the change was noted.  Else the store was pending
when the caller came, and whoever had put it down has not queued its job yet, or was rejected since and
has taken the store off again. -/
theorem covered_or_dropped (plans : List RebuildPlan) (config : WorkerConfig) (workers : Nat)
    (acts : List FloorAct) (hc : c ∈ ((start plans config workers).run acts).calls)
    (haccepted : c.phase = .accepted) (hkey : key ∈ c.keys.members) :
    ((start plans config workers).run acts).Covered c key ∨
      key ∉ c.fresh.members ∧
        (((start plans config workers).run acts).Sending key ∨
          key ∈ c.dropped.members ∧ ∃ c' ∈ ((start plans config workers).run acts).calls,
            c'.phase = .rejected ∧ key ∈ c'.fresh.members) := by
  have h := careful_run (careful_start plans config workers) acts
  -- A key that the call has marked itself is in its job; any other one was folded into a job of
  -- another call, which may yet be refused.
  by_cases hfresh : key ∈ c.fresh.members
  · exact .inl (h.queued c hc haccepted key hfresh)
  · rcases h.folded c hc (by simp [haccepted]) key hkey hfresh with hcovered | hsending | hdropped
    · exact .inl hcovered
    · exact .inr ⟨hfresh, .inl hsending⟩
    · exact .inr ⟨hfresh, .inr ⟨hdropped, h.dropped c hc key hdropped⟩⟩

set_option maxRecDepth 20000 in
/-- A notification relies on a job that is queued after it was accepted. -/
theorem covered_after_folding :
    ∃ w c, w = (start [] {} 1).run [.note (.ofList ["S1"]), .call 0, .note (.ofList ["S1"]), .call 1,
        .call 0] ∧
      c ∈ w.calls ∧ c.phase = .accepted ∧ "S1" ∈ c.keys.members ∧ "S1" ∉ c.fresh.members ∧
      w.Covered c "S1" := by
  obtain ⟨w, hw, hc, hsending, hrejected⟩ : ∃ w : SyncFloor,
      w = (start [] {} 1).run [.note (.ofList ["S1"]), .call 0, .note (.ofList ["S1"]), .call 1,
        .call 0] ∧
      (∃ c ∈ w.calls, c.phase = .accepted ∧ "S1" ∈ c.keys.members ∧ "S1" ∉ c.fresh.members) ∧
      ¬w.Sending "S1" ∧ ∀ c ∈ w.calls, c.phase ≠ .rejected := ⟨_, rfl, by decide +kernel⟩
  obtain ⟨c, hc, haccepted, hkey, hfresh⟩ := hc
  refine ⟨w, c, hw, hc, haccepted, hkey, hfresh, ?_⟩
  subst hw
  rcases covered_or_dropped [] {} 1 _ hc haccepted hkey with hcovered | ⟨-, hnow | ⟨-, c', hc', h, -⟩⟩
  · exact hcovered
  · exact absurd hnow hsending
  · exact absurd h (hrejected c' hc')

/-- The queue has room for one job.  A caller has put down the second store and not tried to queue its
job yet when another caller comes with a line of this store; it is told at once that all is well.  Then
the first caller finds the queue full, and takes the store off again.  At last the worker runs the only
job that there is. -/
def overtaken : List FloorAct := [
  .change (.append [sampleLine "S1" "r1"]), .note (.ofList ["S1"]), .call 0, .call 0,
  .change (.append [sampleLine "S2" "r2"]), .note (.ofList ["S2"]), .call 1,
  .change (.append [sampleLine "S2" "r3"]), .note (.ofList ["S2"]), .call 2,
  .call 1, .call 1,
  .work 0, .work 0, .work 0, .work 0, .work 0, .work 0, .work 0, .work 0, .work 0]

set_option maxRecDepth 20000 in
/-- **An accepted notification is lost**: nothing is left to do, and its store was not synchronised. -/
theorem not_covered_of_folded :
    ∃ w c, w = (start [lineCount "daily" [.storeId, .date]] { queueCapacity := 1 } 1).run overtaken ∧
      c ∈ w.calls ∧ c.phase = .accepted ∧ "S2" ∈ c.keys.members ∧
      ¬w.Covered c "S2" ∧ ¬w.Sending "S2" ∧ w.work.pool.queue = [] ∧ w.work.pool.retries = [] ∧
      w.active = 0 ∧ (∀ p ∈ w.workers, p.jobs = []) ∧ (w.work.site.facts.linesOf "S2").length = 2 ∧
      w.work.site.rollups.get? ⟨"daily", "S2"⟩ = none := by
  obtain ⟨w, hw, ⟨c, hc, hcall⟩, hrest⟩ : ∃ w : SyncFloor,
      w = (start [lineCount "daily" [.storeId, .date]] { queueCapacity := 1 } 1).run overtaken ∧
      (∃ c ∈ w.calls, c.phase = .accepted ∧ "S2" ∈ c.keys.members ∧ ¬w.Covered c "S2") ∧
      ¬w.Sending "S2" ∧ w.work.pool.queue = [] ∧ w.work.pool.retries = [] ∧
      w.active = 0 ∧ (∀ p ∈ w.workers, p.jobs = []) ∧ (w.work.site.facts.linesOf "S2").length = 2 ∧
      w.work.site.rollups.get? ⟨"daily", "S2"⟩ = none := ⟨_, rfl, by decide +kernel⟩
  exact ⟨w, c, hw, hc, hcall.1, hcall.2.1, hcall.2.2, hrest⟩

end SyncFloor

end RetailReport
