import RetailReport.Proofs.Fact.Admission
import RetailReport.Proofs.Partition.Migration
import RetailReport.Proofs.Sync.Pool
import RetailReport.Service.Basic

/-!
# Writes that fail

Taking in lines and removing those of a store go through several parts of the service, one after the
other: the lines change, their partitions are marked, the workers are notified, and partitions are
brought up to date.  The fact store refuses a write before anything has been changed.  The workers refuse
it when it has been half done: its lines and marks are there, and nobody is going to take them back.
Nor can the write be repeated: its lines are refused as duplicates, and what has been removed is not
there to be removed again, so that nobody is notified.

## Main definitions

* `WorkerPool.Refuses`: when the workers refuse a notification.
* `ReportService.Untouched`: what a failed write is expected to leave as it was.
* `ReportService.HalfDone`: what it leaves if the workers refuse it.

## Main results

* `WorkSite.notify_eq_error_iff`: exactly then they do.
* `ReportService.ingest_eq_error`, `ReportService.purge_eq_error`: why a write fails, and what is left.
* `ReportService.failed_write`: **a failed write changes nothing exactly if the fact store has refused
  it.**
-/

namespace RetailReport

/-! ### Notifications -/

/-- **When the workers refuse a notification**: they were stopped, or there is a store that no queued
job is for, and no room for another job. -/
inductive WorkerPool.Refuses (p : WorkerPool) (keys : KeySet String) : SyncError → Prop
  | shutDown (stopped : p.stopped = true) : Refuses p keys .shutDown
  | queueFull (running : p.stopped = false) {key : String} (hkey : key ∈ keys.members)
      (fresh : key ∉ p.pending.members) (full : p.room ≤ p.queue.length) :
      Refuses p keys (.queueFull p.config.queueCapacity)

theorem WorkerPool.isEmpty_fresh_iff {p : WorkerPool} {keys : KeySet String} :
    (p.fresh keys).isEmpty = true ↔ ∀ key ∈ keys.members, key ∈ p.pending.members := by
  rw [KeySet.isEmpty_iff]
  refine forall_congr' fun key => ?_
  rw [fresh, KeySet.mem_filter, Bool.not_eq_true', ← Bool.not_eq_true, KeySet.contains_iff, not_and,
    not_not]

theorem WorkerPool.enqueue?_eq_none_iff {p : WorkerPool} {job : SyncJob} :
    p.enqueue? job = none ↔ p.room ≤ p.queue.length := by
  unfold enqueue?
  split <;> simp_all

namespace WorkSite

variable {w : WorkSite} {keys : KeySet String} {e : SyncError}

theorem notify_eq_error_iff : (w.notify keys).1 = .error e ↔ w.pool.Refuses keys e := by
  unfold notify
  dsimp only
  split
  · next hstopped =>
    constructor
    · intro h
      cases h
      exact .shutDown hstopped
    · rintro (_ | ⟨hrunning⟩)
      · rfl
      · rw [hstopped] at hrunning
        cases hrunning
  next hrunning =>
  split
  · next hnone =>
    refine iff_of_false (fun h => by cases h) ?_
    rintro (hstopped | ⟨-, hkey, hfresh, -⟩)
    · exact hrunning hstopped
    · exact hfresh (WorkerPool.isEmpty_fresh_iff.1 hnone _ hkey)
  next hsome =>
  -- There is a job to be queued, so it comes down to whether there is room.
  obtain ⟨key, hkey, hfresh⟩ : ∃ key ∈ keys.members, key ∉ w.pool.pending.members := by
    by_contra hall
    push Not at hall
    exact hsome (WorkerPool.isEmpty_fresh_iff.2 hall)
  have hroom : (w.pool.addPending (w.pool.fresh keys)).enqueue? ⟨w.pool.fresh keys, 0⟩ = none ↔
      w.pool.room ≤ w.pool.queue.length := WorkerPool.enqueue?_eq_none_iff
  split
  · next pool hpool =>
    refine iff_of_false (fun h => by cases h) ?_
    rintro (hstopped | ⟨-, -, -, hfull⟩)
    · exact hrunning hstopped
    · cases hpool.symm.trans (hroom.2 hfull)
  · next hnone =>
    constructor
    · intro h
      cases h
      exact .queueFull (Bool.eq_false_iff.2 hrunning) hkey hfresh (hroom.1 hnone)
    · rintro (hstopped | _)
      · exact absurd hstopped hrunning
      · rfl

/-- What is refused is not queued. -/
theorem pool_notify_of_error (h : (w.notify keys).1 = .error e) : (w.notify keys).2.pool = w.pool := by
  rcases w.notify_cases keys with ⟨-, -, hpool⟩ | ⟨hok, -⟩ | ⟨hok, -⟩
  · exact hpool
  · rw [h] at hok
    cases hok
  · rw [h] at hok
    cases hok

end WorkSite

namespace ReportService

variable {s s' : ReportService} {e : ReportError} {records : List FactRecord} {storeId : String}
  {facts : FactStore} {keys : KeySet String} {touched : KeySet PartitionId} {refusal : SyncError}

/-! ### What is left of a write -/

/-- **What a failed write is expected to leave as it was**: the lines with all that is kept beside
them, the pending marks, the stored partitions, and the jobs of the workers. -/
structure Untouched (s s' : ReportService) : Prop where
  facts : s'.facts = s.facts
  marks : s'.partitions.marks = s.partitions.marks
  folder : s'.partitions.folder = s.partitions.folder
  manifest : s'.partitions.manifest = s.partitions.manifest
  jobs : s'.work.pool = s.work.pool

/-- **What is left of a write that the workers refuse**: its lines and its marks. -/
structure HalfDone (s s' : ReportService) (facts : FactStore) (touched : KeySet PartitionId) :
    Prop where
  /-- The lines are those after the write. -/
  facts : s'.facts = facts
  /-- The version tells so. -/
  version : s'.facts.version = s.facts.version + 1
  /-- The partitions that it touches are pending under a new mark, and no others. -/
  marks : ∀ id, s'.partitions.pendingMark? id =
    if id ∈ touched.members then some (s.partitions.markCount + 1)
    else s.partitions.pendingMark? id
  /-- The stored partitions are as they were. -/
  folder : s'.partitions.folder = s.partitions.folder
  manifest : s'.partitions.manifest = s.partitions.manifest
  /-- So are the jobs. -/
  jobs : s'.work.pool = s.work.pool

theorem Untouched.refl (s : ReportService) : Untouched s s := ⟨rfl, rfl, rfl, rfl, rfl⟩

theorem HalfDone.not_untouched (h : HalfDone s s' facts touched) : ¬Untouched s s' := by
  intro hsame
  have hversion := h.version
  rw [hsame.facts] at hversion
  exact Nat.succ_ne_self _ hversion.symm

theorem notify_eq_error (h : s.notify keys = (.error e, s')) :
    ∃ refusal, e = .sync refusal ∧ s.work.pool.Refuses keys refusal ∧ s'.facts = s.facts ∧
      s'.partitions = s.partitions ∧ s'.work.pool = s.work.pool ∧ ¬keys.isEmpty = true := by
  unfold notify at h
  split at h
  · cases h
  next hkeys =>
  split at h
  · cases h
  · next refusal work hnotify =>
    cases h
    have hrefused : (s.work.notify keys).1 = .error refusal := by rw [hnotify]
    have hwork : (s.work.notify keys).2 = work := by rw [hnotify]
    refine ⟨refusal, rfl, WorkSite.notify_eq_error_iff.1 hrefused, ?_, rfl, ?_, hkeys⟩
    · rw [← hwork]
      exact (WorkSite.notify_alike s.work keys).facts
    · rw [← hwork]
      exact WorkSite.pool_notify_of_error hrefused

/-- A write up to the notification, if that is refused. -/
theorem halfDone_of_notify (hversion : facts.version = s.facts.version + 1)
    (h : ((s.withFacts facts).markPending touched).notify keys = (.error e, s')) :
    ∃ refusal, e = .sync refusal ∧ s.work.pool.Refuses keys refusal ∧
      HalfDone s s' facts touched ∧ ¬keys.isEmpty = true := by
  obtain ⟨refusal, rfl, hrefuses, hfacts, hpartitions, hpool, hkeys⟩ := notify_eq_error h
  refine ⟨refusal, rfl, hrefuses, ⟨hfacts, ?_, fun id => ?_, ?_, ?_, hpool⟩, hkeys⟩
  · rw [hfacts]
    exact hversion
  · rw [hpartitions]
    exact PartitionStore.get?_markPending s.partitions touched.members id
  · rw [hpartitions]
    rfl
  · rw [hpartitions]
    rfl

/-! ### Taking in lines -/

/-- **Why lines are not taken in**: the fact store refuses them, or the workers do. -/
theorem ingest_eq_error (h : s.ingest records = (.error e, s')) :
    (∃ refusal, e = .factStore refusal ∧ s.facts.append records = .error refusal ∧ s' = s) ∨
    ∃ refusal facts keys, e = .sync refusal ∧ s.facts.append records = .ok (facts, keys) ∧
      s.work.pool.Refuses keys refusal ∧
      HalfDone s s' facts (.ofList (records.map (·.partition))) ∧ records ≠ [] := by
  unfold ingest at h
  dsimp only at h
  split at h
  · next refusal happend =>
    cases h
    exact .inl ⟨refusal, rfl, happend, rfl⟩
  next facts keys happend =>
  split at h
  · next e' s'' hnotify =>
    cases h
    obtain ⟨-, b, -, hkeys, hfacts⟩ := FactStore.append_eq_ok happend
    have hversion : facts.version = s.facts.version + 1 := by rw [hfacts]
    obtain ⟨refusal, he, hrefuses, hhalf, hsome⟩ := halfDone_of_notify hversion hnotify
    refine .inr ⟨refusal, facts, keys, he, happend, hrefuses, hhalf, ?_⟩
    rintro rfl
    rw [hkeys] at hsome
    exact hsome rfl
  · cases h

/-- Lines that are there are not taken in again. -/
theorem ingest_again {f : FactRecord} (happend : s.facts.append (f :: records) = .ok (facts, keys))
    (hfacts : s'.facts = facts) :
    s'.ingest (f :: records) = (.error (.factStore (.duplicateRecord f.recordId)), s') := by
  unfold ingest
  rw [hfacts, FactStore.append_again happend]

/-! ### Removing lines -/

/-- **Why lines are not removed**: the fact store cannot be read, or the workers refuse to be
notified. -/
theorem purge_eq_error (h : s.purge storeId = (.error e, s')) :
    (∃ refusal, e = .factStore refusal ∧ s.facts.partitionDates storeId = .error refusal ∧ s' = s) ∨
    ∃ refusal dates, e = .sync refusal ∧ s.facts.partitionDates storeId = .ok dates ∧
      s.work.pool.Refuses (.ofList [storeId]) refusal ∧
      HalfDone s s' (s.facts.purge storeId).1 (s.partitionsOf storeId dates) := by
  unfold purge at h
  dsimp only at h
  split at h
  · next refusal hdates =>
    cases h
    exact .inl ⟨refusal, rfl, hdates, rfl⟩
  next dates hdates =>
  split at h
  · cases h
  next hremoved =>
  split at h
  · next e' s'' hnotify =>
    cases h
    have hsome : ¬(s.facts.byStore.getD storeId []).isEmpty = true := by
      rw [List.isEmpty_iff_length_eq_zero]
      exact hremoved
    obtain ⟨refusal, he, hrefuses, hhalf, -⟩ := halfDone_of_notify (if_neg hsome) hnotify
    exact .inr ⟨refusal, dates, he, hdates, hrefuses, hhalf⟩
  · cases h

/-- Nobody is notified of lines that are not there any more. -/
theorem purge_again {dates : List Date} (hdates : s.facts.partitionDates storeId = .ok dates)
    (hfacts : s'.facts = (s.facts.purge storeId).1) :
    (s'.purge storeId).1 = .ok 0 ∧ (s'.purge storeId).2.work.pool = s'.work.pool ∧
      (s'.purge storeId).2.synchronizer = s'.synchronizer := by
  have havailable : s.facts.available = true := by
    by_contra h
    rw [FactStore.partitionDates, FactStore.check_of_not_available (Bool.eq_false_iff.2 h)] at hdates
    cases hdates
  have hdates' : s'.facts.partitionDates storeId =
      .ok (KeySet.ofList ((s'.facts.linesOf storeId).map (·.date))).members := by
    rw [FactStore.partitionDates, FactStore.check_of_available (by rw [hfacts]; exact havailable)]
    rfl
  have hnone : (s'.facts.purge storeId).2 = 0 := by
    have hlines := FactStore.linesOf_purge s.facts storeId storeId
    rw [if_pos rfl, ← hfacts] at hlines
    exact List.length_eq_zero_iff.2 hlines
  unfold purge
  rw [hdates']
  dsimp only
  rw [if_pos hnone]
  refine ⟨rfl, ?_⟩
  unfold refreshPartitions
  split <;> exact ⟨rfl, rfl⟩

/-! ### Writes that fail -/

/-- **A failed write changes nothing exactly if the fact store has refused it.**  Otherwise the workers
have: the write is half done, and cannot be repeated. -/
theorem failed_write (s : ReportService) :
    (∀ records e s', s.ingest records = (.error e, s') →
      (Untouched s s' ↔ ∃ refusal, e = .factStore refusal) ∧
      ((∃ refusal, e = .factStore refusal ∧ s' = s) ∨
        ∃ refusal facts keys, e = .sync refusal ∧ s.facts.append records = .ok (facts, keys) ∧
          s.work.pool.Refuses keys refusal ∧
          HalfDone s s' facts (.ofList (records.map (·.partition))) ∧
          ∃ f ∈ records,
            s'.ingest records = (.error (.factStore (.duplicateRecord f.recordId)), s'))) ∧
    ∀ storeId e s', s.purge storeId = (.error e, s') →
      (Untouched s s' ↔ ∃ refusal, e = .factStore refusal) ∧
      ((∃ refusal, e = .factStore refusal ∧ s' = s) ∨
        ∃ refusal dates, e = .sync refusal ∧ s.facts.partitionDates storeId = .ok dates ∧
          s.work.pool.Refuses (.ofList [storeId]) refusal ∧
          HalfDone s s' (s.facts.purge storeId).1 (s.partitionsOf storeId dates) ∧
          (s'.purge storeId).1 = .ok 0 ∧ (s'.purge storeId).2.work.pool = s'.work.pool ∧
          (s'.purge storeId).2.synchronizer = s'.synchronizer) := by
  have hother (refusal : SyncError) :
      ¬∃ refusal', ReportError.sync refusal = .factStore refusal' := by simp
  -- A write fails before anything is stored, or when the workers refuse the notification.
  refine ⟨fun records e s' h => ?_, fun storeId e s' h => ?_⟩
  · rcases ingest_eq_error h with ⟨refusal, rfl, -, rfl⟩ |
      ⟨refusal, facts, keys, rfl, happend, hrefuses, hhalf, hsome⟩
    · exact ⟨iff_of_true (.refl _) ⟨refusal, rfl⟩, .inl ⟨refusal, rfl, rfl⟩⟩
    · obtain ⟨f, rest, rfl⟩ := List.exists_cons_of_ne_nil hsome
      refine ⟨iff_of_false hhalf.not_untouched (hother refusal), .inr ?_⟩
      exact ⟨refusal, facts, keys, rfl, happend, hrefuses, hhalf, f, List.mem_cons_self,
        ingest_again happend hhalf.facts⟩
  · rcases purge_eq_error h with ⟨refusal, rfl, -, rfl⟩ |
      ⟨refusal, dates, rfl, hdates, hrefuses, hhalf⟩
    · exact ⟨iff_of_true (.refl _) ⟨refusal, rfl⟩, .inl ⟨refusal, rfl, rfl⟩⟩
    · refine ⟨iff_of_false hhalf.not_untouched (hother refusal), .inr ?_⟩
      exact ⟨refusal, dates, rfl, hdates, hrefuses, hhalf, purge_again hdates hhalf.facts⟩

/-- A service whose queue has room for one job. -/
def crampedService : Except ReportError ReportService :=
  build { sync := { queueCapacity := 1 }, catalog := Compile.priceCatalog,
          schemas := [Compile.revenueSchema []] }
    .builtins {} { year := 2025, month := 3, day := 1 }

/-- A line of one store is taken in, and its job waits.  The job for a line of another store is refused,
and the line stays. -/
theorem not_untouched_by_full_queue : ∃ s s',
    crampedService.map (fun s => (s.ingest [sampleLine "S1" "r1"]).2) = .ok s ∧
      s.ingest [sampleLine "S2" "r2"] = (.error (.sync (.queueFull 1)), s') ∧
      s.facts.lines = [sampleLine "S1" "r1"] ∧
      s'.facts.lines = [sampleLine "S1" "r1", sampleLine "S2" "r2"] ∧ ¬Untouched s s' := by
  obtain ⟨s, hs, herror, hbefore, hafter⟩ : ∃ s,
      crampedService.map (fun s => (s.ingest [sampleLine "S1" "r1"]).2) = .ok s ∧
      (s.ingest [sampleLine "S2" "r2"]).1 = .error (.sync (.queueFull 1)) ∧
      s.facts.lines = [sampleLine "S1" "r1"] ∧
      (s.ingest [sampleLine "S2" "r2"]).2.facts.lines =
        [sampleLine "S1" "r1", sampleLine "S2" "r2"] := Except.exists_ok (by decide +kernel)
  refine ⟨s, (s.ingest [sampleLine "S2" "r2"]).2, hs, Prod.ext herror rfl, hbefore, hafter,
    fun hsame => ?_⟩
  rw [hsame.facts, hbefore] at hafter
  cases hafter

/-- Once the workers are stopped, the lines of a store are removed and nobody is told, whether one asks
once or twice. -/
theorem failed_purge_after_shutdown : ∃ s s',
    crampedService.map (fun s => (s.ingest [sampleLine "S1" "r1"]).2.shutdown) = .ok s ∧
      s.purge "S1" = (.error (.sync .shutDown), s') ∧ ¬Untouched s s' ∧
      (s'.purge "S1").1 = .ok 0 ∧ (s'.purge "S1").2.work.pool = s.work.pool := by
  obtain ⟨s, hs, herror⟩ : ∃ s,
      crampedService.map (fun s => (s.ingest [sampleLine "S1" "r1"]).2.shutdown) = .ok s ∧
      (s.purge "S1").1 = .error (.sync .shutDown) := Except.exists_ok (by decide +kernel)
  have hpurge : s.purge "S1" = (.error (.sync .shutDown), (s.purge "S1").2) := Prod.ext herror rfl
  obtain ⟨huntouched, hleft⟩ := (failed_write s).2 _ _ _ hpurge
  refine ⟨s, (s.purge "S1").2, hs, hpurge, ?_, ?_⟩
  · rw [huntouched]
    simp
  · rcases hleft with ⟨refusal, he, -⟩ | ⟨refusal, dates, -, -, -, hhalf, hagain, hpool, -⟩
    · cases he
    · exact ⟨hagain, hpool.trans hhalf.jobs⟩

end ReportService

end RetailReport
