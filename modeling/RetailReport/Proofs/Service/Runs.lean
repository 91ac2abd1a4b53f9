import RetailReport.Proofs.Partition.Settled
import RetailReport.Proofs.Partition.Unfailing
import RetailReport.Proofs.Service.Writes
import RetailReport.Proofs.Sync.History

/-!
# Services on which nothing has failed

Lines are taken in and removed, partitions are brought up to date, workers run their jobs, and days end,
one after the other.  A write ends with a refresh of some partitions, and whoever writes is not told
whether that has failed.  A run is flawless if every call has given an answer and no partition has
failed, in passes and in refreshes alike; jobs may fail.

After a flawless run the partition store is tidy, and every partition that is pending has lines or is
stored, for whatever takes the last line of a partition away refreshes it, too.

## Main definitions

* `ServiceOp`, `ReportService.perform`: what can happen to a service, and what becomes of it.
* `ReportService.succeeds`: whether something has gone well.
* `ServiceRun`, `ReportService.run`: a service with its past.
* `ReportService.Sound`: what flawless runs keep.

## Main results

* `ReportService.Sound.perform`: one step; `ReportService.sound_run`: a whole run.
-/

namespace RetailReport

/-! ### Lines of a partition -/

namespace FactStore

theorem partitionLines_append {s s' : FactStore} {facts : List FactRecord} {stores : KeySet String}
    (h : s.append facts = .ok (s', stores)) (id : PartitionId) :
    s'.partitionLines id = s.partitionLines id ++ facts.filter fun f => f.partition = id := by
  unfold partitionLines partitionOf
  rw [linesOf_append h, List.filter_append, List.filter_filter]
  refine congrArg (_ ++ ·) (List.filter_congr fun f _ => ?_)
  cases id
  simp only [FactRecord.partition, PartitionId.mk.injEq, Bool.decide_and]
  exact Bool.and_comm _ _

theorem partitionLines_purge (s : FactStore) (storeId : String) (id : PartitionId) :
    (s.purge storeId).1.partitionLines id =
      if id.storeId = storeId then [] else s.partitionLines id := by
  unfold partitionLines partitionOf
  rw [linesOf_purge]
  split <;> rfl

end FactStore

/-! ### What can happen to a service -/

/-- What can happen to a service. -/
inductive ServiceOp where
  /-- It is started. -/
  | start
  /-- Lines are taken in. -/
  | ingest (records : List FactRecord)
  /-- All lines of a store are removed. -/
  | purge (storeId : String)
  /-- All partitions are brought up to date. -/
  | migrate
  /-- A worker runs the next job. -/
  | job
  /-- A worker runs one of the retries, if it is due. -/
  | retry (place : Nat)
  /-- Time passes. -/
  | elapse (ms : Nat)
  /-- Another business day begins. -/
  | onDay (today : Date)

namespace ReportService

/-- The service after a worker has run a job that it has taken from the pool. -/
def runJob (s : ReportService) (pool : WorkerPool) (job : SyncJob) : ReportService :=
  let (events, work) := { s.work with pool }.runJob job
  s.afterWork work events

/-- The service after an operation. -/
def perform (s : ReportService) : ServiceOp → ReportService
  | .start => s.start.2
  | .ingest records => (s.ingest records).2
  | .purge storeId => (s.purge storeId).2
  | .migrate => s.migrate.2
  | .job =>
    match s.work.pool.takeJob? with
    | some (job, pool) => s.runJob pool job
    | none => s
  | .retry place =>
    match s.work.pool.retries[place]? with
    | some r =>
      if r.due ≤ s.work.pool.now then
        s.runJob { s.work.pool with retries := s.work.pool.retries.eraseIdx place }
          (WorkerPool.RetryEntry.job r)
      else s
    | none => s
  | .elapse ms => { s with work.pool.now := s.work.pool.now + ms }
  | .onDay today => { s with partitions.today := today }

/-- A change of lines with all that comes of it before partitions are refreshed. -/
def noted (s : ReportService) (facts : FactStore) (touched : KeySet PartitionId)
    (keys : KeySet String) : ReportService :=
  (((s.withFacts facts).markPending touched).notify keys).2

/-- **A write up to its refresh**: the service as it is then, and the partitions to be refreshed. -/
def writing? (s : ReportService) : ServiceOp → Option (ReportService × KeySet PartitionId)
  | .ingest records =>
    match s.facts.append records with
    | .error _ => none
    | .ok (facts, keys) =>
      let touched := KeySet.ofList (records.map (·.partition))
      let s := s.noted facts touched keys
      some (s, if s.config.migrator.appendOnIngest then s.openOnes touched else .empty)
  | .purge storeId =>
    match s.facts.partitionDates storeId with
    | .error _ => none
    | .ok dates =>
      let touched := s.partitionsOf storeId dates
      let (facts, removed) := s.facts.purge storeId
      some (if removed = 0 then s.withFacts facts
        else s.noted facts touched (KeySet.ofList [storeId]), touched)
  | _ => none

/-- Whether a call gives an answer. -/
def answered (s : ReportService) : ServiceOp → Bool
  | .start => s.start.1.isOk
  | .ingest records => (s.ingest records).1.isOk
  | .purge storeId => (s.purge storeId).1.isOk
  | .migrate => s.migrate.1.isOk
  | _ => true

/-- The report of the refresh that a call ends with, or of its pass. -/
def report? (s : ReportService) : ServiceOp → Option MigrationReport
  | .migrate => s.migrate.1.toOption
  | op => (s.writing? op).map fun (s, ids) => (Migration.refresh s.facts s.partitions ids).2

/-- **Whether an operation succeeds**: it gives an answer, and no partition fails. -/
def succeeds (s : ReportService) (op : ServiceOp) : Bool :=
  s.answered op && (s.report? op).all (·.failed.isEmpty)

/-- The lists of lines that partitions are to hold after an operation. -/
def lists (s : ReportService) : ServiceOp → List (List FactRecord)
  | .migrate => Migration.attempts s.facts s.partitions
    (Migration.visited s.facts s.partitions s.config.migrator.includeOpen)
  | op => ((s.writing? op).map fun (s, ids) =>
    Migration.attempts s.facts s.partitions ids.members).getD []

end ReportService

/-- A service with its past. -/
structure ServiceRun where
  /-- The service. -/
  service : ReportService
  /-- The lists of lines that partitions were to hold so far. -/
  lists : List (List FactRecord) := []
  /-- Whether nothing has failed. -/
  flawless : Bool := true

/-- One more operation. -/
def ServiceRun.step (r : ServiceRun) (op : ServiceOp) : ServiceRun where
  service := r.service.perform op
  lists := r.lists ++ r.service.lists op
  flawless := r.flawless && r.service.succeeds op

/-- No two of the lists that partitions were to hold have one hash. -/
def ServiceRun.Apart (r : ServiceRun) : Prop := ToldApart (· ∈ r.lists)

instance (r : ServiceRun) : Decidable r.Apart :=
  decidable_of_iff (∀ l ∈ r.lists, ∀ l' ∈ r.lists, contentHash l = contentHash l' → l = l')
    ⟨fun h l l' hl hl' => h l hl l' hl', fun h l hl l' hl' => h l l' hl hl'⟩

namespace ReportService

/-- What becomes of a service in the course of some operations. -/
def run (s : ReportService) (ops : List ServiceOp) : ServiceRun :=
  ops.foldl ServiceRun.step { service := s }

theorem run_concat (s : ReportService) (ops : List ServiceOp) (op : ServiceOp) :
    s.run (ops ++ [op]) = (s.run ops).step op := List.foldl_append

variable {s s' t : ReportService} {plans : List RebuildPlan} {L : List FactRecord → Prop}
  {but : List PartitionId} {ids : KeySet PartitionId} {facts : FactStore}
  {touched : KeySet PartitionId} {keys : KeySet String} {records : List FactRecord}
  {storeId : String} {op : ServiceOp}

/-! ### Writes that give an answer -/

theorem refreshPartitions_eq (s : ReportService) (ids : KeySet PartitionId) :
    s.refreshPartitions ids =
      { s with partitions := (Migration.refresh s.facts s.partitions ids).1 } := by
  unfold refreshPartitions
  split
  · next hnone =>
    have hmembers : ids.members = [] :=
      List.eq_nil_iff_forall_not_mem.2 (KeySet.isEmpty_iff.1 hnone)
    unfold Migration.refresh
    rw [hmembers]
    rfl
  · rfl

theorem ingest_eq_ok (h : s.ingest records = (.ok keys, s')) : ∃ t ids,
    s.writing? (.ingest records) = some (t, ids) ∧ s' = t.refreshPartitions ids := by
  unfold ingest at h
  dsimp only at h
  split at h
  · cases h
  next facts keys' happend =>
  split at h
  · cases h
  next t hnotify =>
  cases h
  have hnoted : s.noted facts (KeySet.ofList (records.map (·.partition))) keys = t := by
    unfold noted
    rw [hnotify]
  unfold writing?
  simp only [happend, hnoted]
  refine ⟨t, _, rfl, ?_⟩
  split <;> rfl

/-- A store without lines is not purged, and nobody is notified. -/
theorem purge_eq_ok {removed : Nat} (h : s.purge storeId = (.ok removed, s')) : ∃ dates t,
    s.facts.partitionDates storeId = .ok dates ∧ (s.facts.purge storeId).2 = removed ∧
      s.writing? (.purge storeId) = some (t, s.partitionsOf storeId dates) ∧
      s' = t.refreshPartitions (s.partitionsOf storeId dates) ∧
      (removed ≠ 0 → t = s.noted (s.facts.purge storeId).1 (s.partitionsOf storeId dates)
        (KeySet.ofList [storeId]) ∧
        (((s.withFacts (s.facts.purge storeId).1).markPending
          (s.partitionsOf storeId dates)).notify (KeySet.ofList [storeId])).1 = .ok ()) := by
  unfold purge at h
  split at h
  · cases h
  next dates hdates =>
  dsimp only at h
  unfold writing?
  simp only [hdates]
  split at h
  · next hnone =>
    cases h
    rw [if_pos hnone]
    exact ⟨dates, _, rfl, hnone, rfl, rfl, fun hsome => absurd rfl hsome⟩
  next hsome =>
  split at h
  · cases h
  next t hnotify =>
  cases h
  rw [if_neg hsome]
  refine ⟨dates, _, rfl, rfl, rfl, ?_, fun _ => ⟨rfl, ?_⟩⟩
  · unfold noted
    rw [hnotify]
  · rw [hnotify]

/-- The migration of a write is its refresh. -/
theorem report?_of_writing? (h : s.writing? op = some (t, ids)) :
    s.report? op = some (Migration.refresh t.facts t.partitions ids).2 ∧
      s.lists op = Migration.attempts t.facts t.partitions ids.members := by
  cases op with
  | ingest records =>
    simp only [report?, lists, h, Option.map_some, Option.getD_some, and_self]
  | purge storeId =>
    simp only [report?, lists, h, Option.map_some, Option.getD_some, and_self]
  | _ => cases h

/-! ### What is done beside the partitions -/

/-- What listeners hear of changes no partitions. -/
theorem afterWork_frame (s : ReportService) (work : WorkSite) (events : List SyncEvent) :
    (s.afterWork work events).work = work ∧ (s.afterWork work events).plans = s.plans ∧
      (s.afterWork work events).partitions = s.partitions := by
  have hrun : ∀ t : ReportService, (events.foldl hear t).work = t.work ∧
      (events.foldl hear t).plans = t.plans ∧ (events.foldl hear t).partitions = t.partitions := by
    induction events with
    | nil => exact fun _ => ⟨rfl, rfl, rfl⟩
    | cons event events ih =>
      intro t
      obtain ⟨hwork, hplans, hpartitions⟩ := ih (t.hear event)
      have hhear : (t.hear event).work = t.work ∧ (t.hear event).plans = t.plans ∧
          (t.hear event).partitions = t.partitions := by
        cases event <;> exact ⟨rfl, rfl, rfl⟩
      exact ⟨hwork.trans hhear.1, hplans.trans hhear.2.1, hpartitions.trans hhear.2.2⟩
  exact hrun { s with work }

/-- Neither does a notification. -/
theorem notify_frame (s : ReportService) (keys : KeySet String) :
    s.work.site.Alike (s.notify keys).2.work.site ∧ (s.notify keys).2.plans = s.plans ∧
      (s.notify keys).2.partitions = s.partitions := by
  unfold notify
  split
  · exact ⟨⟨rfl, rfl, rfl, rfl⟩, rfl, rfl⟩
  · have halike := WorkSite.notify_alike s.work keys
    split <;> next hnotify => exact ⟨by rwa [hnotify] at halike, rfl, rfl⟩

/-! ### What flawless runs keep -/

/-- **What flawless runs keep**, but for the marks of some partitions. -/
structure Sound (plans : List RebuildPlan) (L : List FactRecord → Prop) (but : List PartitionId)
    (s : ReportService) : Prop where
  /-- The rollups are those of the start. -/
  plans_eq : s.plans.values = plans
  /-- So are those of the synchronizer, and the lines have been changed by operations only. -/
  site : s.work.site.Sound plans
  /-- The fact store can be read. -/
  available : s.facts.available = true
  /-- The partition store is tidy. -/
  partitions : s.partitions.Tidy L
  /-- A pending partition has lines or is stored. -/
  marks : ∀ id ∉ but, s.partitions.marks.get? id ≠ none →
    s.facts.partitionLines id ≠ [] ∨ s.partitions.manifest.get? id ≠ none

namespace Sound

theorem mono {L' : List FactRecord → Prop} (h : Sound plans L but s) (hL : ∀ l, L l → L' l) :
    Sound plans L' but s :=
  { h with partitions := h.partitions.mono hL }

/-- Other rollups and jobs do not matter. -/
theorem reworked (h : Sound plans L but s) (hplans : s'.plans = s.plans)
    (hsite : s'.work.site.Sound plans) (hfacts : s'.facts = s.facts)
    (hpartitions : s'.partitions = s.partitions) : Sound plans L but s' where
  plans_eq := hplans ▸ h.plans_eq
  site := hsite
  available := hfacts ▸ h.available
  partitions := hpartitions ▸ h.partitions
  marks := by
    rw [hfacts, hpartitions]
    exact h.marks

/-! ### Writes -/

/-- **Lines change**, and no partition loses all that it has. -/
theorem withFacts (h : Sound plans L [] s) (change : FactOp) (hfacts : s.facts.apply change = facts)
    (havailable : facts.available = true)
    (hlines : ∀ id ∉ but, s.facts.partitionLines id ≠ [] → facts.partitionLines id ≠ []) :
    Sound plans L but (s.withFacts facts) where
  plans_eq := h.plans_eq
  site := hfacts ▸ h.site.change change
  available := havailable
  partitions := h.partitions
  marks id hid hmark := (h.marks id List.not_mem_nil hmark).imp_left (hlines id hid)

/-- **Partitions with lines are marked.** -/
theorem markPending (h : Sound plans L but s)
    (hlines : ∀ id ∉ but, id ∈ touched.members → s.facts.partitionLines id ≠ []) :
    Sound plans L but (s.markPending touched) where
  plans_eq := h.plans_eq
  site := h.site
  available := h.available
  partitions := h.partitions.congr rfl rfl rfl
  marks id hid hmark := by
    have hget : (s.markPending touched).partitions.marks.get? id = _ :=
      PartitionStore.get?_markPending s.partitions touched.members id
    rw [hget] at hmark
    split at hmark
    · next htouched => exact .inl (hlines id hid htouched)
    · exact h.marks id hid hmark

/-- **Workers are notified.** -/
theorem notify (h : Sound plans L but s) (keys : KeySet String) :
    Sound plans L but (s.notify keys).2 := by
  obtain ⟨halike, hplans, hpartitions⟩ := s.notify_frame keys
  exact h.reworked hplans (h.site.congr halike) halike.facts hpartitions

/-- **The partitions of a store** that has lines or partitions. -/
theorem mem_partitionsOf (h : Sound plans L [] s) {dates : List Date}
    (hdates : s.facts.partitionDates storeId = .ok dates) {id : PartitionId} :
    id ∈ (s.partitionsOf storeId dates).members ↔ id.storeId = storeId ∧
      (s.facts.partitionLines id ≠ [] ∨ s.partitions.manifest.get? id ≠ none) := by
  -- The days on which the store has lines.
  have hlive : id ∈ dates.map (fun d => (⟨storeId, d⟩ : PartitionId)) ↔
      id.storeId = storeId ∧ s.facts.partitionLines id ≠ [] := by
    rw [FactStore.partitionDates, FactStore.check_of_available h.available] at hdates
    obtain rfl := Except.ok.inj hdates
    cases id with
    | mk store date =>
    rw [List.mem_map]
    constructor
    · rintro ⟨d, hd, heq⟩
      obtain ⟨rfl, rfl⟩ := PartitionId.mk.inj heq
      obtain ⟨f, hf, hdate⟩ := List.mem_map.1 (KeySet.mem_ofList.1 hd)
      exact ⟨rfl, List.ne_nil_of_mem (List.mem_filter.2 ⟨hf, decide_eq_true hdate⟩)⟩
    · rintro ⟨rfl, hsome⟩
      obtain ⟨f, hf⟩ := List.exists_mem_of_ne_nil _ hsome
      obtain ⟨hf, hdate⟩ := List.mem_filter.1 hf
      refine ⟨date, KeySet.mem_ofList.2 ?_, rfl⟩
      exact List.mem_map.2 ⟨f, hf, of_decide_eq_true hdate⟩
  -- The partitions that are stored for it.
  have hstored : id ∈ (s.partitions.partitions.map (·.id)).filter (·.storeId = storeId) ↔
      id.storeId = storeId ∧ s.partitions.manifest.get? id ≠ none := by
    rw [List.mem_filter, and_comm, decide_eq_true_iff]
    refine and_congr_right fun _ => ?_
    rw [List.mem_map]
    constructor
    · rintro ⟨e, he, rfl⟩
      obtain ⟨id, hget⟩ := SortedMap.mem_values.1 he
      obtain ⟨_, hfiled⟩ := h.partitions.entries id e hget
      rw [hfiled.entryId, hget]
      exact Option.some_ne_none e
    · intro hsome
      obtain ⟨e, hget⟩ := Option.ne_none_iff_exists'.1 hsome
      obtain ⟨_, hfiled⟩ := h.partitions.entries id e hget
      exact ⟨e, SortedMap.mem_values.2 ⟨id, hget⟩, hfiled.entryId⟩
  unfold partitionsOf
  rw [KeySet.mem_union, KeySet.mem_ofList, KeySet.mem_ofList, hlive, hstored, and_or_left]

/-- **A write up to its refresh.** -/
theorem writing (h : Sound plans L [] s) (hwriting : s.writing? op = some (t, ids)) :
    Sound plans L ids.members t := by
  cases op with
  | ingest records =>
    simp only [writing?] at hwriting
    split at hwriting
    · cases hwriting
    next facts keys happend =>
    obtain ⟨havailable, b, -, -, hfacts⟩ := FactStore.append_eq_ok happend
    have hlines := FactStore.partitionLines_append happend
    obtain ⟨rfl, -⟩ : s.noted facts (KeySet.ofList (records.map (·.partition))) keys = t ∧ _ :=
      Prod.mk.inj (Option.some.inj hwriting)
    refine ((h.withFacts (.append records) ?_ ?_ fun id _ hsome => ?_).markPending
      fun id _ htouched => ?_).notify keys
    · unfold FactStore.apply
      simp only [happend]
    · rw [hfacts]
      exact havailable
    · rw [hlines id]
      exact List.append_ne_nil_of_left_ne_nil hsome _
    · obtain ⟨f, hf, rfl⟩ := List.mem_map.1 (KeySet.mem_ofList.1 htouched)
      show facts.partitionLines f.partition ≠ []
      rw [hlines]
      refine List.append_ne_nil_of_right_ne_nil _ (List.ne_nil_of_mem (a := f) ?_)
      exact List.mem_filter.2 ⟨hf, decide_eq_true rfl⟩
  | purge storeId =>
    simp only [writing?] at hwriting
    split at hwriting
    · cases hwriting
    next dates hdates =>
    -- All partitions that lose their lines are refreshed.
    have hfacts : Sound plans L (s.partitionsOf storeId dates).members
        (s.withFacts (s.facts.purge storeId).1) := by
      refine h.withFacts (.purge storeId) rfl h.available fun id hid hsome => ?_
      rw [FactStore.partitionLines_purge, if_neg fun hstore => hid ?_]
      · exact hsome
      · exact (h.mem_partitionsOf hdates).2 ⟨hstore, .inl hsome⟩
    obtain ⟨rfl, rfl⟩ := Prod.mk.inj (Option.some.inj hwriting)
    split
    · exact hfacts
    · exact (hfacts.markPending fun id hid htouched => absurd htouched hid).notify _
  | _ => cases hwriting

/-! ### Migrations -/

/-- **After a migration** without failures. -/
theorem cleared (h : Sound plans L but s) {done : List PartitionId} {partitions : PartitionStore}
    (hcleared : Migration.Cleared L s.facts s.partitions done partitions)
    (hbut : ∀ id ∈ but, id ∈ done) : Sound plans L [] { s with partitions } where
  plans_eq := h.plans_eq
  site := h.site
  available := h.available
  partitions := hcleared.tidy
  marks id _ hmark := by
    rw [hcleared.marks] at hmark
    split at hmark
    · exact absurd rfl hmark
    · next hid =>
      rw [hcleared.entries id hid]
      exact h.marks id (fun hmem => hid (hbut id hmem)) hmark

/-- **After a refresh** without failures. -/
theorem refreshPartitions (hL : ToldApart L) (h : Sound plans L ids.members s)
    (hallowed : ∀ l ∈ Migration.attempts s.facts s.partitions ids.members, L l)
    (hclean : (Migration.refresh s.facts s.partitions ids).2.failed = []) :
    Sound plans L [] (s.refreshPartitions ids) := by
  rw [refreshPartitions_eq]
  exact h.cleared (Migration.cleared_foldl hL h.partitions h.site.reachable.consistent h.available
    (KeySet.nodup_members ids) hallowed hclean) fun _ hid => hid

/-- **After a pass** without failures. -/
theorem migrate (hL : ToldApart L) (h : Sound plans L [] s) (hallowed : ∀ l ∈ s.lists .migrate, L l)
    (hclean : ∀ report, s.migrate.1 = .ok report → report.failed = []) :
    Sound plans L [] s.migrate.2 := by
  obtain ⟨live, hlive, -⟩ := Migration.livePartitions_of_available h.available
  have hpass : Migration.pass s.facts s.partitions s.config.migrator.includeOpen =
      (.ok ((Migration.targets s.partitions live).members.foldl
        (Migration.visit s.facts s.config.migrator.includeOpen live) (s.partitions, {})).2,
      ((Migration.targets s.partitions live).members.foldl
        (Migration.visit s.facts s.config.migrator.includeOpen live) (s.partitions, {})).1) := by
    unfold Migration.pass
    simp only [hlive]
  simp only [lists, Migration.visited, hlive] at hallowed
  simp only [ReportService.migrate, hpass] at hclean ⊢
  exact h.cleared (Migration.cleared_visit hL h.partitions h.site.reachable.consistent h.available
    (KeySet.nodup_members _) hallowed (hclean _ rfl)) fun _ hid => absurd hid List.not_mem_nil

/-! ### Rebuilds -/

/-- **After a job**, whether it has failed or not. -/
theorem runJob (hn : DistinctNames plans) (h : Sound plans L but s) (pool : WorkerPool)
    (job : SyncJob) : Sound plans L but (s.runJob pool job) := by
  obtain ⟨hwork, hplans, hpartitions⟩ := s.afterWork_frame ({ s.work with pool }.runJob job).2
    ({ s.work with pool }.runJob job).1
  have halike := WorkSite.runJob_alike { s.work with pool } job
  refine h.reworked hplans ?_ ?_ hpartitions
  · show SyncSite.Sound plans (s.runJob pool job).work.site
    unfold ReportService.runJob
    rw [hwork]
    exact (h.site.sync hn job.keys).congr halike
  · show (s.runJob pool job).work.site.facts = s.work.site.facts
    unfold ReportService.runJob
    rw [hwork]
    exact halike.facts.trans (h.site.facts_sync hn job.keys)

/-- **After the start.** -/
theorem start (hn : DistinctNames plans) (h : Sound plans L but s) : Sound plans L but s.start.2 := by
  obtain ⟨hwork, hplans, hpartitions⟩ := s.afterWork_frame
    { s.work with site := s.work.site.rebuildAll.2.2 } s.work.site.rebuildAll.2.1
  have hafter : Sound plans L but (s.afterWork
      { s.work with site := s.work.site.rebuildAll.2.2 } s.work.site.rebuildAll.2.1) := by
    refine h.reworked hplans ?_ ?_ hpartitions
    · rw [hwork]
      exact h.site.rebuildAll hn
    · unfold facts
      rw [hwork]
      exact h.site.facts_rebuildAll hn
  unfold ReportService.start
  dsimp only
  split
  · exact hafter.reworked rfl hafter.site rfl rfl
  · exact hafter.reworked rfl hafter.site rfl rfl

/-! ### One step -/

/-- **After a write**, if its refresh has not failed. -/
theorem written (hL : ToldApart L) (h : Sound plans L [] s)
    (hwriting : s.writing? op = some (t, ids)) (hlists : ∀ l ∈ s.lists op, L l)
    (hclean : (s.report? op).all (·.failed.isEmpty) = true) :
    Sound plans L [] (t.refreshPartitions ids) := by
  obtain ⟨hreport, heq⟩ := report?_of_writing? hwriting
  rw [hreport] at hclean
  rw [heq] at hlists
  exact (h.writing hwriting).refreshPartitions hL hlists (List.isEmpty_iff.1 hclean)

/-- **Every operation that succeeds keeps it.** -/
theorem perform (hn : DistinctNames plans) (hL : ToldApart L) (h : Sound plans L [] s)
    (hlists : ∀ l ∈ s.lists op, L l) (hop : s.succeeds op = true) :
    Sound plans L [] (s.perform op) := by
  obtain ⟨hanswered, hclean⟩ := Bool.and_eq_true_iff.1 hop
  -- Writes are followed by a refresh of their partitions; all other steps have one part to keep.
  cases op with
  | start => exact h.start hn
  | ingest records =>
    obtain ⟨keys, hkeys⟩ := Except.isOk_iff.1 hanswered
    obtain ⟨t, ids, hwriting, heq⟩ := ingest_eq_ok (Prod.ext hkeys rfl)
    have hservice : s.perform (.ingest records) = t.refreshPartitions ids := heq
    exact hservice ▸ h.written hL hwriting hlists hclean
  | purge storeId =>
    obtain ⟨removed, hremoved⟩ := Except.isOk_iff.1 hanswered
    obtain ⟨dates, t, -, -, hwriting, heq, -⟩ := purge_eq_ok (Prod.ext hremoved rfl)
    have hservice : s.perform (.purge storeId) =
      t.refreshPartitions (s.partitionsOf storeId dates) := heq
    exact hservice ▸ h.written hL hwriting hlists hclean
  | migrate =>
    refine h.migrate hL hlists fun report hreport => ?_
    have hreport' : s.report? .migrate = some report := by
      unfold report?
      rw [hreport]
      rfl
    rw [hreport'] at hclean
    exact List.isEmpty_iff.1 hclean
  | job =>
    simp only [ReportService.perform]
    split
    · exact h.runJob hn _ _
    · exact h
  | retry place =>
    simp only [ReportService.perform]
    split
    · split
      · exact h.runJob hn _ _
      · exact h
    · exact h
  | elapse ms =>
    exact h.reworked rfl h.site rfl rfl
  | onDay today =>
    exact ⟨h.plans_eq, h.site, h.available, h.partitions.congr rfl rfl rfl, h.marks⟩

end Sound

/-! ### Whole runs -/

/-- A service without lines and partitions. -/
theorem sound_build {config : ReportConfig} {formulas : FormulaTable} {today : Date}
    (hbuild : build config formulas {} today = .ok s) :
    DistinctNames s.plans.values ∧ Sound s.plans.values L [] s := by
  unfold build at hbuild
  split at hbuild
  · cases hbuild
  next plans hplans =>
  dsimp only at hbuild
  split at hbuild
  · cases hbuild
  next partitions hopen =>
  cases hbuild
  -- A new service has an empty fact store and an empty manifest in an empty folder.
  obtain rfl := MigrationWorld.eq_of_open? hopen
  have hnone : ∀ id e, (SortedMap.empty : Manifest).get? id ≠ some e := fun id e hget => by
    cases hget
  refine ⟨distinctNames_of_compileAll hplans, rfl, SyncSite.sound_start plans.values, rfl,
    ⟨⟨Folder.tree_empty.withoutExtension _, fun id e hget => absurd hget (hnone id e),
      fun id e hget => absurd hget (hnone id e), fun place table hget => ?_⟩,
      fun id e hget => absurd hget (hnone id e)⟩, fun id _ hmark => absurd rfl hmark⟩
  rw [Folder.withoutExtension, SortedMap.get?_filter] at hget
  cases Folder.eq_directory_of_empty (Option.filter_eq_some_iff.1 hget).1

theorem lists_subset_step (r : ServiceRun) (op : ServiceOp) : ∀ l ∈ r.lists, l ∈ (r.step op).lists :=
  fun _ hl => List.mem_append_left _ hl

/-- **Every flawless run keeps it.** -/
theorem sound_run {ops : List ServiceOp} (hn : DistinctNames plans)
    (hs : ∀ L, Sound plans L [] s) (hflawless : (s.run ops).flawless = true)
    (hhash : (s.run ops).Apart) : Sound plans (· ∈ (s.run ops).lists) [] (s.run ops).service := by
  induction ops using List.reverseRecOn with
  | nil => exact hs _
  | append_singleton ops op ih =>
    rw [run_concat] at hflawless hhash ⊢
    obtain ⟨hbefore, hop⟩ := Bool.and_eq_true_iff.1 hflawless
    have hsub := lists_subset_step (s.run ops) op
    have hsound := ih hbefore fun l l' hl hl' => hhash l l' (hsub l hl) (hsub l' hl')
    exact (hsound.mono hsub).perform hn hhash (fun l hl => List.mem_append_right _ hl) hop

end ReportService

end RetailReport
