import RetailReport.Proofs.Partition.Migration
import RetailReport.Proofs.Query.PartitionAnswer

/-!
# Partitions that hold their lines

When no mutator is between its change and its marks, a partition of a closed day that is not pending
holds its lines if what was written last is what the newest scan has found, and only then.  The
marks alone do not suffice: a pass that has scanned early may write late, after another one has
written newer lines and cleared the mark, and then the older lines stay.

A request that is answered finds no partition pending, so its answer is made from the right lines if
all partitions that it asks for were written in the order of their scans.

## Main definitions

* `MigrationWorld.Holds`: a partition holds its lines.

## Main results

* `MigrationWorld.holds_iff`: **which partitions hold their lines**, and what requests are answered
  from.
* `MigrationWorld.not_holds_after_late_write`: a late write that undoes a newer one.
-/

namespace RetailReport

/-! ### What changes touch -/

namespace FactStore

variable {s s' : FactStore}

/-- **A batch** touches the partitions of its lines. -/
theorem touches_append {facts : List FactRecord} {stores : KeySet String}
    (h : s.append facts = .ok (s', stores)) : s.Touches s' (facts.map (·.partition)) := by
  intro id hne
  by_contra hmem
  have hnone : (facts.filter fun f => f.storeId = id.storeId).filter
      (fun f => f.date = id.date) = [] := by
    rw [List.filter_filter, List.filter_eq_nil_iff]
    intro f hf hown
    refine hmem (List.mem_map.2 ⟨f, hf, ?_⟩)
    simp only [Bool.and_eq_true, decide_eq_true_eq] at hown
    cases id
    exact congrArg₂ PartitionId.mk hown.2 hown.1
  refine hne ?_
  unfold partitionLines partitionOf
  rw [linesOf_append h, List.filter_append, hnone, List.append_nil]

/-- **Purging a store** touches the partitions of the days on which it has lines. -/
theorem touches_purge (s : FactStore) (storeId : String) :
    s.Touches (s.purge storeId).1 ((s.linesOf storeId).map fun f => ⟨storeId, f.date⟩) := by
  intro id hne
  unfold partitionLines partitionOf at hne
  rw [linesOf_purge] at hne
  split at hne
  · next heq =>
    rw [heq] at hne
    obtain ⟨f, hf⟩ := List.exists_mem_of_ne_nil _ hne.symm
    obtain ⟨hf, hdate⟩ := List.mem_filter.1 hf
    refine List.mem_map.2 ⟨f, hf, ?_⟩
    cases id
    exact congrArg₂ PartitionId.mk heq.symm (of_decide_eq_true hdate)
  · exact absurd rfl hne

end FactStore

namespace MigrationWorld

variable {s : PartitionStore} {w : MigrationWorld} {manifestFile : String} {today : Date}
  {plan : Option RebuildPlan}

/-! ### The start -/

/-- **No manifest is found** in an empty folder: there are no files, and a directory is none. -/
theorem loadManifest_empty {path : FolderPath} {m : Manifest}
    (h : PartitionStore.loadManifest {} path = .ok m) :
    m = .empty ∧ ({} : Folder).contains path = false := by
  unfold PartitionStore.loadManifest at h
  split at h
  · next hcontains =>
    have hread : ({} : Folder).read path = .error .isDirectory := by
      unfold Folder.contains at hcontains
      cases hnode : ({} : Folder).node path with
      | error e =>
        rw [hnode] at hcontains
        cases hcontains
      | ok held =>
        obtain ⟨place, -, hget⟩ := Folder.node_eq_ok.1 hnode
        rw [Folder.read, hnode, Folder.eq_directory_of_empty hget]
        rfl
    rw [hread] at h
    cases h
  · next hfree => exact ⟨(Except.ok.inj h).symm, Bool.eq_false_iff.2 hfree⟩

theorem open?_eq_ok (h : PartitionStore.open? {} manifestFile today plan = .ok s) :
    ({} : Folder).contains (FolderPath.ofText manifestFile) = false ∧
    s = { folder := ({} : Folder).withoutExtension "tmp"
          manifestPath := FolderPath.ofText manifestFile
          manifest := .empty
          today
          summaryPlan := plan } := by
  have hhome : ({} : Folder).makeDirs FolderPath.home = (.ok (), {}) := rfl
  unfold PartitionStore.open? at h
  simp only [hhome] at h
  obtain ⟨m, hm, h⟩ := Except.bind_eq_ok.1 h
  obtain ⟨rfl, hfree⟩ := loadManifest_empty hm
  exact ⟨hfree, (Except.ok.inj h).symm⟩

/-- **In an empty folder** a new store is opened. -/
theorem eq_of_open? (h : PartitionStore.open? {} manifestFile today plan = .ok s) :
    s = { folder := ({} : Folder).withoutExtension "tmp"
          manifestPath := FolderPath.ofText manifestFile
          manifest := .empty
          today
          summaryPlan := plan } :=
  (open?_eq_ok h).2

theorem isNew_of_open? (h : PartitionStore.open? {} manifestFile today plan = .ok s)
    (hname : ∀ name, (FolderPath.ofText manifestFile).getLast? = some name →
      ¬PartitionStore.IsTableName name) : IsNew s := by
  obtain rfl := eq_of_open? h
  exact ⟨Folder.tree_empty.withoutExtension _, hname, rfl, rfl⟩

/-! ### Partitions that are not pending -/

/-- **A partition holds its lines.** -/
def Holds (w : MigrationWorld) (id : PartitionId) : Prop :=
  w.partitions.readPartition id = .ok (content (w.facts.partitionLines id))

/-- What was written last is what the newest scan has found. -/
def InOrder (w : MigrationWorld) (id : PartitionId) : Prop :=
  content (w.last id).lines = content (w.newest id).lines

/-- A partition that is neither pending nor about to be marked holds its lines exactly if what was
written last is what the newest scan has found. -/
theorem Sound.holds_iff_inOrder (h : w.Sound) {id : PartitionId}
    (hclosed : w.partitions.isClosed id.date = true) (hmarked : ¬w.Unmarked id)
    (hpending : w.partitions.pendingMark? id = none) : w.Holds id ↔ w.InOrder id := by
  have hcurrent : w.changed id ≤ (w.newest id).time := by
    rcases h.caught id with hunmarked | hsome | hle
    · exact absurd hunmarked hmarked
    · rw [show w.partitions.marks.get? id = none from hpending] at hsome
      cases hsome
    · exact hle
  rw [Holds, InOrder, h.reads id hclosed, ← (h.newest id).current hcurrent, Except.ok.injEq]

/-- A partition that holds its lines follows the fact store. -/
theorem Holds.follows {id : PartitionId} (h : w.Holds id) : w.partitions.Follows w.facts id :=
  ⟨_, h, getD_content_perm _⟩

/-- Each entry is entered under its own partition. -/
theorem Sound.keyed (h : w.Sound) : w.partitions.Keyed := fun id e hget =>
  (h.partitions.entries id e hget).choose_spec.entryId

/-- A request that is answered finds no partition pending. -/
theorem pendingMark?_of_query {r : MetricRequest} {p : RebuildPlan} {cancelled : Bool}
    {result : AggregateResult} (h : s.query r p cancelled = .ok result) {id : PartitionId}
    (hid : r.filter.matchesPartition id.storeId id.date = true) : s.pendingMark? id = none := by
  unfold PartitionStore.query at h
  simp only at h
  split at h
  · cases h
  · next hnone =>
    have hcount : s.pending.countP (fun id => r.filter.matchesPartition id.storeId id.date) = 0 :=
      Nat.eq_zero_of_not_pos hnone
    refine SortedMap.get?_eq_none_iff.2 fun hmem => ?_
    exact List.countP_eq_zero.1 hcount id hmem hid

/-- **Which partitions hold their lines** when no mutator is between its change and its marks: of
those of closed days that are not pending, the ones that were last written what the newest scan has
found, and no other ones.  A request that is answered is answered from the lines that it asks for if
all partitions that it asks for are such ones.

This is for stores whose manifest is not named like a file with a table, since it may otherwise take the
place of one, and for lists of lines that may be stored. -/
theorem holds_iff (hopen : PartitionStore.open? {} manifestFile today plan = .ok s)
    (hname : ∀ name, (FolderPath.ofText manifestFile).getLast? = some name →
      ¬PartitionStore.IsTableName name)
    (h : Reachable s w) (hlists : Storable (· ∈ w.lists)) (hidle : w.unmarked = []) :
    (∀ id, w.partitions.isClosed id.date = true → w.partitions.pendingMark? id = none →
      (w.Holds id ↔ w.InOrder id)) ∧
    ∀ (p : RebuildPlan) (r : MetricRequest) (cancelled : Bool) (result : AggregateResult),
      p.WellFormed → w.partitions.query r p cancelled = .ok result →
      (∀ id : PartitionId, r.filter.matchesPartition id.storeId id.date = true →
        w.partitions.isClosed id.date = true ∧ w.InOrder id) →
      Answered p r p.fields (w.facts.lines.filter r.filter.matchesFact) result.rows := by
  have hsound := h.sound (isNew_of_open? hopen hname) hlists
  -- With no mark outstanding, a closed partition holds its lines exactly if its passes wrote in
  -- order.
  have hmarked : ∀ id, ¬w.Unmarked id := fun id ⟨ids, hids, _⟩ => by
    rw [hidle] at hids
    cases hids
  refine ⟨fun id hclosed hpending => hsound.holds_iff_inOrder hclosed (hmarked id) hpending, ?_⟩
  intro p r cancelled result hp hquery hall
  refine PartitionStore.answered_of_query hp hsound.facts.consistent hsound.keyed
    (fun id hid => ?_) hquery
  obtain ⟨hclosed, horder⟩ := hall id hid
  have hpending := pendingMark?_of_query hquery hid
  exact ((hsound.holds_iff_inOrder hclosed (hmarked id) hpending).2 horder).follows

/-! ### Steps in a row -/

/-- Lines are changed, and the partitions that are touched are marked at once. -/
def mutated (w : MigrationWorld) (facts : FactStore) (touched : List PartitionId) :
    MigrationWorld :=
  { w.change facts touched with
    unmarked := w.unmarked
    partitions := (w.partitions.markPending touched).2 }

/-- A pass has begun and has found some lines. -/
def begun (w : MigrationWorld) (id : PartitionId) (lines : List FactRecord) : MigrationWorld :=
  { w with
    passes := w.passes ++
      [{ id, mark := w.partitions.pendingMark? id, stage := .scanned ⟨w.time, lines⟩ }] }

/-- A pass has written what it has found and has cleared the mark; some passes are left. -/
def finished (w : MigrationWorld) (passes : List MigrationPass) (id : PartitionId)
    (mark : Option Nat) (scan : Scan) : MigrationWorld :=
  { w with
    partitions := ((Migration.follow w.partitions id scan.lines).2.clearPending id mark).2
    passes
    last := Function.update w.last id scan
    newest := Function.update w.newest id (newer (w.newest id) scan)
    lists := w.lists ++ [canonicalSort (Migration.followed w.partitions id scan.lines)] }

theorem Reachable.mutated (h : Reachable s w) {keys : KeySet String} {facts : FactStore}
    {touched : List PartitionId} (hchange : w.facts.Change keys facts)
    (htouches : w.facts.Touches facts touched) : Reachable s (w.mutated facts touched) := by
  have hunmarked : (w.change facts touched).unmarked = w.unmarked ++ touched :: [] := rfl
  have hmark := Step.mark hunmarked
  rw [List.append_nil] at hmark
  exact .step (.step h (.change hchange htouches)) hmark

theorem Reachable.begun (h : Reachable s w) (id : PartitionId) (lines : List FactRecord)
    (hscan : Migration.scan w.facts id = .ok lines) : Reachable s (w.begun id lines) :=
  .step (.step h (.begin id)) (.scan rfl hscan)

theorem Reachable.finished (h : Reachable s w) (early late : List MigrationPass)
    {id : PartitionId} {mark : Option Nat} {scan : Scan} {outcome : Migration.Outcome}
    (heq : w.passes = early ++ { id, mark, stage := .scanned scan } :: late)
    (hok : (Migration.follow w.partitions id scan.lines).1 = .ok outcome) :
    Reachable s (w.finished (early ++ late) id mark scan) :=
  .step (.step h (.write heq hok)) (.clear rfl)

/-! ### A pass alone -/

/-- A store that was opened in an empty folder on the day after New Year's Day. -/
def opened : PartitionStore where
  folder := {}
  manifestPath := FolderPath.ofText "manifest.json"
  manifest := .empty
  today := { year := 2025, month := 1, day := 2 }

theorem open?_opened : PartitionStore.open? {} "manifest.json" opened.today none = .ok opened := rfl

/-- A line has been appended, and a pass has found it. -/
def scanned : MigrationWorld :=
  (({ partitions := opened } : MigrationWorld).mutated oneLine [newYearsDay]).begun newYearsDay
    [sampleLine "S1" "r1"]

theorem reachable_scanned : Reachable opened scanned :=
  (Reachable.start.mutated (.append append_oneLine) (FactStore.touches_append append_oneLine)).begun
    _ _ rfl

/-- The pass has done its work. -/
def caughtUp : MigrationWorld :=
  scanned.finished [] newYearsDay (some 1) ⟨1, [sampleLine "S1" "r1"]⟩

set_option maxRecDepth 20000 in
theorem follow_scanned :
    (Migration.follow scanned.partitions newYearsDay [sampleLine "S1" "r1"]).1 = .ok .written := by
  decide +kernel

theorem reachable_caughtUp : Reachable opened caughtUp :=
  reachable_scanned.finished [] [] rfl follow_scanned

/-- What is written by itself may be stored. -/
theorem storable_singleton {f : FactRecord} (hf : f.IsOrdinary) : Storable (· ∈ [[f]]) where
  ordinary facts h g hg := by
    rw [List.mem_singleton.1 h, List.mem_singleton] at hg
    exact hg ▸ hf
  apart facts facts' h h' _ := (List.mem_singleton.1 h).trans (List.mem_singleton.1 h').symm

theorem lists_caughtUp : caughtUp.lists = [[sampleLine "S1" "r1"]] := by
  show [canonicalSort (Migration.followed _ _ _)] = _
  rw [Migration.followed_of_isClosed (by decide), canonicalSort, List.mergeSort_singleton]

/-- The request for the number of lines of the first store on New Year's Day. -/
def dayRequest : MetricRequest where
  schema := "daily"
  filter.stores := some (KeySet.ofList ["S1"])
  filter.dateRange := some (newYearsDay.date, newYearsDay.date)

/-- No other partition is asked for. -/
theorem eq_newYearsDay {id : PartitionId}
    (h : dayRequest.filter.matchesPartition id.storeId id.date = true) : id = newYearsDay := by
  obtain ⟨hstore, hdate⟩ := Bool.and_eq_true_iff.1 h
  obtain ⟨hfirst, hlast⟩ := Bool.and_eq_true_iff.1 hdate
  have hid : id.storeId = "S1" := by
    simpa using KeySet.contains_iff.1 hstore
  have hday : id.date = newYearsDay.date :=
    KeyOrder.eq_of_not_lt (Date.le_iff.1 hfirst) (Date.le_iff.1 hlast)
  cases id
  exact congrArg₂ PartitionId.mk hid hday

theorem isTableName_manifest : ∀ name, (FolderPath.ofText "manifest.json").getLast? = some name →
    ¬PartitionStore.IsTableName name := by
  intro name hname
  obtain rfl : "manifest.json" = name := Option.some.inj hname
  unfold PartitionStore.IsTableName
  decide

/-- The rollup that counts the lines of each store and day. -/
def linesPerDay : RebuildPlan := lineCount "daily" [.storeId, .date]

set_option maxRecDepth 20000 in
theorem query_caughtUp : ∃ result,
    caughtUp.partitions.query dayRequest linesPerDay false = .ok result ∧
      result.rows.length = 1 ∧ caughtUp.partitions.pendingMark? newYearsDay = none ∧
      caughtUp.partitions.isClosed newYearsDay.date = true :=
  Except.exists_ok (by decide +kernel)

theorem inOrder_caughtUp : caughtUp.InOrder newYearsDay := by
  have hsame : caughtUp.last newYearsDay = caughtUp.newest newYearsDay := by decide +kernel
  rw [InOrder, hsame]

/-- After a pass alone the partition holds its line, and a request is answered from it. -/
theorem holds_caughtUp :
    PartitionStore.open? {} "manifest.json" opened.today none = .ok opened ∧
    Reachable opened caughtUp ∧ Storable (· ∈ caughtUp.lists) ∧ caughtUp.unmarked = [] ∧
    caughtUp.Holds newYearsDay ∧
    ∃ result, caughtUp.partitions.query dayRequest linesPerDay false = .ok result ∧
      result.rows.length = 1 ∧ Answered linesPerDay dayRequest linesPerDay.fields
        (caughtUp.facts.lines.filter dayRequest.filter.matchesFact) result.rows := by
  have hlists : Storable (· ∈ caughtUp.lists) := lists_caughtUp ▸ storable_singleton (by decide)
  obtain ⟨result, hquery, hrows, hpending, hclosed⟩ := query_caughtUp
  obtain ⟨hholds, hanswered⟩ :=
    holds_iff open?_opened isTableName_manifest reachable_caughtUp hlists rfl
  refine ⟨open?_opened, reachable_caughtUp, hlists, rfl,
    (hholds newYearsDay hclosed hpending).2 inOrder_caughtUp, result, hquery, hrows, ?_⟩
  refine hanswered linesPerDay dayRequest false result ?_ hquery fun id hid => ?_
  · exact RebuildPlan.wellFormed_of_compile
      (show Compile.compile linesPerDay.schema {} .empty = .ok linesPerDay from rfl)
  · exact eq_newYearsDay hid ▸ ⟨hclosed, inOrder_caughtUp⟩

/-! ### A late write -/

/-- While the pass is at it, the store is purged, and another pass finds no lines. -/
def purged : MigrationWorld :=
  (scanned.mutated (oneLine.purge "S1").1 [newYearsDay]).begun newYearsDay []

theorem reachable_purged : Reachable opened purged :=
  (reachable_scanned.mutated (.purge oneLine "S1")
    (FactStore.touches_purge oneLine "S1")).begun _ _ rfl

/-- The other pass has done its work. -/
def removed : MigrationWorld := purged.finished scanned.passes newYearsDay (some 2) ⟨2, []⟩

/-- At last the first pass has written what it has found before. -/
def undone : MigrationWorld :=
  removed.finished [] newYearsDay (some 1) ⟨1, [sampleLine "S1" "r1"]⟩

set_option maxRecDepth 20000 in
theorem follow_purged : (Migration.follow purged.partitions newYearsDay []).1 = .ok .kept := by
  decide +kernel

set_option maxRecDepth 20000 in
theorem follow_removed :
    (Migration.follow removed.partitions newYearsDay [sampleLine "S1" "r1"]).1 = .ok .written := by
  decide +kernel

theorem reachable_undone : Reachable opened undone :=
  (reachable_purged.finished scanned.passes [] rfl follow_purged).finished [] [] rfl follow_removed

set_option maxRecDepth 20000 in
theorem query_undone : ∃ result,
    undone.partitions.query dayRequest linesPerDay false = .ok result ∧
      result.rows.length = 1 ∧ undone.partitions.pendingMark? newYearsDay = none ∧
      undone.partitions.isClosed newYearsDay.date = true ∧
      undone.partitions.readPartition newYearsDay = .ok (some [sampleLine "S1" "r1"]) :=
  Except.exists_ok (by decide +kernel)

/-- **A late write undoes a newer one**: the partition is not pending, no mutator is under way, and
the partition holds the line that was purged, which is counted when a request is answered. -/
theorem not_holds_after_late_write :
    ∃ w, Reachable opened w ∧ w.unmarked = [] ∧
      w.partitions.isClosed newYearsDay.date = true ∧
      w.partitions.pendingMark? newYearsDay = none ∧ ¬w.Holds newYearsDay ∧
      w.facts.lines = [] ∧
      ∃ result, w.partitions.query dayRequest linesPerDay false = .ok result ∧
        result.rows.length = 1 := by
  obtain ⟨result, hquery, hrows, hpending, hclosed, hread⟩ := query_undone
  refine ⟨undone, reachable_undone, rfl, hclosed, hpending, fun h => ?_, rfl, result, hquery, hrows⟩
  rw [Holds, hread] at h
  cases h

end MigrationWorld

end RetailReport
