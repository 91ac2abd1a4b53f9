import RetailReport.Proofs.Fact.Consistency
import RetailReport.Proofs.Partition.Store
import RetailReport.Proofs.Query.PartitionAnswer

/-!
# Passes side by side

Mutators change lines and then mark the partitions that they have touched.  Meanwhile any number of
passes bring partitions of closed days up to date; each one reads the number of the mark, scans the
lines, writes them, and clears the mark under its number, and anything may happen in between.

The numbers see to it that a mark is only cleared if the lines have not changed since they were
scanned.  They do not see to it that the scan is written last: the passes write one at a time, but
not in the order of their scans.  So whether a partition that is not pending holds its lines depends
on which scan was written last.

## Main definitions

* `MigrationWorld`, `MigrationWorld.Step`: mutators and passes, step by step.
* `MigrationWorld.Sound`: what is known at every point.

## Main results

* `MigrationWorld.Reachable.sound`: every point that can be reached is in order.
-/

namespace RetailReport

namespace FactStore

/-- The lines of a partition. -/
def partitionLines (s : FactStore) (id : PartitionId) : List FactRecord :=
  s.partitionOf id.storeId id.date

/-- **A change touches some partitions**: all others keep their lines. -/
def Touches (s s' : FactStore) (ids : List PartitionId) : Prop :=
  ∀ id, s'.partitionLines id ≠ s.partitionLines id → id ∈ ids

end FactStore

/-! ### Marks -/

namespace PartitionStore

/-- The marks after some partitions were marked. -/
theorem get?_markPending (s : PartitionStore) (ids : List PartitionId) (id : PartitionId) :
    (s.markPending ids).2.marks.get? id =
      if id ∈ ids then some (s.markCount + 1) else s.marks.get? id := by
  have hfold : ∀ (m : SortedMap PartitionId Nat),
      (ids.foldl (fun m id => m.insert id (s.markCount + 1)) m).get? id =
        if id ∈ ids then some (s.markCount + 1) else m.get? id := by
    induction ids with
    | nil => exact fun m => rfl
    | cons id' ids ih =>
      intro m
      rw [List.foldl_cons, ih, SortedMap.get?_insert]
      by_cases h : id = id'
      · simp [h]
      · simp [h]
  exact hfold s.marks

/-- The marks after one was cleared, or not. -/
theorem get?_clearPending (s : PartitionStore) (id id' : PartitionId) (mark : Option Nat) :
    (s.clearPending id mark).2.marks.get? id' =
      if id' = id ∧ mark.isSome = true ∧ s.marks.get? id = mark then none
      else s.marks.get? id' := by
  unfold clearPending
  split
  · next h =>
    simp only [SortedMap.get?_erase, h, and_true, and_self]
  · next h => rw [if_neg fun h' => h h'.2]

/-- Clearing a mark changes nothing of what is stored. -/
theorem Sound.clearPending {s : PartitionStore} {L : List FactRecord → Prop} (hs : s.Sound L)
    (id : PartitionId) (mark : Option Nat) : (s.clearPending id mark).2.Sound L := by
  unfold PartitionStore.clearPending
  split
  · exact ⟨hs.tree, hs.manifestName, hs.entries⟩
  · exact hs

theorem readPartition_clearPending (s : PartitionStore) (id : PartitionId) (mark : Option Nat) :
    (s.clearPending id mark).2.readPartition = s.readPartition := by
  unfold clearPending
  split <;> rfl

theorem today_clearPending (s : PartitionStore) (id : PartitionId) (mark : Option Nat) :
    (s.clearPending id mark).2.today = s.today := by
  unfold clearPending
  split <;> rfl

end PartitionStore

/-! ### Mutators and passes -/

/-- The lines of a partition as a pass has found them, and when. -/
structure Scan where
  /-- The number of changes up to then. -/
  time : Nat := 0
  /-- The lines. -/
  lines : List FactRecord := []
deriving DecidableEq

/-- What a pass has done with a partition. -/
inductive PassStage where
  /-- It has read the mark. -/
  | marked
  /-- It has scanned the lines. -/
  | scanned (scan : Scan)
  /-- It has written what it has found. -/
  | written (scan : Scan)
deriving DecidableEq

/-- A pass over one partition. -/
structure MigrationPass where
  /-- The partition. -/
  id : PartitionId
  /-- The number of the mark as it was at first. -/
  mark : Option Nat
  /-- What has been done. -/
  stage : PassStage := .marked
deriving DecidableEq

/-- What a pass has found. -/
def MigrationPass.scan? (p : MigrationPass) : Option Scan :=
  match p.stage with
  | .marked => none
  | .scanned scan => some scan
  | .written scan => some scan

/-- Mutators and passes. -/
structure MigrationWorld where
  /-- The fact store. -/
  facts : FactStore := {}
  /-- The partition store. -/
  partitions : PartitionStore
  /-- The partitions that each mutator has touched that has not marked them yet. -/
  unmarked : List (List PartitionId) := []
  /-- The passes that are under way. -/
  passes : List MigrationPass := []
  /-- The number of changes so far. -/
  time : Nat := 0
  /-- When each partition was touched last. -/
  changed : PartitionId → Nat := fun _ => 0
  /-- The scan that was written last. -/
  last : PartitionId → Scan := fun _ => {}
  /-- The newest scan that was written. -/
  newest : PartitionId → Scan := fun _ => {}
  /-- The lists that passes have written so far, or tried to. -/
  lists : List (List FactRecord) := []

namespace MigrationWorld

/-- The newer one of two scans. -/
def newer (a b : Scan) : Scan := if a.time ≤ b.time then b else a

/-- Other lines; some partitions are touched. -/
def change (w : MigrationWorld) (facts : FactStore) (touched : List PartitionId) : MigrationWorld :=
  { w with
    facts
    unmarked := w.unmarked ++ [touched]
    time := w.time + 1
    changed := fun id => if id ∈ touched then w.time + 1 else w.changed id }

/-- **One step** of a mutator or a pass.  Each of them is atomic. -/
inductive Step (w : MigrationWorld) : MigrationWorld → Prop
  /-- A mutator changes lines. -/
  | change {keys : KeySet String} {facts : FactStore} {touched : List PartitionId} :
      w.facts.Change keys facts → w.facts.Touches facts touched →
      Step w (w.change facts touched)
  /-- A mutator marks what it has touched. -/
  | mark {early late : List (List PartitionId)} {touched : List PartitionId} :
      w.unmarked = early ++ touched :: late →
      Step w { w with
        unmarked := early ++ late
        partitions := (w.partitions.markPending touched).2 }
  /-- A pass reads the mark of a partition. -/
  | begin (id : PartitionId) :
      Step w { w with passes := w.passes ++ [{ id, mark := w.partitions.pendingMark? id }] }
  /-- A pass scans the lines. -/
  | scan {early late : List MigrationPass} {id : PartitionId} {mark : Option Nat}
      {lines : List FactRecord} : w.passes = early ++ { id, mark } :: late →
      Migration.scan w.facts id = .ok lines →
      Step w { w with
        passes := early ++ { id, mark, stage := .scanned ⟨w.time, lines⟩ } :: late }
  /-- A pass writes what it has found. -/
  | write {early late : List MigrationPass} {id : PartitionId} {mark : Option Nat} {scan : Scan}
      {outcome : Migration.Outcome} :
      w.passes = early ++ { id, mark, stage := .scanned scan } :: late →
      (Migration.follow w.partitions id scan.lines).1 = .ok outcome →
      Step w { w with
        partitions := (Migration.follow w.partitions id scan.lines).2
        passes := early ++ { id, mark, stage := .written scan } :: late
        last := Function.update w.last id scan
        newest := Function.update w.newest id (newer (w.newest id) scan)
        lists := w.lists ++ [canonicalSort (Migration.followed w.partitions id scan.lines)] }
  /-- A pass fails to write. -/
  | fail {early late : List MigrationPass} {id : PartitionId} {mark : Option Nat} {scan : Scan}
      {error : PartitionError} :
      w.passes = early ++ { id, mark, stage := .scanned scan } :: late →
      (Migration.follow w.partitions id scan.lines).1 = .error error →
      Step w { w with
        partitions := (Migration.follow w.partitions id scan.lines).2
        passes := early ++ late
        lists := w.lists ++ [canonicalSort (Migration.followed w.partitions id scan.lines)] }
  /-- A pass clears the mark. -/
  | clear {early late : List MigrationPass} {id : PartitionId} {mark : Option Nat} {scan : Scan} :
      w.passes = early ++ { id, mark, stage := .written scan } :: late →
      Step w { w with
        partitions := (w.partitions.clearPending id mark).2
        passes := early ++ late }
  /-- A pass goes no further, since the fact store cannot be read or for any other reason. -/
  | stop {early late : List MigrationPass} {p : MigrationPass} : w.passes = early ++ p :: late →
      Step w { w with passes := early ++ late }

/-- The points that can be reached with a partition store that has just been opened. -/
inductive Reachable (s : PartitionStore) : MigrationWorld → Prop
  | start : Reachable s { partitions := s }
  | step {w w' : MigrationWorld} : Reachable s w → Step w w' → Reachable s w'

/-- A mutator has touched a partition and has not marked it yet. -/
def Unmarked (w : MigrationWorld) (id : PartitionId) : Prop := ∃ ids ∈ w.unmarked, id ∈ ids

/-! ### What is known -/

/-- **A scan** has found the lines of the partition, unless they have changed since. -/
structure Valid (w : MigrationWorld) (id : PartitionId) (scan : Scan) : Prop where
  /-- It was made before now. -/
  time_le : scan.time ≤ w.time
  /-- It has found the lines. -/
  current : w.changed id ≤ scan.time → scan.lines = w.facts.partitionLines id

/-- What is known of a pass. -/
structure PassSound (w : MigrationWorld) (p : MigrationPass) : Prop where
  /-- The mark was set before now. -/
  mark_le : ∀ mark, p.mark = some mark → mark ≤ w.partitions.markCount
  /-- The scan has found the lines. -/
  valid : ∀ scan, p.scan? = some scan → w.Valid p.id scan
  /-- **As long as the mark is the one that was read**, the lines have not changed since the scan,
  or whoever has changed them has yet to mark the partition. -/
  unchanged : ∀ scan mark, p.scan? = some scan → p.mark = some mark →
    w.partitions.marks.get? p.id = some mark → ¬w.Unmarked p.id → w.changed p.id ≤ scan.time
  /-- What was written is not newer than the newest scan that was written. -/
  written : ∀ scan, p.stage = .written scan → scan.time ≤ (w.newest p.id).time

/-- **What is known at every point.** -/
structure Sound (w : MigrationWorld) : Prop where
  /-- The fact store is one that changes lead to. -/
  facts : w.facts.Reachable
  /-- The partition store is in order. -/
  partitions : w.partitions.Sound (· ∈ w.lists)
  /-- No partition was touched after now. -/
  changed_le : ∀ id, w.changed id ≤ w.time
  /-- What can be read of a partition of a closed day is the scan that was written last. -/
  reads : ∀ id, w.partitions.isClosed id.date = true →
    w.partitions.readPartition id = .ok (content (w.last id).lines)
  /-- The numbers of all marks have been given out. -/
  mark_le : ∀ id mark, w.partitions.marks.get? id = some mark → mark ≤ w.partitions.markCount
  /-- What is known of each pass. -/
  passes : ∀ p ∈ w.passes, w.PassSound p
  /-- The newest scan that was written has found the lines. -/
  newest : ∀ id, w.Valid id (w.newest id)
  /-- **A partition whose newest scan is out of date** is pending, or will be. -/
  caught : ∀ id, w.Unmarked id ∨ (w.partitions.marks.get? id).isSome = true ∨
    w.changed id ≤ (w.newest id).time

/-! ### What steps keep -/

variable {w w' : MigrationWorld}

/-- **What no step takes back.** -/
structure Forward (w w' : MigrationWorld) : Prop where
  /-- The business day is the same. -/
  today : w'.partitions.today = w.partitions.today
  /-- Marks are numbered upwards. -/
  markCount : w.partitions.markCount ≤ w'.partitions.markCount
  /-- What is known of scans stays true. -/
  valid : ∀ id scan, w.Valid id scan → w'.Valid id scan
  /-- A mark is not set again under an old number; as long as it stands, the lines are the same. -/
  marks : ∀ id mark, mark ≤ w.partitions.markCount → w'.partitions.marks.get? id = some mark →
    ¬w'.Unmarked id →
    w.partitions.marks.get? id = some mark ∧ ¬w.Unmarked id ∧ w'.changed id = w.changed id
  /-- The newest scan that was written is not replaced by an older one. -/
  newest : ∀ id, (w.newest id).time ≤ (w'.newest id).time

/-- What is known of a pass that does not take part in a step. -/
theorem PassSound.forward {p : MigrationPass} (h : w.PassSound p) (hf : Forward w w') :
    w'.PassSound p where
  mark_le mark hmark := Nat.le_trans (h.mark_le mark hmark) hf.markCount
  valid scan hscan := hf.valid _ _ (h.valid scan hscan)
  unchanged scan mark hscan hmark hget hmarked := by
    obtain ⟨hget, hmarked, hchanged⟩ := hf.marks _ _ (h.mark_le mark hmark) hget hmarked
    rw [hchanged]
    exact h.unchanged scan mark hscan hmark hget hmarked
  written scan hscan := Nat.le_trans (h.written scan hscan) (hf.newest _)

/-- All other passes are as before when one of them goes on. -/
theorem PassSound.forall_of_eq (more : List MigrationPass) {early late : List MigrationPass}
    {p : MigrationPass} (h : ∀ q ∈ w.passes, w.PassSound q) (hf : Forward w w')
    (heq : w.passes = early ++ p :: late) (hmore : ∀ q ∈ more, w'.PassSound q) :
    ∀ q ∈ early ++ more ++ late, w'.PassSound q := by
  intro q hq
  rcases List.mem_append.1 hq with hq | hq
  · rcases List.mem_append.1 hq with hq | hq
    · exact (h q (heq ▸ List.mem_append_left _ hq)).forward hf
    · exact hmore q hq
  · exact (h q (heq ▸ List.mem_append_right _ (List.mem_cons_of_mem _ hq))).forward hf

theorem time_le_newer (a b : Scan) : a.time ≤ (newer a b).time ∧ b.time ≤ (newer a b).time := by
  unfold newer
  split <;> omega

/-! ### Steps -/

/-- A change of the passes only. -/
theorem forward_passes (passes : List MigrationPass) : Forward w { w with passes } where
  today := rfl
  markCount := Nat.le_refl _
  valid _ _ h := ⟨h.time_le, h.current⟩
  marks _ _ _ hget hmarked := ⟨hget, hmarked, rfl⟩
  newest _ := Nat.le_refl _

theorem unmarked_change {facts : FactStore} {touched : List PartitionId} {id : PartitionId} :
    (w.change facts touched).Unmarked id ↔ w.Unmarked id ∨ id ∈ touched := by
  simp [Unmarked, MigrationWorld.change, or_and_right, exists_or]

/-- A scan of a partition that is touched is out of date from then on. -/
theorem Valid.change {id : PartitionId} {scan : Scan} (h : w.Valid id scan) {facts : FactStore}
    {touched : List PartitionId} (htouches : w.facts.Touches facts touched) :
    (w.change facts touched).Valid id scan where
  time_le := Nat.le_succ_of_le h.time_le
  current hle := by
    have htime := h.time_le
    change (if id ∈ touched then w.time + 1 else w.changed id) ≤ _ at hle
    split at hle
    · omega
    · next hmem => exact (h.current hle).trans (not_imp_comm.1 (htouches id) hmem).symm

theorem forward_change {facts : FactStore} {touched : List PartitionId}
    (htouches : w.facts.Touches facts touched) : Forward w (w.change facts touched) where
  today := rfl
  markCount := Nat.le_refl _
  valid _ _ h := h.change htouches
  marks id mark _ hget hmarked := by
    rw [unmarked_change, not_or] at hmarked
    exact ⟨hget, hmarked.1, if_neg hmarked.2⟩
  newest _ := Nat.le_refl _

/-- **A mutator changes lines.** -/
theorem Sound.change (h : w.Sound) {keys : KeySet String} {facts : FactStore}
    {touched : List PartitionId} (hchange : w.facts.Change keys facts)
    (htouches : w.facts.Touches facts touched) : (w.change facts touched).Sound where
  facts := hchange.reachable h.facts
  partitions := h.partitions
  reads := h.reads
  changed_le id := by
    show (if id ∈ touched then w.time + 1 else w.changed id) ≤ w.time + 1
    have := h.changed_le id
    split <;> omega
  mark_le := h.mark_le
  passes p hp := (h.passes p hp).forward (forward_change htouches)
  newest id := (h.newest id).change htouches
  caught id := by
    rw [unmarked_change]
    by_cases hmem : id ∈ touched
    · exact .inl (.inr hmem)
    · rcases h.caught id with h | h | h
      · exact .inl (.inl h)
      · exact .inr (.inl h)
      · exact .inr (.inr (Nat.le_trans (Nat.le_of_eq (if_neg hmem)) h))

theorem forward_mark {early late : List (List PartitionId)} {touched : List PartitionId}
    (heq : w.unmarked = early ++ touched :: late) :
    Forward w { w with
      unmarked := early ++ late
      partitions := (w.partitions.markPending touched).2 } where
  today := rfl
  markCount := Nat.le_succ _
  valid _ _ h := ⟨h.time_le, h.current⟩
  marks id mark hle hget hmarked := by
    -- The new marks have a number of their own.
    rw [PartitionStore.get?_markPending] at hget
    split at hget
    · cases hget
      omega
    · next hmem =>
      refine ⟨hget, fun ⟨ids, hids, hid⟩ => hmarked ⟨ids, ?_, hid⟩, rfl⟩
      rw [heq] at hids
      rcases List.mem_append.1 hids with hids | hids
      · exact List.mem_append_left _ hids
      · rcases List.mem_cons.1 hids with rfl | hids
        · exact absurd hid hmem
        · exact List.mem_append_right _ hids
  newest _ := Nat.le_refl _

/-- **A mutator marks** what it has touched. -/
theorem Sound.mark (h : w.Sound) {early late : List (List PartitionId)}
    {touched : List PartitionId} (heq : w.unmarked = early ++ touched :: late) :
    Sound { w with
      unmarked := early ++ late
      partitions := (w.partitions.markPending touched).2 } where
  facts := h.facts
  partitions := ⟨h.partitions.tree, h.partitions.manifestName, h.partitions.entries⟩
  reads := h.reads
  changed_le := h.changed_le
  mark_le id mark hget := by
    rw [PartitionStore.get?_markPending] at hget
    split at hget
    · exact Nat.le_of_eq (Option.some.inj hget).symm
    · exact Nat.le_succ_of_le (h.mark_le id mark hget)
  passes p hp := (h.passes p hp).forward (forward_mark heq)
  newest id := ⟨(h.newest id).time_le, (h.newest id).current⟩
  caught id := by
    rw [PartitionStore.get?_markPending]
    -- A partition that was to be marked is marked now; for any other one the change is still
    -- waiting.
    by_cases hmem : id ∈ touched
    · exact .inr (.inl (by rw [if_pos hmem]; rfl))
    · rw [if_neg hmem]
      refine (h.caught id).imp_left fun ⟨ids, hids, hid⟩ => ⟨ids, ?_, hid⟩
      rw [heq] at hids
      rcases List.mem_append.1 hids with hids | hids
      · exact List.mem_append_left _ hids
      · rcases List.mem_cons.1 hids with rfl | hids
        · exact absurd hid hmem
        · exact List.mem_append_right _ hids

/-- Only the passes have gone on. -/
theorem Sound.withPasses (h : w.Sound) {passes : List MigrationPass}
    (hpasses : ∀ p ∈ passes, PassSound { w with passes } p) : Sound { w with passes } where
  facts := h.facts
  partitions := h.partitions
  reads := h.reads
  changed_le := h.changed_le
  mark_le := h.mark_le
  passes := hpasses
  newest id := ⟨(h.newest id).time_le, (h.newest id).current⟩
  caught := h.caught

/-- **A pass begins.** -/
theorem Sound.begin (h : w.Sound) (id : PartitionId) :
    Sound { w with passes := w.passes ++ [{ id, mark := w.partitions.pendingMark? id }] } := by
  refine h.withPasses fun p hp => ?_
  rcases List.mem_append.1 hp with hp | hp
  · exact (h.passes p hp).forward (forward_passes _)
  · obtain rfl := List.mem_singleton.1 hp
    exact {
      mark_le := fun mark hmark => h.mark_le id mark hmark
      valid := nofun
      unchanged := nofun
      written := nofun }

/-- **A pass goes no further.** -/
theorem Sound.stop (h : w.Sound) {early late : List MigrationPass} {p : MigrationPass}
    (heq : w.passes = early ++ p :: late) : Sound { w with passes := early ++ late } := by
  refine h.withPasses ?_
  have hrest := PassSound.forall_of_eq [] h.passes (forward_passes (early ++ late)) heq
    fun _ h => absurd h List.not_mem_nil
  rwa [List.append_nil] at hrest

/-- What a scan finds. -/
theorem scan_eq_ok {facts : FactStore} {id : PartitionId}
    {lines : List FactRecord} (h : Migration.scan facts id = .ok lines) :
    lines = facts.partitionLines id := by
  unfold Migration.scan at h
  split at h
  · next found hscan =>
    obtain ⟨_, -, hscan⟩ := Except.bind_eq_ok.1 hscan
    rw [← Except.ok.inj h, ← Except.ok.inj hscan]
    rfl
  · cases h

/-- **A pass scans the lines.** -/
theorem Sound.scan (h : w.Sound) {early late : List MigrationPass} {id : PartitionId}
    {mark : Option Nat} {lines : List FactRecord} (heq : w.passes = early ++ { id, mark } :: late)
    (hscan : Migration.scan w.facts id = .ok lines) :
    Sound { w with
      passes := early ++ { id, mark, stage := .scanned ⟨w.time, lines⟩ } :: late } := by
  have hlines := scan_eq_ok hscan
  have hpass := h.passes _ (heq ▸ List.mem_append_right _ List.mem_cons_self)
  refine h.withPasses ?_
  have hrest := PassSound.forall_of_eq [{ id, mark, stage := .scanned ⟨w.time, lines⟩ }]
    h.passes (forward_passes (early ++ { id, mark, stage := .scanned ⟨w.time, lines⟩ } :: late)) heq
    fun p hp => ?_
  · rwa [List.append_assoc, List.singleton_append] at hrest
  · obtain rfl := List.mem_singleton.1 hp
    have hscan? : ∀ scan, (⟨id, mark, .scanned ⟨w.time, lines⟩⟩ : MigrationPass).scan? = some scan →
        ⟨w.time, lines⟩ = scan := fun scan => Option.some.inj
    exact {
      mark_le := hpass.mark_le
      valid := fun scan hscan => hscan? scan hscan ▸ ⟨Nat.le_refl _, fun _ => hlines⟩
      unchanged := fun scan _ hscan _ _ _ => hscan? scan hscan ▸ h.changed_le id
      written := nofun }

/-- What of the partition store changes is what can be read, and nothing that the passes rely on. -/
theorem forward_of_becomes {L : List FactRecord → Prop} {s : PartitionStore}
    {read : PartitionId → Except PartitionError (Option (List FactRecord))}
    (hbecomes : PartitionStore.Becomes L w.partitions s read) (passes : List MigrationPass)
    (last : PartitionId → Scan) {newest : PartitionId → Scan} (lists : List (List FactRecord))
    (hnewest : ∀ id, (w.newest id).time ≤ (newest id).time) :
    Forward w { w with partitions := s, passes, last, newest, lists } where
  today := hbecomes.today
  markCount := Nat.le_of_eq hbecomes.markCount.symm
  valid _ _ h := ⟨h.time_le, h.current⟩
  marks id mark _ hget hmarked := by
    refine ⟨?_, hmarked, rfl⟩
    rw [← hbecomes.marks]
    exact hget
  newest := hnewest

/-- How a pass replaces its partition. -/
theorem Sound.replaces (h : w.Sound) {id : PartitionId} {scan : Scan}
    {lists : List (List FactRecord)}
    (hlists : lists = w.lists ++ [canonicalSort (Migration.followed w.partitions id scan.lines)])
    (hL : Storable (· ∈ lists)) :
    PartitionStore.Replaces (· ∈ lists) w.partitions id
      (content (Migration.followed w.partitions id scan.lines))
      (Migration.follow w.partitions id scan.lines) := by
  subst hlists
  have hsound := h.partitions.mono fun lines (hlines : lines ∈ w.lists) =>
    List.mem_append_left [canonicalSort (Migration.followed w.partitions id scan.lines)] hlines
  exact Migration.replaces_follow hL hsound fun _ => List.mem_append_right _ List.mem_cons_self

/-- **A pass writes** what it has found. -/
theorem Sound.write (h : w.Sound) {early late : List MigrationPass} {id : PartitionId}
    {mark : Option Nat} {scan : Scan} {outcome : Migration.Outcome}
    (heq : w.passes = early ++ { id, mark, stage := .scanned scan } :: late)
    (hok : (Migration.follow w.partitions id scan.lines).1 = .ok outcome)
    {lists : List (List FactRecord)}
    (hlists : lists = w.lists ++ [canonicalSort (Migration.followed w.partitions id scan.lines)])
    (hL : Storable (· ∈ lists)) :
    Sound { w with
      partitions := (Migration.follow w.partitions id scan.lines).2
      passes := early ++ { id, mark, stage := .written scan } :: late
      last := Function.update w.last id scan
      newest := Function.update w.newest id (newer (w.newest id) scan)
      lists } := by
  have hpass := h.passes _ (heq ▸ List.mem_append_right _ List.mem_cons_self)
  have hbecomes := (h.replaces hlists hL).of_ok hok
  -- The newest scan of a partition is never replaced by an older one.
  have hnewest : ∀ id', (w.newest id').time ≤
      (Function.update w.newest id (newer (w.newest id) scan) id').time := by
    intro id'
    rw [Function.update_apply]
    split
    · next heq => exact heq ▸ (time_le_newer _ _).1
    · exact Nat.le_refl _
  have hf := forward_of_becomes hbecomes (early ++ { id, mark, stage := .written scan } :: late)
    (Function.update w.last id scan) lists hnewest
  refine {
    facts := h.facts
    partitions := hbecomes.sound
    reads := fun id' hclosed => ?_
    changed_le := h.changed_le
    mark_le := fun id' mark' hget => ?_
    passes := ?_
    newest := fun id' => ?_
    caught := fun id' => ?_ }
  · rw [PartitionStore.isClosed, hbecomes.today] at hclosed
    refine (hbecomes.reads id').trans ?_
    show _ = Except.ok (content (Function.update w.last id scan id').lines)
    rw [Function.update_apply, Function.update_apply]
    split
    · next heq =>
      subst heq
      rw [Migration.followed_of_isClosed hclosed]
    · exact h.reads id' hclosed
  · rw [hbecomes.marks] at hget
    exact Nat.le_trans (h.mark_le id' mark' hget) hf.markCount
  · have hrest := PassSound.forall_of_eq [{ id, mark, stage := .written scan }]
      h.passes hf heq fun p hmem => ?_
    · rwa [List.append_assoc, List.singleton_append] at hrest
    · obtain rfl := List.mem_singleton.1 hmem
      have hsame := hpass.forward hf
      exact { hsame with
        written := fun written hwritten => by
          cases hwritten
          show scan.time ≤ (Function.update w.newest id (newer (w.newest id) scan) id).time
          rw [Function.update_self]
          exact (time_le_newer _ _).2 }
  · show Valid _ id' (Function.update w.newest id (newer (w.newest id) scan) id')
    rw [Function.update_apply]
    split
    · next heq =>
      subst heq
      refine hf.valid _ _ ?_
      unfold newer
      split
      · exact hpass.valid scan rfl
      · exact h.newest id'
    · exact hf.valid _ _ (h.newest id')
  · refine (h.caught id').imp_right (Or.imp ?_ fun hle => Nat.le_trans hle (hnewest id'))
    rw [hbecomes.marks]
    exact fun h => h

/-- **A pass fails to write.** -/
theorem Sound.fail (h : w.Sound) {early late : List MigrationPass} {id : PartitionId}
    {mark : Option Nat} {scan : Scan} {error : PartitionError}
    (heq : w.passes = early ++ { id, mark, stage := .scanned scan } :: late)
    (herror : (Migration.follow w.partitions id scan.lines).1 = .error error)
    {lists : List (List FactRecord)}
    (hlists : lists = w.lists ++ [canonicalSort (Migration.followed w.partitions id scan.lines)])
    (hL : Storable (· ∈ lists)) :
    Sound { w with
      partitions := (Migration.follow w.partitions id scan.lines).2
      passes := early ++ late
      lists } := by
  have hbecomes := (h.replaces hlists hL).of_error herror
  have hf := forward_of_becomes hbecomes (early ++ late) w.last lists fun _ => Nat.le_refl _
  refine {
    facts := h.facts
    partitions := hbecomes.sound
    reads := fun id' hclosed => ?_
    changed_le := h.changed_le
    mark_le := fun id' mark' hget => ?_
    passes := ?_
    newest := fun id' => hf.valid _ _ (h.newest id')
    caught := fun id' => ?_ }
  · rw [PartitionStore.isClosed, hbecomes.today] at hclosed
    exact (hbecomes.reads id').trans (h.reads id' hclosed)
  · rw [hbecomes.marks] at hget
    exact Nat.le_trans (h.mark_le id' mark' hget) hf.markCount
  · have hrest := PassSound.forall_of_eq [] h.passes hf heq
      fun _ h => absurd h List.not_mem_nil
    rwa [List.append_nil] at hrest
  · refine (h.caught id').imp_right (Or.imp_left ?_)
    rw [hbecomes.marks]
    exact fun h => h

theorem forward_clear (id : PartitionId) (mark : Option Nat) (passes : List MigrationPass) :
    Forward w { w with partitions := (w.partitions.clearPending id mark).2, passes } where
  today := PartitionStore.today_clearPending _ _ _
  markCount := by
    unfold PartitionStore.clearPending
    split <;> exact Nat.le_refl _
  valid _ _ h := ⟨h.time_le, h.current⟩
  marks id' mark' _ hget hmarked := by
    rw [PartitionStore.get?_clearPending] at hget
    split at hget
    · cases hget
    · exact ⟨hget, hmarked, rfl⟩
  newest _ := Nat.le_refl _

/-- **A pass clears the mark.** -/
theorem Sound.clear (h : w.Sound) {early late : List MigrationPass} {id : PartitionId}
    {mark : Option Nat} {scan : Scan}
    (heq : w.passes = early ++ { id, mark, stage := .written scan } :: late) :
    Sound { w with
      partitions := (w.partitions.clearPending id mark).2
      passes := early ++ late } := by
  have hpass := h.passes _ (heq ▸ List.mem_append_right _ List.mem_cons_self)
  have hf := forward_clear (w := w) id mark (early ++ late)
  refine {
    facts := h.facts
    partitions := h.partitions.clearPending id mark
    reads := fun id' hclosed => ?_
    changed_le := h.changed_le
    mark_le := fun id' mark' hget => ?_
    passes := ?_
    newest := fun id' => hf.valid _ _ (h.newest id')
    caught := fun id' => ?_ }
  · rw [PartitionStore.isClosed, hf.today] at hclosed
    rw [PartitionStore.readPartition_clearPending]
    exact h.reads id' hclosed
  · rw [PartitionStore.get?_clearPending] at hget
    split at hget
    · cases hget
    · exact Nat.le_trans (h.mark_le id' mark' hget) hf.markCount
  · have hrest := PassSound.forall_of_eq [] h.passes hf heq
      fun _ h => absurd h List.not_mem_nil
    rwa [List.append_nil] at hrest
  · rw [PartitionStore.get?_clearPending]
    split
    · next hcleared =>
      -- The mark is the one that was read, so the scan that was written is up to date.
      obtain ⟨rfl, hsome, hget⟩ := hcleared
      obtain ⟨number, rfl⟩ := Option.isSome_iff_exists.1 hsome
      by_cases hunmarked : w.Unmarked id'
      · exact .inl hunmarked
      · exact .inr (.inr (Nat.le_trans (hpass.unchanged scan number rfl rfl hget hunmarked)
          (hpass.written scan rfl)))
    · exact h.caught id'

/-! ### Runs -/

/-- The lists that were written are not forgotten. -/
theorem Step.lists_subset (h : Step w w') : ∀ lines ∈ w.lists, lines ∈ w'.lists := by
  intro lines hlines
  cases h with
  | write => exact List.mem_append_left _ hlines
  | fail => exact List.mem_append_left _ hlines
  | _ => exact hlines

theorem Sound.step (h : w.Sound) (hstep : Step w w') (hL : Storable (· ∈ w'.lists)) : w'.Sound := by
  cases hstep with
  | change hchange htouches => exact h.change hchange htouches
  | mark heq => exact h.mark heq
  | begin id => exact h.begin id
  | scan heq hscan => exact h.scan heq hscan
  | write heq hok => exact h.write heq hok rfl hL
  | fail heq herror => exact h.fail heq herror rfl hL
  | clear heq => exact h.clear heq
  | stop heq => exact h.stop heq

/-- A partition store in which nothing is stored and nothing is pending. -/
structure IsNew (s : PartitionStore) : Prop where
  /-- The tree of the folder hangs together. -/
  tree : s.folder.Tree
  /-- The name of the manifest is not one that a file with a table may have. -/
  manifestName : ∀ name, s.manifestPath.getLast? = some name → ¬PartitionStore.IsTableName name
  /-- Nothing is stored. -/
  manifest : s.manifest = .empty
  /-- Nothing is pending. -/
  marks : s.marks = .empty

theorem IsNew.sound {s : PartitionStore} (hs : IsNew s) : Sound { partitions := s } where
  facts := .empty
  partitions := ⟨hs.tree, hs.manifestName, fun id e hget => by rw [hs.manifest] at hget; cases hget⟩
  reads id _ := by
    unfold PartitionStore.readPartition
    simp only [hs.manifest, SortedMap.get?_empty]
    rfl
  changed_le _ := Nat.le_refl _
  mark_le id mark hget := by
    rw [hs.marks] at hget
    cases hget
  passes _ h := absurd h List.not_mem_nil
  newest _ := ⟨Nat.le_refl _, fun _ => rfl⟩
  caught _ := .inr (.inr (Nat.le_refl _))

/-- **Every point that can be reached is in order**, if what was written may be stored. -/
theorem Reachable.sound {s : PartitionStore} (hs : IsNew s) (h : Reachable s w)
    (hL : Storable (· ∈ w.lists)) : w.Sound := by
  induction h with
  | start => exact hs.sound
  | step _ hstep ih => exact (ih (hL.mono hstep.lists_subset)).step hstep hL

end MigrationWorld

end RetailReport
