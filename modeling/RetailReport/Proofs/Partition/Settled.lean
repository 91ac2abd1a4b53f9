import RetailReport.Proofs.Fact.Admission
import RetailReport.Proofs.Partition.Following
import RetailReport.Proofs.Partition.Layout

/-!
# Partitions that a pass leaves as they are

A partition that has had its turn either holds what it is to hold and is not pending, or it is refused:
its lines cannot be written, and it is reported as failed.  Neither has anything to gain from one more
turn.  What it is to hold then is what it was to hold before, since lines that are appended to a
partition are not appended again; the same lines have the same order and the same hash, so they are
found unchanged; and what was refused once is refused again, without any trace but the directory that
was created the first time.

## Main definitions

* `Migration.UpToDate`, `Migration.Refused`: what a turn leaves behind.
* `Migration.Settled`: some partitions have had their turns.

## Main results

* `Migration.migrateOne_eq`: the turn of one partition is a replacement.
* `Migration.Settled.step`: one more turn; `Migration.settled_visit`: all of them.
* `Migration.pass_pass`: **a pass right after another one** changes nothing.
-/

namespace RetailReport

open PartitionStore Migration

/-! ### Lines that are stored already -/

/-- Lines in order stay as they are. -/
theorem canonicalSort_canonicalSort (l : List FactRecord) :
    canonicalSort (canonicalSort l) = canonicalSort l :=
  List.mergeSort_of_pairwise ((pairwise_canonicalSort l).imp fun h => by simpa using h)

theorem content_canonicalSort (l : List FactRecord) : content (canonicalSort l) = content l := by
  rw [content, content, isEmpty_canonicalSort, canonicalSort_canonicalSort]

/-- The number of partitions that were found unchanged is of no consequence. -/
theorem PartitionStore.Sound.counted {s : PartitionStore} {L : List FactRecord → Prop}
    (hs : s.Sound L) (n : Nat) : Sound L { s with unchangedCount := n } :=
  ⟨hs.tree, hs.manifestName, hs.entries⟩

namespace Migration

variable {s t : PartitionStore} {L : List FactRecord → Prop} {path : FolderPath}
  {id id' : PartitionId} {lines : List FactRecord} {facts : FactStore} {ids : List PartitionId}

/-- **Following lines means replacing the partition.** -/
theorem follow_eq (hs : s.Sound L) (hown : ∀ f ∈ lines, id.holds f = true) :
    follow s id lines =
      ((s.replace id (followed s id lines)).1.map (outcomeOf lines (s.manifest.contains id)),
        (s.replace id (followed s id lines)).2) := by
  obtain ⟨_, -, hcheck | hunread, -⟩ | ⟨-, heq⟩ := follow_cases s id lines
  · rw [checkFacts_eq_ok.2 hown] at hcheck
    cases hcheck
  · obtain ⟨stored, hread, -⟩ := hs.exists_stored id
    rw [storedFacts_of_readPartition hread] at hunread
    cases hunread
  · exact heq

/-- **Following the same lines again** means holding the same. -/
theorem content_followed_again (hs : s.Sound L) (htoday : t.today = s.today)
    (hread : t.readPartition id = .ok (content (followed s id lines)))
    (hid : (lines.map (·.recordId)).Nodup) :
    content (followed t id lines) = content (followed s id lines) := by
  have hclosed : t.isClosed id.date = s.isClosed id.date := by rw [isClosed, isClosed, htoday]
  by_cases hplain : lines.isEmpty || s.isClosed id.date
  · unfold followed
    rw [hclosed, if_pos hplain, if_pos hplain]
  · rw [Bool.or_eq_true, not_or, Bool.not_eq_true, Bool.not_eq_true] at hplain
    have hlines : lines ≠ [] := fun hnil => by simp [hnil] at hplain
    obtain ⟨stored, hstored, -⟩ := hs.exists_stored id
    have hfollowed := followed_eq hstored hplain.2 hlines hid
    -- Whatever is followed is among what is stored then.
    have hids : ∀ f ∈ lines, f.recordId ∈ (followed s id lines).map (·.recordId) := by
      intro f hf
      rw [hfollowed, List.map_append, List.mem_append]
      by_cases htaken : f.recordId ∈ (stored.getD []).map (·.recordId)
      · exact .inl htaken
      · exact .inr (List.mem_map_of_mem (List.mem_filter.2 ⟨hf, decide_eq_true htaken⟩))
    have hsome : followed s id lines ≠ [] := by
      intro hnil
      obtain ⟨f, hf⟩ := List.exists_mem_of_ne_nil _ hlines
      have hmem := hids f hf
      rw [hnil] at hmem
      cases hmem
    rw [content_of_ne_nil hsome] at hread ⊢
    rw [followed_eq hread (hclosed.trans hplain.2) hlines hid, Option.getD_some]
    have hnone : lines.filter (fun f =>
        f.recordId ∉ (canonicalSort (followed s id lines)).map (·.recordId)) = [] := by
      refine List.filter_eq_nil_iff.2 fun f hf => ?_
      rw [decide_eq_true_eq, not_not]
      exact ((List.mergeSort_perm _ _).map _).mem_iff.2 (hids f hf)
    rw [hnone, List.append_nil, content_canonicalSort, content_of_ne_nil hsome]

/-! ### Partitions that a turn leaves as they are -/

/-- **A partition is up to date**: it holds what it is to hold, and it is not pending. -/
structure UpToDate (facts : FactStore) (s : PartitionStore) (id : PartitionId) : Prop where
  /-- What it holds. -/
  reads : s.readPartition id = .ok (content (followed s id (facts.partitionLines id)))
  /-- It is not pending. -/
  mark : s.marks.get? id = none

/-- **A partition is refused**: it is to hold lines that it does not hold and that cannot be
written. -/
structure Refused (facts : FactStore) (s : PartitionStore) (id : PartitionId) : Prop where
  /-- There are lines. -/
  nonempty : followed s id (facts.partitionLines id) ≠ []
  /-- It does not hold them. -/
  reads : s.readPartition id ≠ .ok (some (canonicalSort (followed s id (facts.partitionLines id))))
  /-- They cannot be written. -/
  notWritable : ¬Writable id (canonicalSort (followed s id (facts.partitionLines id)))

theorem UpToDate.counted (h : UpToDate facts s id) (n : Nat) :
    UpToDate facts { s with unchangedCount := n } id := ⟨h.reads, h.mark⟩

theorem Refused.congr (h : Refused facts s id) (hs : s.Sound L) (htoday : t.today = s.today)
    (hread : t.readPartition id = s.readPartition id) : Refused facts t id := by
  have hfollowed := followed_congr hs htoday hread (facts.partitionLines id)
  exact ⟨hfollowed ▸ h.nonempty, by rw [hfollowed, hread]; exact h.reads,
    hfollowed ▸ h.notWritable⟩

/-! ### One partition -/

/-- What a migration does to one partition: it replaces it, or reports it as failed. -/
theorem migrateOne_eq (hs : s.Sound L) (hfacts : facts.Consistent)
    (havailable : facts.available = true) (r : MigrationReport) :
    migrateOne facts (s, r) id =
      match s.replace id (followed s id (facts.partitionLines id)) with
      | (.ok ref, t) => ((t.clearPending id (s.marks.get? id)).2,
          report r (outcomeOf (facts.partitionLines id) (s.manifest.contains id) ref)
            (t.entry? id).isSome)
      | (.error _, t) => (t, { r with failed := r.failed ++ [id] }) := by
  have hown : ∀ f ∈ facts.partitionLines id, id.holds f = true :=
    fun _ hf => hfacts.holds_of_mem_partitionLines hf
  unfold migrateOne
  simp only [scan_of_available havailable, follow_eq hs hown]
  rcases s.replace id (followed s id (facts.partitionLines id)) with ⟨outcome, t⟩
  cases outcome <;> rfl

/-- Replacing a partition by what it holds changes nothing. -/
theorem replace_of_readPartition (hs : s.Sound L)
    (hread : s.readPartition id = .ok (content lines)) :
    ∃ ref n, s.replace id lines = (.ok ref, { s with unchangedCount := n }) ∧
      ref.written = false ∧ (lines = [] → s.manifest.contains id = false) := by
  cases hget : s.manifest.get? id with
  | none =>
    have hnil : lines = [] := by
      by_contra hsome
      unfold PartitionStore.readPartition at hread
      simp only [hget, content_of_ne_nil hsome] at hread
      cases hread
    have hcontains : s.manifest.contains id = false := by
      rw [SortedMap.contains, hget]
      rfl
    rw [hnil, replace_nil, drop]
    simp only [hget]
    exact ⟨_, s.unchangedCount, rfl, rfl, fun _ => hcontains⟩
  | some e =>
    obtain ⟨stored, hstored⟩ := hs.entries id e hget
    rw [hstored.readPartition hget, Except.ok.injEq] at hread
    obtain ⟨rfl, -⟩ | ⟨hsome, ⟨_, ref, -, hwritten, heq⟩ | ⟨hchanged, -⟩⟩ := s.replace_cases id lines
    · cases hread
    · exact ⟨ref, _, heq, hwritten, fun hnil => absurd hnil hsome⟩
    · rw [content_of_ne_nil hsome] at hread
      exact absurd ((hstored.readPartition hget).trans (congrArg Except.ok hread))
        (hs.readPartition_ne hchanged)

/-- **A partition that is up to date** is found unchanged. -/
theorem UpToDate.migrateOne (h : UpToDate facts s id) (hs : s.Sound L) (hfacts : facts.Consistent)
    (havailable : facts.available = true) (r : MigrationReport) :
    ∃ n m, migrateOne facts (s, r) id =
      ({ s with unchangedCount := n }, { r with unchanged := m }) := by
  obtain ⟨ref, n, hreplace, hwritten, hnone⟩ := replace_of_readPartition hs h.reads
  have hkept : outcomeOf (facts.partitionLines id) (s.manifest.contains id) ref = .kept := by
    unfold outcomeOf Outcome.ofRef
    rw [hwritten, if_neg Bool.false_ne_true]
    split
    · next hempty =>
      have hfollowed : followed s id (facts.partitionLines id) = [] := by
        rw [List.isEmpty_iff.1 hempty, followed_nil]
      rw [hnone hfollowed, if_neg Bool.false_ne_true]
    · rfl
  rw [migrateOne_eq hs hfacts havailable, hreplace]
  simp only [hkept, h.mark, clearPending, Option.isSome_none, Bool.false_eq_true, false_and,
    if_false, report]
  split
  · exact ⟨n, _, rfl⟩
  · exact ⟨n, r.unchanged, rfl⟩

/-- **A partition that is refused** is reported as failed; if its store has got its directory,
nothing changes. -/
theorem Refused.migrateOne (h : Refused facts s id) (hL : Storable L) (hs : s.Sound L)
    (hlaid : LaidOut path s) (hpath : KeptApart path) (hhoused : Housed s.folder id.storeId)
    (hfacts : facts.Consistent) (havailable : facts.available = true)
    (hallowed : L (canonicalSort (followed s id (facts.partitionLines id)))) (r : MigrationReport) :
    migrateOne facts (s, r) id = (s, { r with failed := r.failed ++ [id] }) := by
  have hchanged : s.unchanged? id
      (contentHash (canonicalSort (followed s id (facts.partitionLines id)))) = none := by
    rw [Option.eq_none_iff_forall_ne_some]
    intro e he
    obtain ⟨hget, hsame⟩ := Option.filter_eq_some_iff.1 he
    obtain ⟨stored, hstored⟩ := hs.entries id e hget
    have hhash := of_decide_eq_true (Bool.and_eq_true_iff.1 hsame).1
    refine h.reads ?_
    rw [hstored.readPartition hget,
      hL.apart _ _ hstored.allowed hallowed (hstored.hash.symm.trans hhash)]
  obtain ⟨error, hreplace⟩ :=
    hlaid.replace_again hpath h.nonempty hchanged h.notWritable hhoused
  rw [migrateOne_eq hs hfacts havailable, hreplace]

/-- **The turn of one partition**: its mark goes, or it is reported as failed, and refused. -/
theorem turn_migrateOne (hL : Storable L) (hs : s.Sound L) (hlaid : LaidOut path s)
    (hpath : KeptApart path) (hfacts : facts.Consistent) (havailable : facts.available = true)
    (hallowed : L (canonicalSort (followed s id (facts.partitionLines id)))) (r : MigrationReport) :
    Expands path s (migrateOne facts (s, r) id).1 ∧
      (∀ id', id' ≠ id → (migrateOne facts (s, r) id).1.marks.get? id' = s.marks.get? id') ∧
      ((migrateOne facts (s, r) id).2.failed = r.failed ∧
          (migrateOne facts (s, r) id).1.marks.get? id = none ∨
        (migrateOne facts (s, r) id).2.failed = r.failed ++ [id] ∧ Refused facts s id ∧
          Housed (migrateOne facts (s, r) id).1.folder id.storeId) := by
  have hown : ∀ f ∈ facts.partitionLines id, id.holds f = true :=
    fun _ hf => hfacts.holds_of_mem_partitionLines hf
  have hfollow : Replaces L s id (content (followed s id (facts.partitionLines id)))
      (follow s id (facts.partitionLines id)) := replaces_follow hL hs fun _ => hallowed
  rw [follow_eq hs hown] at hfollow
  rw [migrateOne_eq hs hfacts havailable]
  -- A replacement either succeeds, and the mark goes, or it is refused, and the mark stays.
  obtain ⟨⟨ref, hok⟩, hexpands⟩ | ⟨hsome, hchanged, hnot, hrefuses⟩ :=
    hlaid.replace hpath id (followed s id (facts.partitionLines id))
  · have hmarks := (hfollow.of_ok (congrArg (Except.map _) hok)).marks
    generalize s.replace id (followed s id (facts.partitionLines id)) = step at *
    obtain ⟨_, t⟩ := step
    cases hok
    dsimp only at hmarks hexpands ⊢
    refine ⟨?_, ?_, .inl ⟨failed_report .., ?_⟩⟩
    · unfold clearPending
      split
      · exact ⟨hexpands.manifestPath, hexpands.grows⟩
      · exact hexpands
    · intro id' hne
      rw [get?_clearPending, if_neg fun h => hne h.1, hmarks]
    · rw [get?_clearPending, hmarks]
      cases s.marks.get? id with
      | none => rw [if_neg fun h => Bool.false_ne_true h.2.1]
      | some mark => rw [if_pos ⟨rfl, rfl, rfl⟩]
  · obtain ⟨error, herror⟩ := hrefuses.error
    have hmarks := (hfollow.of_error (congrArg (Except.map _) herror)).marks
    have hrefused : Refused facts s id := ⟨hsome, hs.readPartition_ne hchanged, hnot⟩
    generalize s.replace id (followed s id (facts.partitionLines id)) = step at *
    obtain ⟨_, t⟩ := step
    cases herror
    have heq : t = { s with folder := t.folder } := hrefuses.eq_folder
    have hmanifest : t.manifestPath = path := by
      rw [heq]
      exact hlaid.manifestPath
    exact ⟨⟨hmanifest, hrefuses.grows⟩, fun id' _ => congrArg (·.get? id') hmarks,
      .inr ⟨rfl, hrefused, hrefuses.housed⟩⟩

/-! ### Several partitions -/

variable {failed : List PartitionId} {includeOpen : Bool} {live : KeySet PartitionId}

/-- **Some partitions have had their turns**: they follow their lines and are not pending, or they
are reported as failed and are refused. -/
structure Settled (L : List FactRecord → Prop) (path : FolderPath) (facts : FactStore)
    (s : PartitionStore) (ids : List PartitionId) (t : PartitionStore) (failed : List PartitionId) :
    Prop extends Migrated L facts s ids t failed where
  /-- Those that have failed are reported in their order. -/
  sublist : failed.Sublist ids
  /-- The store is laid out, with all of its directories. -/
  expands : Expands path s t
  /-- The other partitions have the marks that they had before. -/
  marks : ∀ id, id ∉ ids → t.marks.get? id = s.marks.get? id
  /-- Those that have not failed are not pending. -/
  unmarked : ∀ id ∈ ids, id ∉ failed → t.marks.get? id = none
  /-- Those that have failed are refused, and their stores have got their directories. -/
  refused : ∀ id ∈ failed, Refused facts s id ∧ Housed t.folder id.storeId

theorem settled_nil (hs : s.Sound L) (hlaid : LaidOut path s) (facts : FactStore) :
    Settled L path facts s [] s [] where
  toMigrated := migrated_nil hs facts
  sublist := .slnil
  expands := hlaid.expands_self
  marks _ _ := rfl
  unmarked _ h := absurd h List.not_mem_nil
  refused _ h := absurd h List.not_mem_nil

/-- **One more turn.** -/
theorem Settled.step (h : Settled L path facts s ids t failed) (hL : Storable L) (hs : s.Sound L)
    (hpath : KeptApart path) (hfacts : facts.Consistent) (havailable : facts.available = true)
    (hid : id ∉ ids) (hallowed : ∀ l ∈ attempts facts s (ids ++ [id]), L l) {r : MigrationReport}
    (hr : r.failed = failed) :
    Settled L path facts s (ids ++ [id]) (migrateOne facts (t, r) id).1
      (migrateOne facts (t, r) id).2.failed := by
  have hread := h.kept id (.inl hid)
  have hnext : L (canonicalSort (followed t id (facts.partitionLines id))) := by
    rw [followed_congr hs h.today hread]
    exact hallowed _ (mem_attempts.2 ⟨havailable, id, by simp, rfl⟩)
  have hmigrated := h.toMigrated.step hL hs hfacts hid hallowed hr
  obtain ⟨hexpands, hmarks, hcases⟩ :=
    turn_migrateOne hL h.sound h.expands.laidOut hpath hfacts havailable hnext r
  generalize migrateOne facts (t, r) id = step at hmigrated hexpands hmarks hcases
  -- The marks of all other partitions are as they were, whatever comes of this turn.
  have hothers : ∀ id', id' ∉ ids ++ [id] → step.1.marks.get? id' = s.marks.get? id' := by
    intro id' hnot
    rw [List.mem_append, not_or, List.mem_singleton] at hnot
    rw [hmarks id' hnot.2, h.marks id' hnot.1]
  have hbefore : ∀ id' ∈ ids, id' ∉ failed → step.1.marks.get? id' = none := by
    intro id' hmem hnot
    rw [hmarks id' fun he => hid (he ▸ hmem), h.unmarked id' hmem hnot]
  have hrefused : ∀ id' ∈ failed, Refused facts s id' ∧ Housed step.1.folder id'.storeId :=
    fun id' hmem => (h.refused id' hmem).imp_right hexpands.housed
  have hexpands' : Expands path s step.1 :=
    ⟨hexpands.manifestPath, h.expands.grows.trans hexpands.grows⟩
  rw [hr] at hcases
  obtain ⟨hfailed, hmark⟩ | ⟨hfailed, hnow, hhoused⟩ := hcases
  · rw [hfailed] at hmigrated ⊢
    refine ⟨hmigrated, h.sublist.trans (List.sublist_append_left _ _), hexpands', hothers, ?_,
      hrefused⟩
    intro id' hmem hnot
    rcases List.mem_append.1 hmem with hmem | hmem
    · exact hbefore id' hmem hnot
    · exact List.mem_singleton.1 hmem ▸ hmark
  · rw [hfailed] at hmigrated ⊢
    refine ⟨hmigrated, h.sublist.append (.refl _), hexpands', hothers, ?_, ?_⟩
    · intro id' hmem hnot
      rw [List.mem_append, not_or] at hnot
      exact hbefore id' ((List.mem_append.1 hmem).resolve_right hnot.2) hnot.1
    · intro id' hmem
      rcases List.mem_append.1 hmem with hmem | hmem
      · exact hrefused id' hmem
      · rw [List.mem_singleton.1 hmem]
        exact ⟨hnow.congr h.sound h.today.symm hread.symm, hhoused⟩

/-- What has not failed is up to date. -/
theorem Settled.upToDate (h : Settled L path facts s ids t failed) (hs : s.Sound L)
    (hfacts : facts.Consistent) (hid : id ∈ ids) (hnot : id ∉ failed) : UpToDate facts t id := by
  have hread := h.follows id hid hnot
  refine ⟨?_, h.unmarked id hid hnot⟩
  rw [hread, content_followed_again hs h.today hread (hfacts.nodup_partitionLines id)]

theorem skippedOpen_report (r : MigrationReport) (o : Outcome) (stored : Bool) :
    (report r o stored).skippedOpen = r.skippedOpen := by
  cases o with
  | written | removed => rfl
  | kept => cases stored <;> rfl

theorem skippedOpen_migrateOne (facts : FactStore) (step : PartitionStore × MigrationReport)
    (id : PartitionId) : (migrateOne facts step id).2.skippedOpen = step.2.skippedOpen := by
  obtain ⟨s, r⟩ := step
  obtain ⟨_, heq, -⟩ | ⟨_, _, _, -, -, heq⟩ := turn_cases facts s r id
  · rw [heq]
  · rw [heq]
    exact skippedOpen_report ..

/-- **Partitions have their turns one after the other**, unless they are passed over. -/
theorem settled_visit (hL : Storable L) (hs : s.Sound L) (hlaid : LaidOut path s)
    (hpath : KeptApart path) (hfacts : facts.Consistent) (havailable : facts.available = true)
    (hids : ids.Nodup)
    (hallowed : ∀ l ∈ attempts facts s (ids.filter fun id => !skips includeOpen live s id), L l) :
    Settled L path facts s (ids.filter fun id => !skips includeOpen live s id)
        (ids.foldl (visit facts includeOpen live) (s, {})).1
        (ids.foldl (visit facts includeOpen live) (s, {})).2.failed ∧
      (ids.foldl (visit facts includeOpen live) (s, {})).2.skippedOpen =
        ids.countP (skips includeOpen live s) := by
  induction ids using List.reverseRecOn with
  | nil => exact ⟨settled_nil hs hlaid facts, rfl⟩
  | append_singleton ids id ih =>
    obtain ⟨hnodup, -, hdisjoint⟩ := List.nodup_append'.1 hids
    have hid : id ∉ ids := fun hmem => hdisjoint hmem List.mem_cons_self
    rw [List.filter_append] at hallowed ⊢
    obtain ⟨hbefore, hcount⟩ := ih hnodup fun l hl => hallowed l (attempts_append_left hl)
    rw [List.foldl_append, List.countP_append]
    generalize ids.foldl (visit facts includeOpen live) (s, {}) = step at hbefore hcount ⊢
    obtain ⟨t, r⟩ := step
    simp only [List.foldl_cons, List.foldl_nil, List.countP_singleton]
    cases hskip : skips includeOpen live s id with
    | true =>
      rw [visit_of_skips ((skips_congr hbefore.today).trans hskip),
        List.filter_cons_of_neg (by simp [hskip]), List.filter_nil, List.append_nil]
      exact ⟨hbefore, congrArg (· + 1) hcount⟩
    | false =>
      rw [List.filter_cons_of_pos (by simp [hskip]), List.filter_nil] at hallowed ⊢
      rw [visit_of_not_skips ((skips_congr hbefore.today).trans hskip), skippedOpen_migrateOne]
      exact ⟨hbefore.step hL hs hpath hfacts havailable
        (fun hmem => hid (List.mem_filter.1 hmem).1) hallowed rfl, hcount⟩

/-! ### Turns that change nothing -/

/-- **What one more turn finds**: the partition is passed over, it is up to date, or it is refused. -/
inductive Again (L : List FactRecord → Prop) (facts : FactStore) (includeOpen : Bool)
    (live : KeySet PartitionId) (s : PartitionStore) (failed : List PartitionId) (id : PartitionId) :
    Prop
  /-- Its day is not over. -/
  | skipped : skips includeOpen live s id = true → id ∉ failed →
      Again L facts includeOpen live s failed id
  /-- It is up to date. -/
  | upToDate : skips includeOpen live s id = false → UpToDate facts s id → id ∉ failed →
      Again L facts includeOpen live s failed id
  /-- It is refused. -/
  | refused : skips includeOpen live s id = false → Refused facts s id →
      Housed s.folder id.storeId → L (canonicalSort (followed s id (facts.partitionLines id))) →
      id ∈ failed → Again L facts includeOpen live s failed id

/-- **Partitions have one more turn**: nothing changes, and those that are refused are reported as
failed again. -/
theorem foldl_visit_again (hL : Storable L) (hs : s.Sound L) (hlaid : LaidOut path s)
    (hpath : KeptApart path) (hfacts : facts.Consistent) (havailable : facts.available = true)
    (hids : ∀ id ∈ ids, Again L facts includeOpen live s failed id) :
    ∃ n m, ids.foldl (visit facts includeOpen live) (s, {}) =
      ({ s with unchangedCount := n },
        { unchanged := m, skippedOpen := ids.countP (skips includeOpen live s)
          failed := ids.filter (· ∈ failed) }) := by
  induction ids using List.reverseRecOn with
  | nil => exact ⟨s.unchangedCount, 0, rfl⟩
  | append_singleton ids id ih =>
    obtain ⟨n, m, hfold⟩ := ih fun id' h => hids id' (List.mem_append_left _ h)
    rw [List.foldl_append, hfold, List.countP_append, List.filter_append]
    simp only [List.foldl_cons, List.foldl_nil, List.countP_singleton]
    have hs' := hs.counted n
    have hskips : skips includeOpen live { s with unchangedCount := n } id =
        skips includeOpen live s id := rfl
    -- A partition that was passed over, is up to date or is refused, each stays so.
    cases hids id (List.mem_append_right _ List.mem_cons_self) with
    | skipped hskip hnot =>
      rw [visit_of_skips (hskips.trans hskip), hskip, List.filter_cons_of_neg (by simpa using hnot),
        List.filter_nil, List.append_nil]
      exact ⟨n, m, rfl⟩
    | upToDate hskip hupToDate hnot =>
      rw [visit_of_not_skips (hskips.trans hskip), hskip,
        List.filter_cons_of_neg (by simpa using hnot), List.filter_nil, List.append_nil]
      exact (hupToDate.counted n).migrateOne hs' hfacts havailable _
    | refused hskip hrefused hhoused hallowed hmem =>
      have hrefused' : Refused facts { s with unchangedCount := n } id := hrefused.congr hs rfl rfl
      have hsame : followed { s with unchangedCount := n } id (facts.partitionLines id) =
          followed s id (facts.partitionLines id) := followed_congr hs rfl rfl _
      rw [visit_of_not_skips (hskips.trans hskip), hskip,
        List.filter_cons_of_pos (by simpa using hmem), List.filter_nil]
      exact ⟨n, m, hrefused'.migrateOne hL hs' ⟨hlaid.manifestPath, hlaid.folder⟩ hpath hhoused
        hfacts havailable (hsame ▸ hallowed) _⟩

/-! ### Passes -/

theorem livePartitions_of_unavailable (h : facts.available = false) :
    ∃ error, livePartitions facts = .error error := by
  unfold livePartitions FactStore.partitionKeys
  rw [FactStore.check_of_not_available h]
  exact ⟨_, rfl⟩

/-- **The partitions that have lines** are found. -/
theorem livePartitions_of_available (h : facts.available = true) :
    ∃ live, livePartitions facts = .ok live ∧
      ∀ id, id ∈ live.members ↔ facts.partitionLines id ≠ [] := by
  have hkeys : facts.partitionKeys = .ok facts.byStore.keys := by
    rw [FactStore.partitionKeys, FactStore.check_of_available h]
    rfl
  have hdates : ∀ store, facts.partitionDates store =
      .ok (KeySet.ofList ((facts.linesOf store).map (·.date))).members := by
    intro store
    rw [FactStore.partitionDates, FactStore.check_of_available h]
    rfl
  have hids : facts.byStore.keys.mapM (fun store => do
        let dates ← facts.partitionDates store
        return dates.map (PartitionId.mk store)) =
      .ok (facts.byStore.keys.map fun store =>
        (KeySet.ofList ((facts.linesOf store).map (·.date))).members.map (PartitionId.mk store)) :=
    List.mapM_eq_ok_map fun store _ => by
      rw [hdates]
      rfl
  refine ⟨KeySet.ofList (facts.byStore.keys.map fun store =>
    (KeySet.ofList ((facts.linesOf store).map (·.date))).members.map (PartitionId.mk store)).flatten,
    ?_, fun id => ?_⟩
  · unfold livePartitions
    rw [hkeys]
    exact Except.bind_eq_ok.2 ⟨_, rfl, Except.bind_eq_ok.2 ⟨_, hids, rfl⟩⟩
  · obtain ⟨store, date⟩ := id
    -- A store that has lines is one of those that are gone over.
    have hstore : ∀ f ∈ facts.linesOf store, store ∈ facts.byStore.keys := by
      intro f hf
      rw [← SortedMap.contains_iff, SortedMap.contains, Option.isSome_iff_ne_none]
      intro hnone
      rw [FactStore.linesOf, SortedMap.getD, hnone] at hf
      exact absurd hf List.not_mem_nil
    simp only [KeySet.mem_ofList, List.mem_flatten, List.mem_map, exists_exists_and_eq_and,
      PartitionId.mk.injEq, FactStore.partitionLines, FactStore.partitionOf, ne_eq,
      List.filter_eq_nil_iff, decide_eq_true_eq, not_forall, not_not]
    constructor
    · rintro ⟨_, -, f, hf, rfl, rfl⟩
      exact ⟨f, hf, rfl⟩
    · rintro ⟨f, hf, rfl⟩
      exact ⟨store, hstore f hf, f, hf, rfl, rfl⟩

/-- A pass goes over the partitions that have lines, are stored or are pending. -/
theorem mem_targets (hs : s.Sound L) : id ∈ (targets s live).members ↔
    id ∈ live.members ∨ s.readPartition id ≠ .ok none ∨ s.marks.get? id ≠ none := by
  have hstored : id ∈ s.partitions.map (·.id) ↔ s.readPartition id ≠ .ok none := by
    constructor
    · intro hmem
      obtain ⟨e, he, rfl⟩ := List.mem_map.1 hmem
      obtain ⟨id', hget⟩ := SortedMap.mem_values.1 he
      obtain ⟨stored, hstored⟩ := hs.entries id' e hget
      rw [hstored.entryId, hstored.readPartition hget]
      nofun
    · intro hread
      cases hget : s.manifest.get? id with
      | none =>
        refine absurd ?_ hread
        unfold PartitionStore.readPartition
        simp only [hget]
      | some e =>
        obtain ⟨stored, hstored⟩ := hs.entries id e hget
        exact List.mem_map.2 ⟨e, SortedMap.mem_values.2 ⟨id, hget⟩, hstored.entryId⟩
  rw [targets, KeySet.mem_union, KeySet.mem_union, KeySet.mem_ofList, KeySet.mem_ofList, hstored,
    pending, SortedMap.mem_keys_iff_isSome, Option.isSome_iff_ne_none, or_assoc]

/-- Only partitions that have lines are passed over. -/
theorem mem_live_of_skips (h : skips includeOpen live s id = true) : id ∈ live.members :=
  KeySet.contains_iff.1 (Bool.and_eq_true_iff.1 (Bool.and_eq_true_iff.1 h).1).1

/-- The partitions that have their turns in a pass. -/
def turns (live : KeySet PartitionId) (includeOpen : Bool) (s : PartitionStore) : List PartitionId :=
  (targets s live).members.filter fun id => !skips includeOpen live s id

namespace Settled

variable (h : Settled L path facts s (turns live includeOpen s) t failed)

include h

theorem mem_turns : id ∈ turns live includeOpen s ↔
    id ∈ (targets s live).members ∧ skips includeOpen live t id = false := by
  rw [turns, List.mem_filter, Bool.not_eq_true', skips_congr h.today]

/-- Partitions that have had no turn are as before, so that they still have no reason for one. -/
theorem mem_turns_of_mem_targets (hs : s.Sound L) (hid : id ∈ (targets t live).members)
    (hskip : skips includeOpen live t id = false) : id ∈ turns live includeOpen s := by
  by_contra hnot
  refine hnot (h.mem_turns.2 ⟨?_, hskip⟩)
  rwa [mem_targets h.sound, h.kept id (.inl hnot), h.marks id hnot, ← mem_targets hs] at hid

/-- **After a pass** each partition is passed over, up to date or refused. -/
theorem again (hs : s.Sound L) (hfacts : facts.Consistent) (havailable : facts.available = true)
    (hallowed : ∀ l ∈ attempts facts s (turns live includeOpen s), L l)
    (hid : id ∈ (targets t live).members) : Again L facts includeOpen live t failed id := by
  cases hskip : skips includeOpen live t id with
  | true =>
    refine .skipped hskip fun hfailed => ?_
    have hnot := (h.mem_turns.1 (h.mem id hfailed)).2
    rw [hskip] at hnot
    cases hnot
  | false =>
    have hturn := h.mem_turns_of_mem_targets hs hid hskip
    by_cases hfailed : id ∈ failed
    · obtain ⟨hrefused, hhoused⟩ := h.refused id hfailed
      have hread := h.kept id (.inr hfailed)
      refine .refused hskip (hrefused.congr hs h.today hread) hhoused ?_ hfailed
      rw [followed_congr hs h.today hread]
      exact hallowed _ (mem_attempts.2 ⟨havailable, id, hturn, rfl⟩)
    · exact .upToDate hskip (h.upToDate hs hfacts hturn hfailed) hfailed

/-- The next pass passes over the same partitions. -/
theorem skipped_targets (hs : s.Sound L) :
    (targets t live).members.filter (skips includeOpen live t) =
      (targets s live).members.filter (skips includeOpen live s) := by
  -- Listings in order are known by their members.
  refine KeyOrder.eq_of_ascending ((SortedMap.pairwise_keys _).filter _)
    ((SortedMap.pairwise_keys _).filter _) fun id => ?_
  rw [List.mem_filter, List.mem_filter, skips_congr h.today]
  refine and_congr_left fun hskip => ?_
  exact iff_of_true ((mem_targets h.sound).2 (.inl (mem_live_of_skips hskip)))
    ((mem_targets hs).2 (.inl (mem_live_of_skips hskip)))

/-- The next pass comes to all partitions that have failed: they have lines. -/
theorem failed_targets (hmem : ∀ id, id ∈ live.members ↔ facts.partitionLines id ≠ []) :
    (targets t live).members.filter (· ∈ failed) = failed := by
  have hlive : ∀ id ∈ failed, id ∈ live.members := by
    intro id hid
    rw [hmem]
    intro hnone
    exact (h.refused id hid).1.nonempty (by rw [hnone, followed_nil])
  refine KeyOrder.eq_of_ascending ((SortedMap.pairwise_keys _).filter _)
    (((SortedMap.pairwise_keys _).filter _).sublist h.sublist) fun id => ?_
  rw [List.mem_filter, decide_eq_true_eq]
  exact and_iff_right_of_imp fun hid => (mem_targets h.sound).2 (.inl (hlive id hid))

end Settled

/-- **A pass, and then another one**: nothing changes any more, and the same partitions fail. -/
theorem pass_pass (hL : Storable L) (hs : s.Sound L) (hlaid : LaidOut path s)
    (hpath : KeptApart path) (hfacts : facts.Consistent) {r : MigrationReport}
    (hallowed : ∀ l ∈ attempts facts s (visited facts s includeOpen), L l)
    (hpass : pass facts s includeOpen = (.ok r, t)) :
    ∃ n m, pass facts t includeOpen =
      (.ok { written := 0, unchanged := m, removed := 0, skippedOpen := r.skippedOpen
             failed := r.failed }, { t with unchangedCount := n }) := by
  have havailable : facts.available = true := by
    rw [← Bool.not_eq_false]
    intro hnot
    obtain ⟨error, hlive⟩ := livePartitions_of_unavailable hnot
    rw [pass, hlive] at hpass
    cases hpass
  obtain ⟨live, hlive, hmem⟩ := livePartitions_of_available havailable
  unfold visited at hallowed
  unfold pass at hpass ⊢
  simp only [hlive] at hpass hallowed ⊢
  obtain ⟨hsettled, hskipped⟩ := settled_visit hL hs hlaid hpath hfacts havailable
    (KeySet.nodup_members (targets s live)) hallowed
  obtain ⟨rfl, rfl⟩ : _ = r ∧ _ = t := by simpa only [Prod.mk.injEq, Except.ok.injEq] using hpass
  generalize (targets s live).members.foldl (visit facts includeOpen live) (s, {}) = step at *
  obtain ⟨t, r⟩ := step
  change Settled L path facts s (turns live includeOpen s) t r.failed at hsettled
  -- The second pass has the same targets, and each of them is left as it is.
  obtain ⟨n, m, hfold⟩ := foldl_visit_again hL hsettled.sound hsettled.expands.laidOut hpath hfacts
    havailable fun id hid => hsettled.again hs hfacts havailable hallowed hid
  refine ⟨n, m, ?_⟩
  rw [hfold, hskipped, hsettled.failed_targets hmem, List.countP_eq_length_filter,
    List.countP_eq_length_filter, hsettled.skipped_targets hs]

end Migration

end RetailReport
