import RetailReport.Proofs.Partition.Refresh
import RetailReport.Proofs.Partition.Tidy

/-!
# Migrations in which nothing fails

A migration that reports no failures has replaced each of its partitions.  None of them is pending any
more, those without lines are no longer stored, and all others are as before.

Partitions without lines are only taken out, and so a migration of such partitions cannot fail.

## Main definitions

* `Migration.Cleared`: what a migration without failures leaves.

## Main results

* `Migration.Cleared.step`: one more partition.
* `Migration.cleared_foldl`, `Migration.cleared_visit`: some partitions, and those of a pass.
* `Migration.failed_of_no_lines`: partitions without lines do not fail.
-/

namespace RetailReport.Migration

open PartitionStore

variable {s t : PartitionStore} {L : List FactRecord → Prop} {id : PartitionId}
  {ids : List PartitionId} {facts : FactStore} {lines : List FactRecord} {r : MigrationReport}

/-! ### One partition -/

/-- A partition that follows some lines is replaced by those that it is to hold. -/
theorem follow_eq_ok {o : Outcome} (h : follow s id lines = (.ok o, t)) :
    ∃ ref, s.replace id (followed s id lines) = (.ok ref, t) := by
  obtain ⟨_, -, -, heq⟩ | ⟨-, heq⟩ := follow_cases s id lines
  · rw [heq] at h
    cases h
  · rw [heq, Prod.mk.injEq] at h
    obtain ⟨ref, hreplaced, -⟩ := Except.map_eq_ok.1 h.1
    exact ⟨ref, Prod.ext hreplaced h.2⟩

/-- **A partition that has not failed** was replaced, and its mark was cleared. -/
theorem exists_replace_of_migrateOne (havailable : facts.available = true)
    (h : (migrateOne facts (s, r) id).2.failed = r.failed) : ∃ ref t,
    s.replace id (followed s id (facts.partitionLines id)) = (.ok ref, t) ∧
      (migrateOne facts (s, r) id).1 = (t.clearPending id (s.marks.get? id)).2 := by
  obtain ⟨_, heq, -⟩ | ⟨lines, _, t, hscan, hfollow, heq⟩ := turn_cases facts s r id
  · rw [heq] at h
    exact absurd h (by simp)
  · obtain rfl := Except.ok.inj ((scan_of_available havailable id).symm.trans hscan)
    obtain ⟨ref, hreplace⟩ := follow_eq_ok hfollow
    exact ⟨ref, t, hreplace, congrArg Prod.fst heq⟩

/-- A partition fails or it does not. -/
theorem failed_migrateOne (facts : FactStore) (step : PartitionStore × MigrationReport)
    (id : PartitionId) : (migrateOne facts step id).2.failed = step.2.failed ∨
      (migrateOne facts step id).2.failed = step.2.failed ++ [id] := by
  obtain ⟨s, r⟩ := step
  obtain ⟨_, heq, -⟩ | ⟨_, _, _, -, -, heq⟩ := turn_cases facts s r id
  · exact .inr (by rw [heq])
  · rw [heq]
    exact .inl (failed_report ..)

/-- No partition has failed before if none has failed after one more. -/
theorem failed_eq_nil_of_migrateOne (h : (migrateOne facts (s, r) id).2.failed = []) :
    r.failed = [] := by
  rcases failed_migrateOne facts (s, r) id with heq | heq
  · exact heq.symm.trans h
  · rw [heq] at h
    simp at h

/-- **A partition without lines** does not fail. -/
theorem failed_migrateOne_of_no_lines (hL : ToldApart L) (hs : s.Tidy L)
    (havailable : facts.available = true) (hnone : facts.partitionLines id = [])
    (r : MigrationReport) : (migrateOne facts (s, r) id).2.failed = r.failed := by
  obtain ⟨ref, t, hdrop, -⟩ := hs.exists_drop hL id (contentHash (canonicalSort []))
  obtain ⟨_, hsome, -⟩ | ⟨-, heq⟩ := follow_cases s id []
  · exact absurd rfl hsome
  · rw [followed_nil, replace_nil, hdrop] at heq
    unfold migrateOne
    simp only [scan_of_available havailable, hnone, heq]
    exact failed_report ..

/-- What a partition is to hold depends on the business day and on what is stored for it. -/
theorem followed_eq_of_storedFacts (htoday : t.today = s.today)
    (hstored : t.storedFacts id = s.storedFacts id) (lines : List FactRecord) :
    followed t id lines = followed s id lines := by
  unfold followed appended
  rw [hstored, isClosed, isClosed, htoday]

/-- All lines that a partition is to hold are of its store. -/
theorem own_followed (hs : s.Tidy L) (hlines : ∀ f ∈ lines, f.storeId = id.storeId) :
    ∀ f ∈ followed s id lines, f.storeId = id.storeId :=
  forall_mem_followed (fun _ => hs.own_storedFacts) hlines

/-! ### Several partitions -/

/-- **What a migration without failures leaves.** -/
structure Cleared (L : List FactRecord → Prop) (facts : FactStore) (s : PartitionStore)
    (ids : List PartitionId) (t : PartitionStore) : Prop where
  /-- The store is tidy. -/
  tidy : t.Tidy L
  /-- The business day is the same. -/
  today : t.today = s.today
  /-- Its partitions are not pending any more. -/
  marks : ∀ id, t.marks.get? id = if id ∈ ids then none else s.marks.get? id
  /-- Those without lines are not stored. -/
  gone : ∀ id ∈ ids, facts.partitionLines id = [] → t.manifest.get? id = none
  /-- The entries of all others are as before. -/
  entries : ∀ id, id ∉ ids → t.manifest.get? id = s.manifest.get? id
  /-- Their files read as before. -/
  files : ∀ id e, id ∉ ids → s.manifest.get? id = some e → t.readFile e.file = s.readFile e.file

theorem cleared_nil (hs : s.Tidy L) (facts : FactStore) : Cleared L facts s [] s where
  tidy := hs
  today := rfl
  marks _ := rfl
  gone _ h := absurd h List.not_mem_nil
  entries _ _ := rfl
  files _ _ _ _ := rfl

/-- What is stored for another partition is as before. -/
theorem Cleared.storedFacts (h : Cleared L facts s ids t) (hid : id ∉ ids) :
    t.storedFacts id = s.storedFacts id := by
  unfold PartitionStore.storedFacts
  rw [h.entries id hid]
  cases hget : s.manifest.get? id with
  | none => rfl
  | some e => exact h.files id e hid hget

/-- So is what can be read of it. -/
theorem Cleared.readPartition (h : Cleared L facts s ids t) (hid : id ∉ ids) :
    t.readPartition id = s.readPartition id := by
  unfold PartitionStore.readPartition
  rw [h.entries id hid]
  cases hget : s.manifest.get? id with
  | none => rfl
  | some e => exact congrArg (Except.map some) (h.files id e hid hget)

/-- The mark of a partition is cleared, if it is the one that was read. -/
theorem get?_marks_clearPending (hmarks : t.marks = s.marks) (id id' : PartitionId) :
    (t.clearPending id (s.marks.get? id)).2.marks.get? id' =
      if id' = id then none else s.marks.get? id' := by
  rw [get?_clearPending, hmarks]
  by_cases heq : id' = id
  · subst heq
    cases hmark : s.marks.get? id' <;> simp
  · simp [heq]

/-- Nothing else becomes of the store. -/
theorem clearPending_rest (t : PartitionStore) (id : PartitionId) (mark : Option Nat) :
    (t.clearPending id mark).2.folder = t.folder ∧
      (t.clearPending id mark).2.manifestPath = t.manifestPath ∧
      (t.clearPending id mark).2.manifest = t.manifest ∧
      (t.clearPending id mark).2.today = t.today := by
  unfold clearPending
  split <;> exact ⟨rfl, rfl, rfl, rfl⟩

/-- **One more partition**, which has not failed. -/
theorem Cleared.step (h : Cleared L facts s ids t) (hL : ToldApart L) (hfacts : facts.Consistent)
    (havailable : facts.available = true) (hid : id ∉ ids)
    (hallowed : ∀ l ∈ attempts facts s (ids ++ [id]), L l)
    (hclean : (migrateOne facts (t, r) id).2.failed = r.failed) :
    Cleared L facts s (ids ++ [id]) (migrateOne facts (t, r) id).1 := by
  obtain ⟨ref, t', hreplace, hstore⟩ := exists_replace_of_migrateOne havailable hclean
  have hown : ∀ f ∈ facts.partitionLines id, f.storeId = id.storeId := fun f hf =>
    of_decide_eq_true (Bool.and_eq_true_iff.1 (hfacts.holds_of_mem_partitionLines hf)).1
  have hfollowed := followed_eq_of_storedFacts h.today (h.storedFacts hid) (facts.partitionLines id)
  have hlist : L (canonicalSort (followed t id (facts.partitionLines id))) := by
    rw [hfollowed]
    exact hallowed _ (mem_attempts.2 ⟨havailable, id, by simp, rfl⟩)
  -- Nothing has touched this partition yet, so it follows the same lines as before.
  obtain ⟨hrewritten, hgone⟩ :=
    h.tidy.replace hL (fun _ => hlist) (own_followed h.tidy hown) hreplace
  obtain ⟨hfolder, hpath, hmanifest, htoday⟩ := clearPending_rest t' id (t.marks.get? id)
  have hne : ∀ {id'}, id' ∉ ids ++ [id] → id' ∉ ids ∧ id' ≠ id := by
    intro id' hnot
    rw [List.mem_append, not_or, List.mem_singleton] at hnot
    exact hnot
  rw [hstore]
  refine ⟨hrewritten.tidy.congr hfolder hpath hmanifest,
    htoday.trans (hrewritten.today.trans h.today), fun id' => ?_, fun id' hmem hnone => ?_,
    fun id' hnot => ?_, fun id' e hnot hget => ?_⟩
  · rw [get?_marks_clearPending hrewritten.marks, h.marks]
    by_cases heq : id' = id
    · simp [heq]
    · simp [heq]
  · rw [hmanifest]
    by_cases heq : id' = id
    · subst heq
      exact hgone (by rw [hnone, followed_nil])
    · rw [hrewritten.entries id' heq]
      exact h.gone id' (by simpa [heq] using hmem) hnone
  · rw [hmanifest, hrewritten.entries id' (hne hnot).2, h.entries id' (hne hnot).1]
  · rw [readFile_congr (congrFun (congrArg Folder.node hfolder) _),
      hrewritten.files id' e (hne hnot).2 ((h.entries id' (hne hnot).1).trans hget),
      h.files id' e (hne hnot).1 hget]

/-- **Partitions one after the other**, none of which fails. -/
theorem cleared_foldl (hL : ToldApart L) (hs : s.Tidy L) (hfacts : facts.Consistent)
    (havailable : facts.available = true) (hids : ids.Nodup)
    (hallowed : ∀ l ∈ attempts facts s ids, L l)
    (hclean : (ids.foldl (migrateOne facts) (s, {})).2.failed = []) :
    Cleared L facts s ids (ids.foldl (migrateOne facts) (s, {})).1 := by
  induction ids using List.reverseRecOn with
  | nil => exact cleared_nil hs facts
  | append_singleton ids id ih =>
    obtain ⟨hnodup, -, hdisjoint⟩ := List.nodup_append'.1 hids
    have hid : id ∉ ids := fun hmem => hdisjoint hmem List.mem_cons_self
    rw [List.foldl_append] at hclean ⊢
    have hbefore : (ids.foldl (migrateOne facts) (s, {})).2.failed = [] :=
      failed_eq_nil_of_migrateOne hclean
    refine (ih hnodup (fun l hl => hallowed l (attempts_append_left hl)) hbefore).step hL hfacts
      havailable hid hallowed ?_
    exact hclean.trans hbefore.symm

/-- **Partitions without lines** do not fail. -/
theorem failed_of_no_lines (hL : ToldApart L) (hs : s.Tidy L) (hfacts : facts.Consistent)
    (havailable : facts.available = true) (hids : ids.Nodup)
    (hallowed : ∀ l ∈ attempts facts s ids, L l)
    (hnone : ∀ id ∈ ids, facts.partitionLines id = []) :
    (ids.foldl (migrateOne facts) (s, {})).2.failed = [] := by
  induction ids using List.reverseRecOn with
  | nil => rfl
  | append_singleton ids id ih =>
    obtain ⟨hnodup, -, -⟩ := List.nodup_append'.1 hids
    have hearly : ∀ l ∈ attempts facts s ids, L l := fun l hl => hallowed l (attempts_append_left hl)
    have hbefore := ih hnodup hearly fun id' hid' => hnone id' (List.mem_append_left _ hid')
    have hcleared := cleared_foldl hL hs hfacts havailable hnodup hearly hbefore
    rw [List.foldl_append]
    refine (failed_migrateOne_of_no_lines hL hcleared.tidy havailable (hnone id ?_) _).trans hbefore
    exact List.mem_append_right _ List.mem_cons_self

/-! ### A pass -/

variable {includeOpen : Bool} {live : KeySet PartitionId}

/-- No partition has failed before if none has failed after the next one. -/
theorem failed_eq_nil_of_visit (h : (visit facts includeOpen live (s, r) id).2.failed = []) :
    r.failed = [] := by
  cases hskip : skips includeOpen live s id with
  | true => rwa [visit_of_skips hskip] at h
  | false =>
    rw [visit_of_not_skips hskip] at h
    exact failed_eq_nil_of_migrateOne h

/-- **The partitions of a pass**, none of which fails. -/
theorem cleared_visit (hL : ToldApart L) (hs : s.Tidy L) (hfacts : facts.Consistent)
    (havailable : facts.available = true) (hids : ids.Nodup)
    (hallowed : ∀ l ∈ attempts facts s (ids.filter fun id => !skips includeOpen live s id), L l)
    (hclean : (ids.foldl (visit facts includeOpen live) (s, {})).2.failed = []) :
    Cleared L facts s (ids.filter fun id => !skips includeOpen live s id)
      (ids.foldl (visit facts includeOpen live) (s, {})).1 := by
  induction ids using List.reverseRecOn with
  | nil => exact cleared_nil hs facts
  | append_singleton ids id ih =>
    obtain ⟨hnodup, -, hdisjoint⟩ := List.nodup_append'.1 hids
    have hid : id ∉ ids := fun hmem => hdisjoint hmem List.mem_cons_self
    rw [List.filter_append] at hallowed ⊢
    rw [List.foldl_append] at hclean ⊢
    have hbefore := ih hnodup fun l hl => hallowed l (attempts_append_left hl)
    generalize ids.foldl (visit facts includeOpen live) (s, {}) = step at hbefore hclean ⊢
    obtain ⟨t, r⟩ := step
    change (visit facts includeOpen live (t, r) id).2.failed = [] at hclean
    show Cleared _ _ _ _ (visit facts includeOpen live (t, r) id).1
    have hnone : r.failed = [] := failed_eq_nil_of_visit hclean
    have hcleared := hbefore hnone
    -- Whether the partition is left out depends on the business day, which is still the same.
    have hskips : skips includeOpen live t id = skips includeOpen live s id :=
      skips_congr hcleared.today
    cases hskip : skips includeOpen live s id with
    | true =>
      rw [visit_of_skips (hskips.trans hskip), List.filter_cons_of_neg (by simp [hskip]),
        List.filter_nil, List.append_nil]
      exact hcleared
    | false =>
      rw [List.filter_cons_of_pos (by simp [hskip]), List.filter_nil] at hallowed ⊢
      rw [visit_of_not_skips (hskips.trans hskip)] at hclean ⊢
      exact hcleared.step hL hfacts havailable (fun hmem => hid (List.mem_filter.1 hmem).1) hallowed
        (hclean.trans hnone.symm)

end RetailReport.Migration
