import Mathlib.Data.List.Induction
import RetailReport.Proofs.Partition.Inventory
import RetailReport.Proofs.Partition.Mirror

/-!
# Histories of the partition store

Partitions are written, appended to and removed, in any order and on changing business days; some of
these calls fail.  After any history each partition holds what the last call that succeeded has made
of it, the files with tables are those of the manifest, each partition has its own, and every entry
says of its lines what is so.  A call that is refused changes nothing of that.

Whether lines are found unchanged is decided by their hashes, so the lists of lines that occur are
taken to be told apart by these.  And the manifest is taken to be kept in a file that is not named like
one with a table: otherwise it may go to the place of a table, and then the lines of that are lost.

## Main definitions

* `PartitionCall`, `PartitionCall.perform`: what can be done to a partition.
* `PartitionCall.wanted`: the lines that a call wants a partition to hold.
* `PartitionHistory.run`: what becomes of a store, and what its partitions are to hold.
* `PartitionCall.Refused`: why a call is refused.

## Main results

* `PartitionHistory.sound_run`: what every history keeps.
* `PartitionHistory.holds_after_run`: **the partition store after any history**.
* `PartitionHistory.unreadable_of_manifestFile`: a manifest that takes the place of a table.
-/

namespace RetailReport

open PartitionStore

/-! ### Calls -/

/-- What can be done to a partition. -/
inductive PartitionAction where
  /-- It is replaced by some lines. -/
  | write (facts : List FactRecord)
  /-- Some lines are appended. -/
  | append (facts : List FactRecord)
  /-- It is removed. -/
  | remove

/-- The lines that are given. -/
def PartitionAction.facts : PartitionAction → List FactRecord
  | .write facts | .append facts => facts
  | .remove => []

/-- Something is done to a partition on a business day. -/
structure PartitionCall where
  /-- The business day. -/
  today : Date
  /-- The partition. -/
  id : PartitionId
  /-- What is done. -/
  action : PartitionAction

/-- The lines with ids that are not among those of some others, the first one of each id. -/
def additions (stored facts : List FactRecord) : List FactRecord :=
  (facts.filter fun f => f.recordId ∉ stored.map (·.recordId)).eraseDupsBy
    fun f g => f.recordId = g.recordId

namespace PartitionCall

/-- Whether a call succeeds, and the store after it. -/
def perform (c : PartitionCall) (s : PartitionStore) : Except PartitionError Unit × PartitionStore :=
  let s := { s with today := c.today }
  match c.action with
  | .write facts => ((s.writePartition c.id facts).1.map fun _ => (), (s.writePartition c.id facts).2)
  | .append facts => ((s.appendOpen c.id facts).1.map fun _ => (), (s.appendOpen c.id facts).2)
  | .remove => ((s.removePartition c.id).1.map fun _ => (), (s.removePartition c.id).2)

/-- The lines that a call wants a partition to hold, given those that it holds. -/
def wanted (c : PartitionCall) (stored : List FactRecord) : List FactRecord :=
  match c.action with
  | .write facts => facts
  | .append facts => stored ++ additions stored facts
  | .remove => []

/-- **Why a call is refused**, other than for its files. -/
inductive Refused (c : PartitionCall) (stored : List FactRecord) : PartitionError → Prop
  /-- The day is over. -/
  | closed {facts : List FactRecord} : c.action = .append facts → c.id.date < c.today →
      Refused c stored (.closedPartition c.id)
  /-- The lines cannot be stored. -/
  | lines {error : PartitionError} : RefusesLines c.id c.action.facts (c.wanted stored) error →
      Refused c stored error

end PartitionCall

namespace PartitionStore

/-- Lines are passed over if their ids are taken before, or earlier in the list. -/
theorem newFacts_eq (taken : KeySet String) (lines : List FactRecord) :
    newFacts taken lines = (lines.filter fun f => f.recordId ∉ taken.members).eraseDupsBy
      fun f g => f.recordId = g.recordId := by
  induction lines generalizing taken with
  | nil => rfl
  | cons f lines ih =>
    unfold newFacts
    by_cases htaken : f.recordId ∈ taken.members
    · rw [if_pos (KeySet.contains_iff.2 htaken), ih, List.filter_cons_of_neg (by simpa using htaken)]
    · rw [if_neg fun h => htaken (KeySet.contains_iff.1 h), ih,
        List.filter_cons_of_pos (by simpa using htaken), List.eraseDupsBy_cons, List.filter_filter]
      -- The id of the line is taken from now on.
      refine congrArg (f :: List.eraseDupsBy _ ·) (List.filter_congr fun g _ => ?_)
      rw [Bool.eq_iff_iff]
      simp only [KeySet.mem_add, decide_eq_true_eq, Bool.and_eq_true, decide_eq_false_iff_not]
      tauto

variable {s : PartitionStore} {L : List FactRecord → Prop} {id : PartitionId}

/-- Another business day changes nothing of what is stored. -/
theorem Sound.onDay (hs : s.Sound L) (today : Date) : Sound L { s with today } :=
  ⟨hs.tree, hs.manifestName, hs.entries⟩

theorem Exact.onDay {plan : Option RebuildPlan} (he : s.Exact L plan) (today : Date) :
    Exact L plan { s with today } :=
  ⟨he.listed, he.described, he.manifestName, he.plan_eq⟩

/-- What is stored for a partition is what can be read of it. -/
theorem storedFacts_of_readPartition {stored : Option (List FactRecord)}
    (h : s.readPartition id = .ok stored) : s.storedFacts id = .ok (stored.getD []) := by
  unfold PartitionStore.readPartition at h
  unfold PartitionStore.storedFacts
  split at h
  · obtain ⟨facts, hfacts, rfl⟩ := Except.map_eq_ok.1 h
    exact hfacts
  · cases h
    rfl

theorem additions_eq (stored lines : List FactRecord) :
    additions stored lines = newFacts (KeySet.ofList (stored.map (·.recordId))) lines := by
  rw [newFacts_eq, additions]
  simp only [KeySet.mem_ofList]

theorem appended_eq {stored : Option (List FactRecord)} (h : s.readPartition id = .ok stored)
    (lines : List FactRecord) :
    s.appended id lines = stored.getD [] ++ additions (stored.getD []) lines := by
  rw [appended_of_storedFacts (storedFacts_of_readPartition h), additions_eq]

end PartitionStore

namespace PartitionCall

variable {s : PartitionStore} {L : List FactRecord → Prop} {c : PartitionCall}
  {stored : Option (List FactRecord)} {plan : Option RebuildPlan}

/-- **A call that succeeds** makes its partition hold the lines that it wants; one that fails changes
no partition.  Either way the manifest stays exact. -/
theorem replaces_perform (hL : Storable L) (hs : s.Sound L) (he : s.Exact L plan)
    (hread : s.readPartition c.id = .ok stored)
    (hallowed : L (canonicalSort (c.wanted (stored.getD [])))) :
    Replaces L { s with today := c.today } c.id (content (c.wanted (stored.getD []))) (c.perform s) ∧
      (c.perform s).2.Exact L plan := by
  obtain ⟨today, id, action⟩ := c
  have hs' := hs.onDay today
  have he' := he.onDay today
  cases action with
  | write facts =>
    exact ⟨replaces_map (replaces_writePartition hL hs' fun _ => hallowed) _,
      exact_writePartition he' fun _ => hallowed⟩
  | append facts =>
    have happended : appended { s with today } id facts =
        stored.getD [] ++ additions (stored.getD []) facts := appended_eq hread facts
    have hallowed' : L (canonicalSort (appended { s with today } id facts)) := happended ▸ hallowed
    refine ⟨?_, exact_appendOpen he' fun _ => hallowed'⟩
    have hreplaces : Replaces L { s with today } id (content (appended { s with today } id facts))
        (appendOpen { s with today } id facts) := replaces_appendOpen hL hs' fun _ => hallowed'
    rw [happended] at hreplaces
    exact replaces_map hreplaces _
  | remove =>
    exact ⟨replaces_map (replaces_removePartition hL hs' id) _,
      exact_removePartition he' id⟩

/-- **A call that fails** for any other reason than its files is refused, and changes nothing. -/
theorem refused_of_perform (hs : s.Sound L) (hread : s.readPartition c.id = .ok stored)
    {error : PartitionError} (h : (c.perform s).1 = .error error) :
    (∃ cause, error = .io cause ∧ FileFault s.folder s.manifestPath s.manifest c.id
        (canonicalSort (c.wanted (stored.getD []))) cause) ∨
      c.Refused (stored.getD []) error ∧ Spared { s with today := c.today } (c.perform s).2 := by
  obtain ⟨today, id, action⟩ := c
  have ht := (hs.onDay today).tree
  cases action with
  | write facts =>
    have herror : (writePartition { s with today } id facts).1 = .error error :=
      Except.map_eq_error.1 h
    exact (spared_of_writePartition ht herror).imp_right
      fun ⟨hrefused, hspared⟩ => ⟨.lines hrefused, hspared⟩
  | append facts =>
    have herror : (appendOpen { s with today } id facts).1 = .error error :=
      Except.map_eq_error.1 h
    have hstored : storedFacts { s with today } id = .ok (stored.getD []) :=
      storedFacts_of_readPartition hread
    have happended : appended { s with today } id facts =
        stored.getD [] ++ additions (stored.getD []) facts := appended_eq hread facts
    have hcases := spared_of_appendOpen ht hstored herror
    rw [happended] at hcases
    refine hcases.imp_right ?_
    rintro ⟨⟨hclosed, rfl⟩ | hrefused, hspared⟩
    · exact ⟨.closed rfl (of_decide_eq_true hclosed), hspared⟩
    · exact ⟨.lines hrefused, hspared⟩
  | remove =>
    have herror : (removePartition { s with today } id).1 = .error error :=
      Except.map_eq_error.1 h
    exact .inl (removePartition_eq_error ht herror)

end PartitionCall

/-! ### Histories -/

/-- A store after some calls, and what its partitions are to hold. -/
structure PartitionHistory where
  /-- The store. -/
  store : PartitionStore
  /-- What each partition is to hold. -/
  contents : PartitionId → Option (List FactRecord) := fun _ => none
  /-- All lists that were to be stored. -/
  lists : List (List FactRecord) := []

namespace PartitionHistory

/-- One more call: if it succeeds, its partition is to hold the lines that it wants. -/
def step (h : PartitionHistory) (c : PartitionCall) : PartitionHistory :=
  let wanted := c.wanted ((h.contents c.id).getD [])
  { store := (c.perform h.store).2
    contents := match (c.perform h.store).1 with
      | .ok () => Function.update h.contents c.id (content wanted)
      | .error _ => h.contents
    lists := h.lists ++ [canonicalSort wanted] }

/-- A store after some calls. -/
def run (s : PartitionStore) (calls : List PartitionCall) : PartitionHistory :=
  calls.foldl step { store := s }

variable {h : PartitionHistory} {c : PartitionCall}

theorem contents_step_of_ok (hok : (c.perform h.store).1 = .ok ()) : (h.step c).contents =
    Function.update h.contents c.id (content (c.wanted ((h.contents c.id).getD []))) := by
  unfold step
  simp only [hok]

theorem contents_step_of_error {error : PartitionError}
    (herror : (c.perform h.store).1 = .error error) : (h.step c).contents = h.contents := by
  unfold step
  simp only [herror]

theorem run_concat (s : PartitionStore) (calls : List PartitionCall) (c : PartitionCall) :
    run s (calls ++ [c]) = (run s calls).step c := List.foldl_append

/-- **What every history keeps.** -/
structure Sound (plan : Option RebuildPlan) (h : PartitionHistory) : Prop where
  /-- The store is in order. -/
  store : h.store.Sound (· ∈ h.lists)
  /-- Its manifest says what there is. -/
  exact : h.store.Exact (· ∈ h.lists) plan
  /-- Each partition holds what it is to hold. -/
  reads : ∀ id, h.store.readPartition id = .ok (h.contents id)

variable {s : PartitionStore} {plan : Option RebuildPlan} {manifestFile : String} {today : Date}
  {calls : List PartitionCall}

/-- In an empty folder a new store is opened, with no tables. -/
theorem sound_start (hopen : PartitionStore.open? {} manifestFile today plan = .ok s)
    (hname : ∀ name, (FolderPath.ofText manifestFile).getLast? = some name → ¬IsTableName name) :
    Sound plan { store := s } := by
  have hnew := MigrationWorld.isNew_of_open? hopen hname
  have hnone : ∀ id e, s.manifest.get? id ≠ some e := by
    intro id e hget
    rw [hnew.manifest] at hget
    cases hget
  obtain rfl := MigrationWorld.eq_of_open? hopen
  -- All that a new folder holds are directories.
  have hlisted : (({} : Folder).withoutExtension "tmp").Listed (Named .empty) := by
    refine ⟨hnew.tree, ?_⟩
    intro place node hget hfile _
    rw [Folder.withoutExtension, SortedMap.get?_filter] at hget
    exact absurd (Folder.eq_directory_of_empty (Option.filter_eq_some_iff.1 hget).1) hfile
  constructor
  · exact ⟨hnew.tree, hname, fun id e hget => absurd hget (hnone id e)⟩
  · exact ⟨hlisted, fun id e hget => absurd hget (hnone id e), hname, rfl⟩
  · exact fun id => rfl

/-- **One more call** keeps it. -/
theorem Sound.step (hs : h.Sound plan) (c : PartitionCall)
    (hL : Storable (· ∈ (h.step c).lists)) : (h.step c).Sound plan := by
  have hsub : ∀ l, l ∈ h.lists → l ∈ (h.step c).lists := fun l hl => List.mem_append_left _ hl
  have hwanted : canonicalSort (c.wanted ((h.contents c.id).getD [])) ∈ (h.step c).lists :=
    List.mem_append_right _ List.mem_cons_self
  obtain ⟨hreplaces, hexact⟩ := PartitionCall.replaces_perform hL (hs.store.mono hsub)
    (hs.exact.mono hsub) (hs.reads c.id) hwanted
  -- The new day plays no part in what is read.
  have hreads : readPartition { h.store with today := c.today } = fun id => .ok (h.contents id) :=
    funext hs.reads
  cases houtcome : (c.perform h.store).1 with
  | ok =>
    have hbecomes := hreplaces.of_ok houtcome
    refine ⟨hbecomes.sound, hexact, ?_⟩
    intro id
    rw [contents_step_of_ok houtcome]
    refine (hbecomes.reads id).trans ?_
    rw [hreads]
    exact (Function.apply_update (fun _ stored => Except.ok stored) h.contents _ _ _).symm
  | error =>
    have hbecomes := hreplaces.of_error houtcome
    refine ⟨hbecomes.sound, hexact, ?_⟩
    intro id
    rw [contents_step_of_error houtcome]
    exact (hbecomes.reads id).trans (congrFun hreads id)

/-- **Every history** keeps it, if the lists may be stored. -/
theorem sound_run (hopen : PartitionStore.open? {} manifestFile today plan = .ok s)
    (hname : ∀ name, (FolderPath.ofText manifestFile).getLast? = some name → ¬IsTableName name)
    (hL : Storable (· ∈ (run s calls).lists)) : (run s calls).Sound plan := by
  induction calls using List.reverseRecOn with
  | nil => exact sound_start hopen hname
  | append_singleton calls c ih =>
    rw [run_concat] at hL ⊢
    exact (ih (hL.mono fun l hl => List.mem_append_left _ hl)).step c hL

/-! ### Where lines come from -/

theorem mem_of_mem_additions {stored facts : List FactRecord} {f : FactRecord}
    (h : f ∈ additions stored facts) : f ∈ facts :=
  mem_of_mem_newFacts (additions_eq stored facts ▸ h)

theorem mem_of_mem_wanted {c : PartitionCall} {stored : List FactRecord} {f : FactRecord}
    (h : f ∈ c.wanted stored) : f ∈ stored ∨ f ∈ c.action.facts := by
  obtain ⟨day, id, action⟩ := c
  cases action with
  | write facts => exact .inr h
  | append facts => exact (List.mem_append.1 h).imp_right mem_of_mem_additions
  | remove => cases h

/-- **All lines were given** in some call, and all partitions that hold some were named in one. -/
structure Grounded (calls : List PartitionCall) (h : PartitionHistory) : Prop where
  /-- The lists that were to be stored. -/
  lists : ∀ l ∈ h.lists, ∀ f ∈ l, ∃ c ∈ calls, f ∈ c.action.facts
  /-- What partitions are to hold. -/
  contents : ∀ id l, h.contents id = some l → l ∈ h.lists ∧ ∃ c ∈ calls, c.id = id

/-- What a partition is to hold after a call is what it was to hold before, or what the call wants. -/
theorem of_contents_step {id : PartitionId} {l : List FactRecord}
    (hcontents : (h.step c).contents id = some l) : h.contents id = some l ∨
      c.id = id ∧ l = canonicalSort (c.wanted ((h.contents c.id).getD [])) := by
  cases houtcome : (c.perform h.store).1 with
  | ok =>
    rw [contents_step_of_ok houtcome] at hcontents
    by_cases hid : id = c.id
    · subst hid
      rw [Function.update_self, content] at hcontents
      split at hcontents
      · cases hcontents
      · exact .inr ⟨rfl, (Option.some.inj hcontents).symm⟩
    · rw [Function.update_of_ne hid] at hcontents
      exact .inl hcontents
  | error =>
    rw [contents_step_of_error houtcome] at hcontents
    exact .inl hcontents

theorem Grounded.step (hg : h.Grounded calls) (c : PartitionCall) :
    (h.step c).Grounded (calls ++ [c]) := by
  have hearlier : ∀ l ∈ h.lists, ∀ f ∈ l, ∃ c' ∈ calls ++ [c], f ∈ c'.action.facts := by
    intro l hl f hf
    obtain ⟨c', hc', hf⟩ := hg.lists l hl f hf
    exact ⟨c', List.mem_append_left _ hc', hf⟩
  have hwanted : canonicalSort (c.wanted ((h.contents c.id).getD [])) ∈ (h.step c).lists :=
    List.mem_append_right _ List.mem_cons_self
  constructor
  · intro l hl f hf
    rcases List.mem_append.1 hl with hl | hl
    · exact hearlier l hl f hf
    · obtain rfl := List.mem_singleton.1 hl
      rcases mem_of_mem_wanted (List.mem_mergeSort.1 hf) with hstored | hgiven
      · -- What is appended to comes from earlier calls.
        cases hcontents : h.contents c.id with
        | none =>
          rw [hcontents] at hstored
          cases hstored
        | some stored =>
          rw [hcontents] at hstored
          exact hearlier stored (hg.contents c.id stored hcontents).1 f hstored
      · exact ⟨c, List.mem_append_right _ List.mem_cons_self, hgiven⟩
  · intro id l hcontents
    obtain hold | ⟨hid, rfl⟩ := of_contents_step hcontents
    · obtain ⟨hl, c', hc', hid⟩ := hg.contents id l hold
      exact ⟨List.mem_append_left _ hl, c', List.mem_append_left _ hc', hid⟩
    · exact ⟨hwanted, c, List.mem_append_right _ List.mem_cons_self, hid⟩

theorem grounded_run (s : PartitionStore) (calls : List PartitionCall) :
    (run s calls).Grounded calls := by
  induction calls using List.reverseRecOn with
  | nil => exact ⟨fun l h => absurd h List.not_mem_nil, fun id l h => by cases h⟩
  | append_singleton calls c ih =>
    rw [run_concat]
    exact ih.step c

/-- **What may be stored** after some calls, if lists of lines are told apart by their hashes. -/
theorem storable_run (hordinary : ∀ c ∈ calls, ∀ f ∈ c.action.facts, f.IsOrdinary)
    (hhash : ∀ l ∈ (run s calls).lists, ∀ l' ∈ (run s calls).lists,
      contentHash l = contentHash l' → l = l') : Storable (· ∈ (run s calls).lists) where
  ordinary l hl f hf := by
    obtain ⟨c, hc, hf⟩ := (grounded_run s calls).lists l hl f hf
    exact hordinary c hc f hf
  apart l l' hl hl' := hhash l hl l' hl'

/-! ### What there is -/

variable {id : PartitionId} {e : PartitionEntry}

/-- **An entry** is that of the lines which its partition is to hold. -/
theorem Sound.exists_stored (hs : h.Sound plan) (hL : Storable (· ∈ h.lists))
    (hget : h.store.manifest.get? id = some e) :
    ∃ facts, h.contents id = some facts ∧ Stored (· ∈ h.lists) h.store.folder id e facts ∧
      Describes plan e facts := by
  obtain ⟨facts, hstored⟩ := hs.store.entries id e hget
  obtain ⟨described, hallowed, hdescribes⟩ := hs.exact.described id e hget
  -- The entry has one hash, so these are one list.
  have hsame : described = facts :=
    hL.apart _ _ hallowed hstored.allowed (hdescribes.hash.symm.trans hstored.hash)
  have hread : Except.ok (h.contents id) = .ok (some facts) :=
    (hs.reads id).symm.trans (hstored.readPartition hget)
  exact ⟨facts, Except.ok.inj hread, hstored, hsame ▸ hdescribes⟩

/-- **The files with tables** are those of the entries. -/
theorem Sound.mem_files_iff (hs : h.Sound plan)
    (hstores : ∀ id e, h.store.manifest.get? id = some e → id.storeId ≠ "") {place : Place} :
    place ∈ h.store.folder.files ∧ Folder.hasExtension "parquet" place = true ↔
      ∃ id e, h.store.manifest.get? id = some e ∧ place = FolderPath.ofText e.file := by
  constructor
  · rintro ⟨hfiles, hextension⟩
    obtain ⟨node, hnode, hisFile⟩ := Folder.mem_files.1 hfiles
    obtain ⟨name, hlast, hparquet⟩ := Option.bind_eq_some_iff.1 (beq_iff_eq.1 hextension)
    obtain ⟨file, ⟨id, e, hget, rfl⟩, hlocate⟩ := hs.exact.listed.files place node hnode
      (by rintro rfl; cases hisFile) ⟨name, hlast, isTableName_of_extension? hparquet⟩
    obtain ⟨facts, hstored⟩ := hs.store.entries id e hget
    refine ⟨id, e, hget, ?_⟩
    rw [hstored.file] at hlocate ⊢
    exact Folder.eq_of_locate (isPlainName_of_mem_ofText (hstores id e hget) facts) hlocate
  · rintro ⟨id, e, hget, rfl⟩
    obtain ⟨facts, hstored⟩ := hs.store.entries id e hget
    obtain ⟨t, hnode, -⟩ := hstored.table
    rw [hstored.file] at hnode ⊢
    obtain ⟨place, hlocate, hplace⟩ := Folder.node_eq_ok.1 hnode
    obtain rfl := Folder.eq_of_locate (isPlainName_of_mem_ofText (hstores id e hget) facts) hlocate
    refine ⟨Folder.mem_files.2 ⟨_, hplace, ?_⟩, ?_⟩
    · rw [ofText_fileName_eq (hstores id e hget)]
      exact List.isPrefixOf_iff_prefix.2 (List.prefix_append _ _)
    · rw [Folder.hasExtension, ofText_fileName]
      exact beq_iff_eq.2 (extension?_baseName _ _)

/-- **The partition store after any history**: each partition holds what the last call that
succeeded has made of it, the files with tables are those of the manifest, no two partitions share
one, and every entry describes what its partition holds.  A further call succeeds, unless a file
cannot be written or moved, or it is refused; then the manifest, the files and the partitions are as
before. -/
theorem holds_after_run (hopen : PartitionStore.open? {} manifestFile today plan = .ok s)
    (hname : ∀ name, (FolderPath.ofText manifestFile).getLast? = some name → ¬IsTableName name)
    (hstores : ∀ c ∈ calls, c.id.storeId ≠ "")
    (hordinary : ∀ c ∈ calls, ∀ f ∈ c.action.facts, f.IsOrdinary)
    (hhash : ∀ l ∈ (run s calls).lists, ∀ l' ∈ (run s calls).lists,
      contentHash l = contentHash l' → l = l') :
    (∀ id, (run s calls).store.readPartition id = .ok ((run s calls).contents id)) ∧
    (∀ place, place ∈ (run s calls).store.folder.files ∧
        Folder.hasExtension "parquet" place = true ↔
      ∃ id e, (run s calls).store.manifest.get? id = some e ∧ place = FolderPath.ofText e.file) ∧
    (∀ id id' e e', (run s calls).store.manifest.get? id = some e →
      (run s calls).store.manifest.get? id' = some e' → e.file = e'.file → id = id') ∧
    (∀ id e, (run s calls).store.manifest.get? id = some e → e.id = id ∧
      ∃ facts, (run s calls).contents id = some facts ∧ Describes plan e facts) ∧
    ∀ (c : PartitionCall) (error : PartitionError),
      (c.perform (run s calls).store).1 = .error error →
      (∃ cause, error = .io cause ∧ FileFault (run s calls).store.folder
          (run s calls).store.manifestPath (run s calls).store.manifest c.id
          (canonicalSort (c.wanted (((run s calls).contents c.id).getD []))) cause) ∨
        c.Refused (((run s calls).contents c.id).getD []) error ∧
        (c.perform (run s calls).store).2.manifest = (run s calls).store.manifest ∧
        (∀ place node, node ≠ .directory →
          ((c.perform (run s calls).store).2.folder.nodes.get? place = some node ↔
            (run s calls).store.folder.nodes.get? place = some node)) ∧
        ∀ id, (c.perform (run s calls).store).2.readPartition id =
          (run s calls).store.readPartition id := by
  have hL := storable_run hordinary hhash
  have hs := sound_run hopen hname hL
  generalize hrun : run s calls = h at *
  -- A partition that is stored was named in some call.
  have hstores' : ∀ id e, h.store.manifest.get? id = some e → id.storeId ≠ "" := by
    intro id e hget
    obtain ⟨facts, hcontents, -⟩ := hs.exists_stored hL hget
    obtain ⟨-, c, hc, rfl⟩ := (hrun ▸ grounded_run s calls).contents id facts hcontents
    exact hstores c hc
  refine ⟨hs.reads, ?_, ?_, ?_, ?_⟩
  · intro place
    exact hs.mem_files_iff hstores'
  · intro id id' e e' hget hget' hfile
    -- The last name of a file tells the day and the lines, and these tell the store.
    obtain ⟨facts, -, hstored, -⟩ := hs.exists_stored hL hget
    obtain ⟨facts', -, hstored', -⟩ := hs.exists_stored hL hget'
    rw [hstored.file, hstored'.file] at hfile
    have hbase := congrArg (fun file => (FolderPath.ofText file).getLast?) hfile
    simp only [ofText_fileName, Option.some.injEq] at hbase
    exact (hstored.toOf.eq_of_baseName_eq hL hstored'.toOf hbase).1
  · intro id e hget
    obtain ⟨facts, hcontents, hstored, hdescribes⟩ := hs.exists_stored hL hget
    exact ⟨hstored.entryId, facts, hcontents, hdescribes⟩
  · intro c error herror
    refine (PartitionCall.refused_of_perform hs.store (hs.reads c.id) herror).imp_right ?_
    rintro ⟨hrefused, hspared⟩
    exact ⟨hrefused, hspared.manifest, fun _ _ hfile => hspared.get?_iff hfile,
      hspared.readPartition (hs.store.onDay c.today)⟩

open MigrationWorld (opened open?_opened isTableName_manifest)

/-- A line is appended to New Year's Day, and once more. -/
def appends : List PartitionCall :=
  List.replicate 2 ⟨newYearsDay.date, newYearsDay, .append [sampleLine "S1" "r1"]⟩

/-- Another line comes a day too late. -/
def lateAppend : PartitionCall := ⟨opened.today, newYearsDay, .append [sampleLine "S1" "r2"]⟩

set_option maxRecDepth 20000 in
theorem contents_appends :
    (run opened appends).contents newYearsDay = some [sampleLine "S1" "r1"] ∧
      (run opened appends).lists = [[sampleLine "S1" "r1"], [sampleLine "S1" "r1"]] := by
  decide +kernel

theorem perform_lateAppend (s : PartitionStore) :
    (lateAppend.perform s).1 = .error (.closedPartition newYearsDay) := rfl

/-- The line is stored once; what comes too late changes nothing. -/
theorem holds_after_appends :
    PartitionStore.open? {} "manifest.json" opened.today none = .ok opened ∧
    (∀ c ∈ appends, c.id.storeId ≠ "") ∧
    (∀ c ∈ appends, ∀ f ∈ c.action.facts, f.IsOrdinary) ∧
    (∀ l ∈ (run opened appends).lists, ∀ l' ∈ (run opened appends).lists,
      contentHash l = contentHash l' → l = l') ∧
    (run opened appends).store.readPartition newYearsDay = .ok (some [sampleLine "S1" "r1"]) ∧
    (lateAppend.perform (run opened appends).store).1 = .error (.closedPartition newYearsDay) ∧
    (lateAppend.perform (run opened appends).store).2.readPartition newYearsDay =
      .ok (some [sampleLine "S1" "r1"]) := by
  obtain ⟨hcontents, hlists⟩ := contents_appends
  have hstores : ∀ c ∈ appends, c.id.storeId ≠ "" := by decide
  have hordinary : ∀ c ∈ appends, ∀ f ∈ c.action.facts, f.IsOrdinary := by decide
  have hhash : ∀ l ∈ (run opened appends).lists, ∀ l' ∈ (run opened appends).lists,
      contentHash l = contentHash l' → l = l' := by
    rw [hlists]
    intro l hl l' hl' _
    simp only [List.mem_cons, List.not_mem_nil, or_false, or_self] at hl hl'
    rw [hl, hl']
  obtain ⟨hreads, -, -, -, hrefused⟩ :=
    holds_after_run open?_opened isTableName_manifest hstores hordinary hhash
  have hread : (run opened appends).store.readPartition newYearsDay =
      .ok (some [sampleLine "S1" "r1"]) := hcontents ▸ hreads newYearsDay
  refine ⟨open?_opened, hstores, hordinary, hhash, hread, perform_lateAppend _, ?_⟩
  obtain ⟨_, hio, -⟩ | ⟨-, -, -, hkept⟩ := hrefused lateAppend _ (perform_lateAppend _)
  · cases hio
  · rw [hkept, hread]

/-- New Year's Day is written once. -/
def soleWrite : PartitionCall :=
  ⟨opened.today, newYearsDay, .write [sampleLine "S1" "r1"]⟩

set_option maxRecDepth 20000 in
/-- **A manifest that goes to the place of a table** takes it: the line is lost although the call has
succeeded. -/
theorem unreadable_of_manifestFile : ∃ s,
    PartitionStore.open? {} (fileName newYearsDay (contentHash [sampleLine "S1" "r1"])) opened.today
      none = .ok s ∧
    newYearsDay.storeId ≠ "" ∧
    (∀ f ∈ soleWrite.action.facts, f.IsOrdinary) ∧
    (∀ l ∈ (run s [soleWrite]).lists, ∀ l' ∈ (run s [soleWrite]).lists,
      contentHash l = contentHash l' → l = l') ∧
    (soleWrite.perform s).1 = .ok () ∧
    (run s [soleWrite]).contents newYearsDay = some [sampleLine "S1" "r1"] ∧
    (run s [soleWrite]).store.readPartition newYearsDay = .error (.table .unreadable) :=
  Except.exists_ok (by decide +kernel)

end PartitionHistory

end RetailReport
