import RetailReport.Proofs.Calendar.Reading
import RetailReport.Proofs.Partition.Inventory
import RetailReport.Proofs.Partition.Saving

/-!
# Files that belong to one store

As long as nothing fails, every table in the folder is the file of an entry, and all of its lines are
of the store of that entry.  Their days are not always those of the entry, since a leap second comes
back in the second after it, which may begin another day; so nothing is said of days here, and leap
seconds are not left out.

The manifest may go anywhere, even to the place of a table.  Then it takes the place of the table, whose
lines are lost; but the entry still has its file, which is the manifest, and what can be read of the
other partitions is as before.

A partition that is to hold nothing is taken out of the store, and this cannot fail: it was entered
once, so a manifest could be saved then, and one can be saved still.

## Main definitions

* `ToldApart`: lists of lines are told apart by their hashes.
* `PartitionStore.Filed`: an entry has its file, with lines of its store if it is a table.
* `PartitionStore.Clear`: a file that is a table does not stand where the manifest goes.
* `PartitionStore.Tidy`: the tables of the folder are the files of the entries.
* `PartitionStore.Rewritten`: a partition was replaced, and no other one.

## Main results

* `PartitionStore.Tidy.exists_drop`: a partition can always be taken out.
* `PartitionStore.Tidy.replace`: a partition that was replaced.
-/

namespace RetailReport

/-! ### Stores of rows and lines -/

namespace FactTable

variable {t : FactTable} {facts : List FactRecord} {row : TableRow} {f : FactRecord}

/-- The rows of a table are of the stores of its lines. -/
theorem exists_storeId_of_ofLines (h : ofLines facts = .ok t) (hrow : row ∈ t.rows) :
    ∃ f ∈ facts, row.storeId = f.storeId := by
  obtain ⟨rows, hrows, h⟩ := Except.bind_eq_ok.1 h
  cases h
  obtain ⟨f, hf, hencode⟩ := List.exists_of_mem_mapM_eq_ok hrows hrow
  refine ⟨f, hf, ?_⟩
  unfold encodeRow at hencode
  simp only at hencode
  split at hencode
  · cases hencode
    rfl
  · cases hencode

theorem storeId_of_decodeRow {columns : List AmountColumn} (h : decodeRow columns row = .ok f) :
    f.storeId = row.storeId := by
  unfold decodeRow at h
  split at h
  · cases h
  · cases h
    refine List.foldlRecOn (motive := fun line : FactRecord => line.storeId = row.storeId) _ _
      rfl fun line hline cell _ => ?_
    obtain ⟨c, _ | a⟩ := cell
    · exact hline
    · exact (line.sameBase_setAmount c a).2.2.1.trans hline

/-- The lines of a table are of the stores of its rows. -/
theorem exists_storeId_of_lines (h : t.lines = .ok facts) (hf : f ∈ facts) :
    ∃ row ∈ t.rows, f.storeId = row.storeId := by
  unfold lines decode at h
  rw [if_pos rfl] at h
  obtain ⟨row, hrow, hdecode⟩ := List.exists_of_mem_mapM_eq_ok h hf
  exact ⟨row, hrow, storeId_of_decodeRow hdecode⟩

end FactTable

/-! ### Lines of one store -/

/-- **Lists of lines are told apart by their hashes.** -/
def ToldApart (L : List FactRecord → Prop) : Prop :=
  ∀ l l', L l → L l' → contentHash l = contentHash l' → l = l'

/-- **Lines belong to a partition** if they are of its store and may be stored. -/
structure Belong (L : List FactRecord → Prop) (id : PartitionId) (facts : List FactRecord) : Prop where
  /-- They may be stored. -/
  allowed : L facts
  /-- There are some. -/
  nonempty : facts ≠ []
  /-- They are of its store. -/
  own : ∀ f ∈ facts, f.storeId = id.storeId

namespace PartitionStore

variable {s s' : PartitionStore} {L : List FactRecord → Prop} {E : String → Prop} {d d' : Folder}
  {S : String → Prop} {id id' : PartitionId} {e : PartitionEntry} {facts facts' : List FactRecord}
  {m : Manifest} {lines : List FactRecord}

theorem date_eq_of_baseName_eq {hash : String} (h : baseName id hash = baseName id' hash) :
    id.date = id'.date := by
  have hchars := congrArg String.toList h
  simp only [baseName, String.toList_append] at hchars
  have hrender : id.date.render = id'.date.render :=
    String.toList_inj.1 (List.append_cancel_right (List.append_cancel_right
      (List.append_cancel_right hchars)))
  exact Option.some.inj ((Date.parse?_render _).symm.trans (hrender ▸ Date.parse?_render _))

/-- **The files of two partitions** have different names, even if the directories of their stores are
one. -/
theorem baseName_ne_of_belong (hL : ToldApart L) (h : Belong L id facts) (h' : Belong L id' facts')
    (hne : id ≠ id') : baseName id (contentHash facts) ≠ baseName id' (contentHash facts') := by
  intro hname
  obtain rfl := hL _ _ h.allowed h'.allowed (contentHash_eq_of_baseName_eq hname)
  obtain ⟨f, hf⟩ := List.exists_mem_of_ne_nil _ h.nonempty
  have hstore : id.storeId = id'.storeId := (h.own f hf).symm.trans (h'.own f hf)
  have hdate : id.date = id'.date := date_eq_of_baseName_eq hname
  cases id
  cases id'
  exact hne (congrArg₂ PartitionId.mk hstore hdate)

/-! ### Entries and their files -/

/-- **What stands where an entry has its file**: a text, or a table with rows of the store. -/
def HoldsRows (id : PartitionId) : FolderNode → Prop
  | .directory => False
  | .text _ => True
  | .table t => ∀ row ∈ t.rows, row.storeId = id.storeId

/-- **An entry has its file**, and if that is a table its rows are of the store of the entry. -/
structure Filed (L : List FactRecord → Prop) (d : Folder) (id : PartitionId) (e : PartitionEntry)
    (facts : List FactRecord) : Prop extends Belong L id facts where
  /-- The entry is of the partition. -/
  entryId : e.id = id
  /-- It tells the hash of the lines. -/
  hash : e.contentHash = contentHash facts
  /-- The file is named for the hash. -/
  file : e.file = fileName id (contentHash facts)
  /-- The file is there. -/
  found : ∃ node, d.node (FolderPath.ofText e.file) = .ok node ∧ HoldsRows id node

theorem HoldsRows.ne_directory {node : FolderNode} (h : HoldsRows id node) : node ≠ .directory := by
  rintro rfl
  exact h

theorem Filed.getLast? (h : Filed L d id e facts) :
    (FolderPath.ofText e.file).getLast? = some (baseName id e.contentHash) := by
  rw [h.file, h.hash, ofText_fileName]

/-- A file stays as long as its name is not touched. -/
theorem Filed.turns (h : Filed L d id e facts) (ht : d.Tree) (hturns : d.Turns S d')
    (hname : ¬S (baseName id e.contentHash)) : Filed L d' id e facts ∧
      d'.node (FolderPath.ofText e.file) = d.node (FolderPath.ofText e.file) := by
  obtain ⟨node, hnode, hrows⟩ := h.found
  have hnode' : d'.node (FolderPath.ofText e.file) = .ok node := by
    refine hturns.node ht hnode hrows.ne_directory fun name hlast => ?_
    rw [h.getLast?, Option.some.injEq] at hlast
    exact hlast ▸ hname
  exact ⟨{ h with found := ⟨node, hnode', hrows⟩ }, hnode'.trans hnode.symm⟩

/-- **A file is clear of the manifest**: if it is a table, the manifest goes to another place. -/
def Clear (path : FolderPath) (d : Folder) (file : String) : Prop :=
  ∀ t, d.node (FolderPath.ofText file) = .ok (.table t) →
    ∃ place, d.locate path = .ok place ∧ d.locate (FolderPath.ofText file) ≠ .ok place

/-- It stays so while the file stays. -/
theorem Clear.turns {path : FolderPath} {file : String} (h : Clear path d file)
    (hturns : d.Turns S d')
    (hnode : d'.node (FolderPath.ofText file) = d.node (FolderPath.ofText file)) :
    Clear path d' file := by
  intro t ht
  rw [hnode] at ht
  obtain ⟨place, hplace, hne⟩ := h t ht
  obtain ⟨own, hown, -⟩ := Folder.node_eq_ok.1 ht
  refine ⟨place, hturns.locate hplace, fun hsame => hne ?_⟩
  rw [hown, ← hsame, hturns.locate hown]

/-- **Entries and tables go together**: every entry has its file, and every table is the file of an
entry, or one of some files beside them. -/
structure Orderly (L : List FactRecord → Prop) (E : String → Prop) (s : PartitionStore) : Prop where
  /-- The tree of the folder hangs together. -/
  tree : s.folder.Tree
  /-- Every entry has its file. -/
  entries : ∀ id e, s.manifest.get? id = some e → ∃ facts, Filed L s.folder id e facts
  /-- The manifest takes the place of no table of an entry. -/
  clear : ∀ id e, s.manifest.get? id = some e → Clear s.manifestPath s.folder e.file
  /-- Every table is the file of an entry, or one of those beside them. -/
  tables : ∀ place t, s.folder.nodes.get? place = some (.table t) →
    ∃ file, (Named s.manifest file ∨ E file) ∧
      s.folder.locate (FolderPath.ofText file) = .ok place

/-- **A tidy store**: all tables are files of entries, and if there are entries a manifest can be
saved. -/
structure Tidy (L : List FactRecord → Prop) (s : PartitionStore) : Prop
    extends Orderly L (fun _ => False) s where
  /-- A manifest can be saved. -/
  savable : ∀ id e, s.manifest.get? id = some e → Savable s.manifestPath s.folder

theorem Tidy.mono {L' : List FactRecord → Prop} (h : s.Tidy L) (hL : ∀ l, L l → L' l) :
    s.Tidy L' where
  tree := h.tree
  entries id e hget :=
    (h.entries id e hget).imp fun _ hfiled => { hfiled with allowed := hL _ hfiled.allowed }
  clear := h.clear
  tables := h.tables
  savable := h.savable

/-- What is not stored does not matter. -/
theorem Tidy.congr (h : s.Tidy L) (hfolder : s'.folder = s.folder)
    (hpath : s'.manifestPath = s.manifestPath) (hmanifest : s'.manifest = s.manifest) :
    s'.Tidy L where
  tree := hfolder ▸ h.tree
  entries := hmanifest ▸ hfolder ▸ h.entries
  clear := hmanifest ▸ hpath ▸ hfolder ▸ h.clear
  tables := hmanifest ▸ hfolder ▸ h.tables
  savable := hmanifest ▸ hpath ▸ hfolder ▸ h.savable

/-- **No entry has the file** that lines with some hash would have. -/
def Unused (m : Manifest) (id : PartitionId) (hash : String) : Prop :=
  ∀ id' e, m.get? id' = some e → baseName id' e.contentHash ≠ baseName id hash

theorem Unused.file_ne (h : Unused m id (contentHash facts)) (hget : m.get? id = some e)
    (hfiled : Filed L d id e facts') : e.file ≠ fileName id (contentHash facts) := by
  intro heq
  refine h id e hget (Option.some.inj ?_)
  rw [hfiled.hash, ← ofText_fileName, ← ofText_fileName, ← hfiled.file, heq]

/-- **The files of all entries read as before** in another folder. -/
def KeepsFiles (s : PartitionStore) (d : Folder) : Prop :=
  ∀ id e, s.manifest.get? id = some e →
    readFile { s with folder := d } e.file = s.readFile e.file

/-- What a file reads as depends on what stands there. -/
theorem readFile_congr {file : String} (h : s'.folder.node (FolderPath.ofText file) =
    s.folder.node (FolderPath.ofText file)) : s'.readFile file = s.readFile file := by
  unfold readFile
  rw [h]

/-- **A change of the folder** that touches the names of no entries, given the tables that it leaves. -/
theorem Orderly.turns {G : String → Prop} (h : s.Orderly L E) (hturns : s.folder.Turns S d)
    (hname : ∀ id e, s.manifest.get? id = some e → ¬S (baseName id e.contentHash))
    (htables : ∀ place t, d.nodes.get? place = some (.table t) →
      ∃ file, (Named s.manifest file ∨ G file) ∧ d.locate (FolderPath.ofText file) = .ok place) :
    Orderly L G { s with folder := d } ∧ s.KeepsFiles d := by
  have hkept : ∀ id e, s.manifest.get? id = some e → ∃ facts, Filed L d id e facts ∧
      d.node (FolderPath.ofText e.file) = s.folder.node (FolderPath.ofText e.file) := by
    intro id e hget
    obtain ⟨facts, hfiled⟩ := h.entries id e hget
    exact ⟨facts, hfiled.turns h.tree hturns (hname id e hget)⟩
  refine ⟨⟨hturns.tree, fun id e hget => ?_, fun id e hget => ?_, htables⟩, fun id e hget => ?_⟩
  · exact (hkept id e hget).imp fun facts hfiled => hfiled.1
  · obtain ⟨_, -, hnode⟩ := hkept id e hget
    exact (h.clear id e hget).turns hturns hnode
  · obtain ⟨_, -, hnode⟩ := hkept id e hget
    exact readFile_congr hnode

/-- **Discarding a file** that no entry has. -/
theorem Orderly.discardFile
    (h : s.Orderly L fun file => E file ∨ file = fileName id (contentHash facts))
    (hunused : Unused s.manifest id (contentHash facts)) :
    (s.discardFile (fileName id (contentHash facts))).Orderly L E ∧
      s.KeepsFiles (s.discardFile (fileName id (contentHash facts))).folder := by
  have hturns : s.folder.Turns (· = baseName id (contentHash facts))
      (s.discardFile (fileName id (contentHash facts))).folder := by
    refine Folder.turns_discardFile h.tree fun name hlast => ?_
    rw [ofText_fileName, Option.some.injEq] at hlast
    exact hlast.symm
  refine h.turns hturns hunused fun place t hget => ?_
  have hold : s.folder.nodes.get? place = some (.table t) :=
    (Folder.adds_discardFile (P := fun _ => False) s.folder _ place _ hget nofun).resolve_right
      not_false
  obtain ⟨file, hfile, hlocate⟩ := h.tables place t hold
  rcases hfile with hnamed | hE | rfl
  · exact ⟨file, .inl hnamed, hturns.locate hlocate⟩
  · exact ⟨file, .inr hE, hturns.locate hlocate⟩
  · -- At the place of the discarded file there is nothing any more.
    rw [Folder.get?_discardFile hlocate hold nofun] at hget
    cases hget

/-! ### Partitions that are replaced -/

/-- **A partition was replaced**, and no other one. -/
structure Rewritten (L : List FactRecord → Prop) (s : PartitionStore) (id : PartitionId)
    (s' : PartitionStore) : Prop where
  /-- The store is tidy. -/
  tidy : s'.Tidy L
  /-- No mark has changed. -/
  marks : s'.marks = s.marks
  /-- The business day is the same. -/
  today : s'.today = s.today
  /-- The other entries are as before. -/
  entries : ∀ id', id' ≠ id → s'.manifest.get? id' = s.manifest.get? id'
  /-- Their files read as before. -/
  files : ∀ id' e, id' ≠ id → s.manifest.get? id' = some e → s'.readFile e.file = s.readFile e.file

theorem Tidy.rewritten_self (h : s.Tidy L) (id : PartitionId) : Rewritten L s id s :=
  ⟨h, rfl, rfl, fun _ _ => rfl, fun _ _ _ _ => rfl⟩

/-- Counting changes nothing. -/
theorem Rewritten.counted (h : Rewritten L s id s') (writtenCount unchangedCount : Nat) :
    Rewritten L s id { s' with writtenCount, unchangedCount } :=
  ⟨h.tidy.congr rfl rfl rfl, h.marks, h.today, h.entries, h.files⟩

theorem exchangeManifest_eq_ok {u : Unit} :
    s.exchangeManifest m = (.ok u, s') ↔ ∃ d, saveManifest s.folder s.manifestPath m = (.ok (), d) ∧
      s' = { s with folder := d, manifest := m } := by
  unfold exchangeManifest
  constructor
  · intro h
    split at h
    · next d hsave =>
      cases h
      exact ⟨d, hsave, rfl⟩
    · cases h
  · rintro ⟨d, hsave, rfl⟩
    rw [hsave]

/-- **Once a manifest was saved** an entry still has its file, which may be the manifest now. -/
theorem Filed.saved {path : FolderPath} (h : Filed L d id e facts) (ht : d.Tree)
    (hsave : saveManifest d path m = (.ok (), d')) : Filed L d' id e facts := by
  obtain ⟨node, hnode, hrows⟩ := h.found
  have hcases := node_of_saveManifest ht hsave h.getLast? (isTableName_baseName _ _) hnode
    hrows.ne_directory
  refine { h with found := ?_ }
  rcases hcases with hkept | ⟨hlost, -⟩
  · exact ⟨node, hkept, hrows⟩
  · exact ⟨_, hlost, trivial⟩

/-- All files are clear of a manifest that was saved. -/
theorem clear_of_saved {path : FolderPath} (ht : d.Tree)
    (hsave : saveManifest d path m = (.ok (), d')) (file : String) : Clear path d' file := by
  intro t hnode
  obtain ⟨place, hplace, hget⟩ := Folder.node_eq_ok.1 (turns_of_saveManifest ht hsave).2
  refine ⟨place, hplace, fun hsame => ?_⟩
  cases hnode.symm.trans (Folder.node_eq_ok.2 ⟨place, hsame, hget⟩)

/-- **A file that is clear of the manifest** reads as before when the manifest was saved. -/
theorem Filed.readFile_saved (h : Filed L s.folder id e facts) (ht : s.folder.Tree)
    (hclear : Clear s.manifestPath s.folder e.file)
    (hsave : saveManifest s.folder s.manifestPath m = (.ok (), d)) :
    readFile { s with folder := d } e.file = s.readFile e.file := by
  obtain ⟨node, hnode, hrows⟩ := h.found
  rcases node_of_saveManifest ht hsave h.getLast? (isTableName_baseName _ _) hnode
    hrows.ne_directory with hkept | ⟨hlost, hsame⟩
  · exact readFile_congr (hkept.trans hnode.symm)
  · -- It was the manifest before.
    have hturns := (turns_of_saveManifest ht hsave).1
    cases node with
    | directory => exact hrows.elim
    | text =>
      unfold readFile
      rw [hnode]
      simp only [hlost]
    | table t =>
      obtain ⟨place, hplace, hne⟩ := hclear t hnode
      obtain ⟨own, hown, -⟩ := Folder.node_eq_ok.1 hnode
      rw [hturns.locate hown, hturns.locate hplace] at hsame
      exact absurd (hown.trans hsame) hne

/-- **A store whose manifest was saved** with other entries, which have their files. -/
theorem Orderly.saved (h : s.Orderly L E)
    (hsave : saveManifest s.folder s.manifestPath m = (.ok (), d)) {G : String → Prop}
    (hentries : ∀ id e, m.get? id = some e → ∃ facts, Filed L s.folder id e facts)
    (hfiles : ∀ file, Named s.manifest file ∨ E file → Named m file ∨ G file) :
    Orderly L G { s with folder := d, manifest := m } ∧ Savable s.manifestPath d ∧
      s.KeepsFiles d := by
  have hturns := (turns_of_saveManifest h.tree hsave).1
  refine ⟨⟨hturns.tree, fun id e hget => ?_, fun id e _ => clear_of_saved h.tree hsave _,
    fun place t hget => ?_⟩, savable_saveManifest h.tree hsave, fun id e hget => ?_⟩
  · exact (hentries id e hget).imp fun facts hfiled => hfiled.saved h.tree hsave
  · obtain ⟨file, hfile, hlocate⟩ := h.tables place t (get?_table_of_saveManifest h.tree hsave hget)
    exact ⟨file, hfiles file hfile, hturns.locate hlocate⟩
  · obtain ⟨facts, hfiled⟩ := h.entries id e hget
    exact hfiled.readFile_saved h.tree (h.clear id e hget) hsave

/-- **A partition can always be taken out**: it was entered once, so a manifest can be saved. -/
theorem Tidy.exists_drop (hL : ToldApart L) (h : s.Tidy L) (id : PartitionId) (hash : String) :
    ∃ ref s', s.drop id hash = (.ok ref, s') ∧ Rewritten L s id s' ∧
      s'.manifest.get? id = none := by
  cases hget : s.manifest.get? id with
  | none =>
    refine ⟨⟨id, fileName id hash, hash, 0, false⟩, s, ?_, h.rewritten_self id, hget⟩
    unfold drop
    simp only [hget]
  | some e =>
    obtain ⟨facts, hfiled⟩ := h.entries id e hget
    obtain ⟨d, hsave⟩ := (h.savable id e hget).exists_saveManifest h.tree (s.manifest.erase id)
    have hothers : ∀ id' e', (s.manifest.erase id).get? id' = some e' →
        id' ≠ id ∧ s.manifest.get? id' = some e' := by
      intro id' e' hget'
      rw [SortedMap.get?_erase] at hget'
      split at hget'
      · cases hget'
      · next hne => exact ⟨hne, hget'⟩
    -- The file of the partition is the only one that has no entry any more.
    obtain ⟨hsaved, hsavable, hkept⟩ := h.saved (m := s.manifest.erase id)
      (G := fun file => False ∨ file = fileName id (contentHash facts)) hsave
      (fun id' e' hget' => h.entries id' e' (hothers id' e' hget').2) fun file hfile =>
        (named_erase (hfile.resolve_right not_false) hget).imp_right fun heq =>
          .inr (heq.trans hfiled.file)
    have hunused : Unused (s.manifest.erase id) id (contentHash facts) := by
      intro id' e' hget'
      obtain ⟨hne, hold⟩ := hothers id' e' hget'
      obtain ⟨facts', hfiled'⟩ := h.entries id' e' hold
      rw [hfiled'.hash]
      exact baseName_ne_of_belong hL hfiled'.toBelong hfiled.toBelong hne
    obtain ⟨horderly, hfiles⟩ := hsaved.discardFile hunused
    have hother : ∀ id', id' ≠ id → (s.manifest.erase id).get? id' = s.manifest.get? id' :=
      fun id' hne => by rw [SortedMap.get?_erase, if_neg hne]
    refine ⟨⟨id, e.file, hash, 0, true⟩, _, ?_, ⟨⟨horderly, fun _ _ _ => ?_⟩, rfl, rfl, hother,
      fun id' e' hne hget' => ?_⟩, ?_⟩
    · have hexchange : s.exchangeManifest (s.manifest.erase id) =
          (.ok (), { s with folder := d, manifest := s.manifest.erase id }) :=
        exchangeManifest_eq_ok.2 ⟨d, hsave, rfl⟩
      unfold drop
      simp only [hget]
      rw [hexchange, hfiled.file]
    · exact hsavable.discardFile hsaved.tree _
    · exact (hfiles id' e' ((hother id' hne).trans hget')).trans (hkept id' e' hget')
    · show (s.manifest.erase id).get? id = none
      rw [SortedMap.get?_erase, if_pos rfl]

/-! ### Partitions that are written -/

/-- What happens when lines are written to a file. -/
theorem writeFile_eq_ok {file : String} {size : Nat}
    (h : writeFile d file facts = (.ok size, d')) :
    ∃ t d₂, FactTable.ofLines facts = .ok t ∧
      (d.makeParents (FolderPath.ofText file)).2.write
        (FolderPath.extended (FolderPath.ofText file) ".tmp") (.table t) = .ok d₂ ∧
      d₂.rename (FolderPath.extended (FolderPath.ofText file) ".tmp") (FolderPath.ofText file) =
        .ok d' := by
  obtain ⟨_, -, heq⟩ | ⟨_, -, heq⟩ | ⟨t, d₂, htable, hwrite, ⟨_, -, heq⟩ | ⟨d₃, hrename, heq⟩⟩ :=
    writeFile_cases d file facts
  · cases h.symm.trans heq
  · cases h.symm.trans heq
  · cases h.symm.trans heq
  · cases h.symm.trans heq
    exact ⟨t, d₂, htable, hwrite, hrename⟩

/-- **After lines were written** there is one table more. -/
theorem get?_table_of_writeFile (ht : d.Tree) {file : String} {size : Nat}
    (h : writeFile d file facts = (.ok size, d')) {place : Place} {t : FactTable}
    (hget : d'.nodes.get? place = some (.table t)) :
    d.nodes.get? place = some (.table t) ∨ d'.locate (FolderPath.ofText file) = .ok place := by
  obtain ⟨table, d₂, -, hwrite, hrename⟩ := writeFile_eq_ok h
  have hturns := Folder.turns_makeParents (S := fun _ => True) ht (FolderPath.ofText file)
  refine (Folder.get?_of_placed hturns.tree hwrite hrename hget).imp (fun hold => ?_) And.right
  exact (Folder.adds_makeParents (P := fun _ => False) d _ place _ hold nofun).resolve_right not_false

/-- **A store with one table more**, which no entry has yet. -/
theorem Orderly.written (h : s.Orderly L fun _ => False)
    (hunused : Unused s.manifest id (contentHash facts)) {size : Nat}
    (hwrite : writeFile s.folder (fileName id (contentHash facts)) facts = (.ok size, d)) :
    Orderly L (· = fileName id (contentHash facts)) { s with folder := d } ∧ s.KeepsFiles d ∧
    ∃ t, FactTable.ofLines facts = .ok t ∧
      d.node (FolderPath.ofText (fileName id (contentHash facts))) = .ok (.table t) := by
  obtain ⟨hturns, hfound⟩ := turns_writeFile h.tree id facts
  rw [hwrite] at hturns hfound
  have hname : ∀ id' e, s.manifest.get? id' = some e →
      ¬(¬IsTableName (baseName id' e.contentHash) ∨
        baseName id' e.contentHash = baseName id (contentHash facts)) := by
    intro id' e hget hname
    rcases hname with hother | hsame
    · exact hother (isTableName_baseName _ _)
    · exact hunused id' e hget hsame
  obtain ⟨horderly, hkept⟩ : Orderly L (· = fileName id (contentHash facts)) { s with folder := d } ∧
      s.KeepsFiles d := by
    refine h.turns hturns hname fun place t hget => ?_
    rcases get?_table_of_writeFile h.tree hwrite hget with hold | hnew
    · obtain ⟨file, hfile, hlocate⟩ := h.tables place t hold
      exact ⟨file, .inl (hfile.resolve_right not_false), hturns.locate hlocate⟩
    · exact ⟨_, .inr rfl, hnew⟩
  exact ⟨horderly, hkept, hfound size rfl⟩

/-- What happens when an entry is put into the manifest. -/
theorem enter_eq_ok (h : s.enter e = (.ok (), s')) :
    ∃ d, saveManifest s.folder s.manifestPath (s.manifest.insert e.id e) = (.ok (), d) ∧
      s' = match (s.manifest.get? e.id).map (·.file) with
        | some file =>
          if file = e.file then { s with folder := d, manifest := s.manifest.insert e.id e }
          else PartitionStore.discardFile
            { s with folder := d, manifest := s.manifest.insert e.id e } file
        | none => { s with folder := d, manifest := s.manifest.insert e.id e } := by
  unfold enter at h
  simp only at h
  split at h
  · next s₁ heq =>
    obtain ⟨d, hsave, rfl⟩ := exchangeManifest_eq_ok.1 heq
    cases h
    exact ⟨d, hsave, rfl⟩
  · cases h

/-- The entry of lines that were written to a file. -/
def newEntry (s : PartitionStore) (id : PartitionId) (facts : List FactRecord) (size : Nat) :
    PartitionEntry :=
  { id, file := fileName id (contentHash facts), contentHash := contentHash facts
    rowCount := facts.length, fileSize := size, writtenAt := s.today.dayNumber * 86400
    summary := s.summaryOf facts }

/-- What happens when lines are written and entered. -/
theorem install_eq_ok {ref : PartitionRef}
    (h : s.install id facts (contentHash facts) = (.ok ref, s')) : ∃ size d s₁,
    writeFile s.folder (fileName id (contentHash facts)) facts = (.ok size, d) ∧
    enter { s with folder := d } (s.newEntry id facts size) = (.ok (), s₁) ∧
    s' = { s₁ with writtenCount := s₁.writtenCount + 1 } := by
  unfold install at h
  simp only at h
  split at h
  · cases h
  next size d hwrite =>
  split at h
  · cases h
  next s₁ hentered =>
  cases h
  exact ⟨size, d, s₁, hwrite, hentered, rfl⟩

/-- **Entering a table** that was written for a partition; the one that it replaces goes. -/
theorem Orderly.enter (hL : ToldApart L)
    (h : s.Orderly L (· = fileName e.id (contentHash facts)))
    (hunused : Unused s.manifest e.id (contentHash facts)) (hfiled : Filed L s.folder e.id e facts)
    (hok : s.enter e = (.ok (), s')) : Rewritten L s e.id s' := by
  obtain ⟨d, hsave, hs'⟩ := enter_eq_ok hok
  have hother : ∀ id', id' ≠ e.id → (s.manifest.insert e.id e).get? id' = s.manifest.get? id' :=
    fun id' hne => by rw [SortedMap.get?_insert, if_neg hne]
  obtain ⟨hsaved, hsavable, hkept⟩ := h.saved (m := s.manifest.insert e.id e)
    (G := fun file => (s.manifest.get? e.id).map (·.file) = some file) hsave
    (fun id' e' hget => by
      by_cases hid : id' = e.id
      · subst hid
        rw [SortedMap.get?_insert_self] at hget
        cases hget
        exact ⟨facts, hfiled⟩
      · exact h.entries id' e' ((hother id' hid).symm.trans hget))
    (fun file hfile => by
      rcases hfile with hnamed | rfl
      · exact named_insert hnamed
      · exact .inl (hfiled.file ▸ named_insert_self s.manifest))
  have hfiles {d' : Folder} (hfiles : KeepsFiles { s with
      folder := d, manifest := s.manifest.insert e.id e } d') (id' : PartitionId)
      (e' : PartitionEntry) (hne : id' ≠ e.id) (hget : s.manifest.get? id' = some e') :
      readFile { s with folder := d' } e'.file = s.readFile e'.file :=
    (hfiles id' e' ((hother id' hne).trans hget)).trans (hkept id' e' hget)
  cases hprevious : s.manifest.get? e.id with
  | none =>
    rw [hprevious] at hs' hsaved
    obtain rfl : s' = { s with folder := d, manifest := s.manifest.insert e.id e } := hs'
    refine ⟨⟨⟨hsaved.tree, hsaved.entries, hsaved.clear, fun place t hget => ?_⟩,
      fun _ _ _ => hsavable⟩, rfl, rfl, hother, hfiles fun _ _ _ => rfl⟩
    obtain ⟨file, hnamed | hnone, hlocate⟩ := hsaved.tables place t hget
    · exact ⟨file, .inl hnamed, hlocate⟩
    · cases hnone
  | some former =>
    obtain ⟨facts', hformer⟩ := h.entries e.id former hprevious
    have hne : former.file ≠ e.file := hfiled.file ▸ hunused.file_ne hprevious hformer
    rw [hprevious] at hs' hsaved
    simp only [Option.map_some, if_neg hne] at hs'
    rw [hformer.file] at hs'
    subst hs'
    -- The former file is the only one that has no entry any more.
    have hunused' : Unused (s.manifest.insert e.id e) e.id (contentHash facts') := by
      intro id' e' hget'
      by_cases hid : id' = e.id
      · subst hid
        obtain rfl : e = e' :=
          Option.some.inj ((SortedMap.get?_insert_self ..).symm.trans hget')
        rw [hfiled.hash, ← hformer.hash]
        exact (hunused e.id former hprevious).symm
      · obtain ⟨facts'', hfiled'⟩ := h.entries id' e' ((hother id' hid).symm.trans hget')
        rw [hfiled'.hash]
        exact baseName_ne_of_belong hL hfiled'.toBelong hformer.toBelong hid
    have hbut : Orderly L (fun file => False ∨ file = fileName e.id (contentHash facts'))
        { s with folder := d, manifest := s.manifest.insert e.id e } := by
      refine ⟨hsaved.tree, hsaved.entries, hsaved.clear, fun place t hget => ?_⟩
      refine (hsaved.tables place t hget).imp fun file hfile => ⟨hfile.1.imp_right fun heq => ?_,
        hfile.2⟩
      exact .inr ((Option.some.inj heq).symm.trans hformer.file)
    obtain ⟨horderly, hkeeps⟩ := hbut.discardFile hunused'
    exact ⟨⟨horderly, fun _ _ _ => hsavable.discardFile hsaved.tree _⟩, rfl, rfl, hother,
      hfiles hkeeps⟩

/-- **Writing lines** that no entry has the file of. -/
theorem Tidy.install (hL : ToldApart L) (h : s.Tidy L) (hfacts : Belong L id facts)
    (hunused : Unused s.manifest id (contentHash facts)) {ref : PartitionRef}
    (hok : s.install id facts (contentHash facts) = (.ok ref, s')) : Rewritten L s id s' := by
  obtain ⟨size, d, s₁, hwrite, hentered, rfl⟩ := install_eq_ok hok
  obtain ⟨horderly, hkept, t, htable, hnode⟩ := h.written hunused hwrite
  have hnew : Filed L d id (s.newEntry id facts size) facts := by
    refine ⟨hfacts, rfl, rfl, rfl, .table t, hnode, fun row hrow => ?_⟩
    obtain ⟨f, hf, hstore⟩ := FactTable.exists_storeId_of_ofLines htable hrow
    exact hstore.trans (hfacts.own f hf)
  have hrewritten : Rewritten L { s with folder := d } id s₁ :=
    Orderly.enter (e := s.newEntry id facts size) hL horderly hunused hnew hentered
  have hall : Rewritten L s id s₁ :=
    ⟨hrewritten.tidy, hrewritten.marks, hrewritten.today, hrewritten.entries,
      fun id' e hne hget => (hrewritten.files id' e hne hget).trans (hkept id' e hget)⟩
  exact hall.counted _ _

/-- An entry that is found to be out of date has another hash, since its file is there. -/
theorem Tidy.unused (hL : ToldApart L) (h : s.Tidy L) (hfacts : Belong L id facts)
    (hnone : s.unchanged? id (contentHash facts) = none) :
    Unused s.manifest id (contentHash facts) := by
  intro id' e hget
  obtain ⟨facts', hfiled⟩ := h.entries id' e hget
  by_cases hid : id' = id
  · subst hid
    have hcontains : s.folder.contains (FolderPath.ofText e.file) = true := by
      obtain ⟨_, hnode, -⟩ := hfiled.found
      rw [Folder.contains, hnode]
      rfl
    have hhash : e.contentHash ≠ contentHash facts := by
      intro heq
      unfold unchanged? at hnone
      rw [hget] at hnone
      simp [heq, hcontains] at hnone
    rw [hfiled.hash] at hhash ⊢
    exact fun hname => hhash (contentHash_eq_of_baseName_eq hname)
  · rw [hfiled.hash]
    exact baseName_ne_of_belong hL hfiled.toBelong hfacts hid

/-- **Replacing a partition** by lines of its store. -/
theorem Tidy.replace (hL : ToldApart L) (h : s.Tidy L)
    (hallowed : lines ≠ [] → L (canonicalSort lines)) (hown : ∀ f ∈ lines, f.storeId = id.storeId)
    {ref : PartitionRef} (hok : s.replace id lines = (.ok ref, s')) :
    Rewritten L s id s' ∧ (lines = [] → s'.manifest.get? id = none) := by
  obtain ⟨-, heq⟩ | ⟨hsome, ⟨_, _, -, -, heq⟩ | ⟨hchanged, heq⟩⟩ := s.replace_cases id lines
  · obtain ⟨ref', s'', hdrop, hrewritten, hnone⟩ :=
      h.exists_drop hL id (contentHash (canonicalSort lines))
    rw [heq, hdrop] at hok
    cases hok
    exact ⟨hrewritten, fun _ => hnone⟩
  · rw [heq] at hok
    cases hok
    exact ⟨(h.rewritten_self id).counted _ _, fun hnil => absurd hnil hsome⟩
  · have hfacts : Belong L id (canonicalSort lines) := by
      refine ⟨hallowed hsome, ?_, fun f hf => hown f (List.mem_mergeSort.1 hf)⟩
      rw [Ne, ← List.isEmpty_iff, isEmpty_canonicalSort, List.isEmpty_iff]
      exact hsome
    rw [heq] at hok
    exact ⟨h.install hL hfacts (h.unused hL hfacts hchanged) hok, fun hnil => absurd hnil hsome⟩

/-- The lines that are stored for a partition are of its store. -/
theorem Tidy.own_storedFacts (h : s.Tidy L) {stored : List FactRecord}
    (hstored : s.storedFacts id = .ok stored) : ∀ f ∈ stored, f.storeId = id.storeId := by
  unfold storedFacts at hstored
  split at hstored
  · next e hget =>
    obtain ⟨facts, hfiled⟩ := h.entries id e hget
    obtain ⟨node, hnode, hrows⟩ := hfiled.found
    obtain ⟨t, hnode', hlines⟩ := readFile_eq_ok.1 hstored
    obtain rfl : node = .table t := Except.ok.inj (hnode.symm.trans hnode')
    intro f hf
    obtain ⟨row, hrow, hstore⟩ := FactTable.exists_storeId_of_lines hlines hf
    exact hstore.trans (hrows row hrow)
  · cases hstored
    exact fun _ hf => absurd hf List.not_mem_nil

end PartitionStore

end RetailReport
