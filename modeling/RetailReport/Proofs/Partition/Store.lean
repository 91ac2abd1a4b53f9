import Mathlib.Logic.Function.Basic
import RetailReport.Proofs.Partition.Calls
import RetailReport.Proofs.Partition.FileName
import RetailReport.Proofs.Partition.Folder
import RetailReport.Proofs.Partition.Table

/-!
# What writing does to the stored partitions

Replacing a partition changes what can be read of it, and of no other one; if it fails at any point,
nothing that can be read changes.  For the files of all partitions are told apart by their names,
which hold the hashes of their lines, and whatever else is written has another name.

So it depends on the hashes: the lines that may be stored are taken to be told apart by theirs.
They are also taken to hold no leap seconds, which a table does not give back.

## Main definitions

* `Storable`: the lists of lines that may be stored are told apart by their hashes.
* `PartitionStore.Sound`: every entry has its file, and the file holds lines that may be stored.
* `PartitionStore.Becomes`: what can be read after a change.
* `content`: what is stored of some lines.

## Main results

* `PartitionStore.replaces_replace`: replacing a partition.
* `Migration.replaces_follow`: making a partition follow some lines.
-/

namespace RetailReport

/-! ### Stored lines -/

/-- **What is stored of some lines**: the lines by their ids, or nothing at all. -/
def content (facts : List FactRecord) : Option (List FactRecord) :=
  if facts.isEmpty then none else some (canonicalSort facts)

theorem content_of_ne_nil {facts : List FactRecord} (h : facts ≠ []) :
    content facts = some (canonicalSort facts) :=
  if_neg (mt List.isEmpty_iff.1 h)

theorem getD_content_perm (facts : List FactRecord) : ((content facts).getD []).Perm facts := by
  unfold content
  split
  · next hempty => rw [List.isEmpty_iff.1 hempty, Option.getD_none]
  · exact List.mergeSort_perm _ _

/-- **The lists that may be stored** hold no leap seconds, and are told apart by their hashes. -/
structure Storable (L : List FactRecord → Prop) : Prop where
  /-- A table gives the lines back. -/
  ordinary : ∀ facts, L facts → ∀ f ∈ facts, f.IsOrdinary
  /-- Lists with one hash are equal. -/
  apart : ∀ facts facts', L facts → L facts' → contentHash facts = contentHash facts' →
    facts = facts'

theorem Storable.mono {L L' : List FactRecord → Prop} (h : Storable L') (hsub : ∀ l, L l → L' l) :
    Storable L :=
  ⟨fun l hl => h.ordinary l (hsub l hl), fun l l' hl hl' => h.apart l l' (hsub l hl) (hsub l' hl')⟩

/-- Lines of a partition that may be stored. -/
structure Storable.Of (L : List FactRecord → Prop) (id : PartitionId) (facts : List FactRecord) :
    Prop where
  /-- They may be stored. -/
  allowed : L facts
  /-- There are some. -/
  nonempty : facts ≠ []
  /-- They belong to the partition. -/
  own : ∀ f ∈ facts, id.holds f = true

/-- **Files are told apart by their names.** -/
theorem Storable.Of.eq_of_baseName_eq {L : List FactRecord → Prop} (hL : Storable L)
    {id id' : PartitionId} {facts facts' : List FactRecord} (h : Storable.Of L id facts)
    (h' : Storable.Of L id' facts')
    (hname : PartitionStore.baseName id (contentHash facts) =
      PartitionStore.baseName id' (contentHash facts')) : id = id' ∧ facts = facts' := by
  obtain rfl := hL.apart _ _ h.allowed h'.allowed
    (PartitionStore.contentHash_eq_of_baseName_eq hname)
  obtain ⟨f, hf⟩ := List.exists_mem_of_ne_nil _ h.nonempty
  have hown := h.own f hf
  have hown' := h'.own f hf
  simp only [PartitionId.holds, Bool.and_eq_true, decide_eq_true_eq] at hown hown'
  cases id
  cases id'
  simp_all

namespace PartitionStore

variable {s s' s'' : PartitionStore} {L : List FactRecord → Prop} {d d' : Folder}
  {S : String → Prop} {id : PartitionId} {e : PartitionEntry} {facts : List FactRecord}

/-- **An entry has its file**, which holds lines that may be stored. -/
structure Stored (L : List FactRecord → Prop) (d : Folder) (id : PartitionId) (e : PartitionEntry)
    (facts : List FactRecord) : Prop extends Storable.Of L id facts where
  /-- The entry is of the partition. -/
  entryId : e.id = id
  /-- It tells the hash of the lines. -/
  hash : e.contentHash = contentHash facts
  /-- The file is named for the hash. -/
  file : e.file = fileName id (contentHash facts)
  /-- The file holds the lines. -/
  table : ∃ t, d.node (FolderPath.ofText e.file) = .ok (.table t) ∧ t.lines = .ok facts

/-- **The store is in order**: every entry has its file, and the manifest is kept under another name
than files with tables. -/
structure Sound (L : List FactRecord → Prop) (s : PartitionStore) : Prop where
  /-- The tree of the folder hangs together. -/
  tree : s.folder.Tree
  /-- The name of the manifest. -/
  manifestName : ∀ name, s.manifestPath.getLast? = some name → ¬IsTableName name
  /-- Every entry has its file. -/
  entries : ∀ id e, s.manifest.get? id = some e → ∃ facts, Stored L s.folder id e facts

theorem Stored.mono {L' : List FactRecord → Prop} (h : Stored L d id e facts)
    (hsub : ∀ l, L l → L' l) : Stored L' d id e facts :=
  { h with allowed := hsub _ h.allowed }

theorem Sound.mono {L' : List FactRecord → Prop} (h : s.Sound L) (hsub : ∀ l, L l → L' l) :
    s.Sound L' :=
  { h with entries := fun id e hget => (h.entries id e hget).imp fun _ hfile => hfile.mono hsub }

theorem readFile_eq_ok {file : String} : s.readFile file = .ok facts ↔
    ∃ t, s.folder.node (FolderPath.ofText file) = .ok (.table t) ∧ t.lines = .ok facts := by
  unfold readFile
  constructor
  · intro h
    split at h
    · next t hnode =>
      refine ⟨t, hnode, ?_⟩
      split at h
      · next hlines => rw [hlines, Except.ok.inj h]
      · cases h
    · cases h
    · cases h
  · rintro ⟨t, hnode, hlines⟩
    simp only [hnode, hlines]

/-- What can be read of a stored partition. -/
theorem Stored.readPartition (h : Stored L s.folder id e facts)
    (hget : s.manifest.get? id = some e) :
    s.readPartition id = .ok (some facts) := by
  have hread : s.readFile e.file = .ok facts := readFile_eq_ok.2 h.table
  unfold PartitionStore.readPartition
  rw [hget]
  show (s.readFile e.file).map some = _
  rw [hread]
  rfl

/-- A file stays as long as its name is not touched. -/
theorem Stored.turns (h : Stored L d id e facts) (ht : d.Tree) (hturns : d.Turns S d')
    (hname : ¬S (baseName id (contentHash facts))) : Stored L d' id e facts := by
  obtain ⟨t, hnode, hlines⟩ := h.table
  refine { h with table := ⟨t, hturns.node ht hnode nofun fun name hlast => ?_, hlines⟩ }
  rw [h.file, ofText_fileName, Option.some.injEq] at hlast
  exact hlast ▸ hname

/-- The file of an entry is there. -/
theorem Stored.contains (h : Stored L d id e facts) :
    d.contains (FolderPath.ofText e.file) = true := by
  obtain ⟨t, hnode, -⟩ := h.table
  rw [Folder.contains, hnode]
  rfl

/-! ### Changes -/

/-- **What has become of a store**: it is still in order, and tells what can be read of each
partition. -/
structure Becomes (L : List FactRecord → Prop) (s s' : PartitionStore)
    (read : PartitionId → Except PartitionError (Option (List FactRecord))) : Prop where
  /-- It is in order. -/
  sound : s'.Sound L
  /-- What can be read of each partition. -/
  reads : ∀ id, s'.readPartition id = read id
  /-- No mark has changed. -/
  marks : s'.marks = s.marks
  /-- No mark was set. -/
  markCount : s'.markCount = s.markCount
  /-- The business day is the same. -/
  today : s'.today = s.today

/-- The files of all entries outlast a change of the folder that touches other names only. -/
theorem Sound.becomes_folder (hs : s.Sound L) (hturns : s.folder.Turns S d)
    (hname : ∀ id e facts, s.manifest.get? id = some e → Stored L s.folder id e facts →
      ¬S (baseName id (contentHash facts))) :
    Becomes L s { s with folder := d } s.readPartition where
  sound := {
    tree := hturns.tree
    manifestName := hs.manifestName
    entries := fun id e hget =>
      (hs.entries id e hget).imp fun facts h => h.turns hs.tree hturns (hname id e facts hget h) }
  reads id := by
    cases hget : s.manifest.get? id with
    | none =>
      unfold readPartition
      simp only [hget]
    | some e =>
      obtain ⟨facts, h⟩ := hs.entries id e hget
      rw [h.readPartition hget]
      exact (h.turns hs.tree hturns (hname id e facts hget h)).readPartition hget
  marks := rfl
  markCount := rfl
  today := rfl

theorem Becomes.trans
    {read read' : PartitionId → Except PartitionError (Option (List FactRecord))}
    (h : Becomes L s s' read) (h' : Becomes L s' s'' read') : Becomes L s s'' read' :=
  ⟨h'.sound, h'.reads, h'.marks.trans h.marks, h'.markCount.trans h.markCount,
    h'.today.trans h.today⟩

/-- A change after which as much can be read as before. -/
theorem Becomes.kept {read : PartitionId → Except PartitionError (Option (List FactRecord))}
    (h : Becomes L s s' read) (h' : Becomes L s' s'' s'.readPartition) : Becomes L s s'' read :=
  h.trans (funext h.reads ▸ h')

/-- A change of one partition, after as much can be read as before. -/
theorem Becomes.update {stored : Except PartitionError (Option (List FactRecord))}
    (h : Becomes L s s' s.readPartition)
    (h' : Becomes L s' s'' (Function.update s'.readPartition id stored)) :
    Becomes L s s'' (Function.update s.readPartition id stored) :=
  h.trans (funext h.reads ▸ h')

/-- Counting changes nothing. -/
theorem Becomes.counted {read : PartitionId → Except PartitionError (Option (List FactRecord))}
    (h : Becomes L s s' read) (writtenCount unchangedCount : Nat) :
    Becomes L s { s' with writtenCount, unchangedCount } read :=
  ⟨⟨h.sound.tree, h.sound.manifestName, h.sound.entries⟩, h.reads, h.marks, h.markCount, h.today⟩

/-- Leaving the store as it is changes nothing. -/
theorem Sound.becomes_self (hs : s.Sound L) : Becomes L s s s.readPartition :=
  ⟨hs, fun _ => rfl, rfl, rfl, rfl⟩

/-- Taking an entry out of the manifest. -/
theorem Sound.becomes_erase (hs : s.Sound L) (id : PartitionId) :
    Becomes L s { s with manifest := s.manifest.erase id }
      (Function.update s.readPartition id (.ok none)) where
  sound := {
    tree := hs.tree
    manifestName := hs.manifestName
    entries := fun id' e hget => by
      rw [SortedMap.get?_erase] at hget
      split at hget
      · cases hget
      · exact hs.entries id' e hget }
  reads id' := by
    rw [Function.update_apply]
    unfold readPartition
    simp only [SortedMap.get?_erase]
    by_cases heq : id' = id
    · rw [if_pos heq, if_pos heq]
    · rw [if_neg heq, if_neg heq]
      rfl
  marks := rfl
  markCount := rfl
  today := rfl

/-- Entering a file that has been written into the manifest. -/
theorem Sound.becomes_insert (hs : s.Sound L) (h : Stored L s.folder id e facts) :
    Becomes L s { s with manifest := s.manifest.insert id e }
      (Function.update s.readPartition id (.ok (some facts))) where
  sound := {
    tree := hs.tree
    manifestName := hs.manifestName
    entries := fun id' e' hget => by
      rw [SortedMap.get?_insert] at hget
      split at hget
      · next heq =>
        cases hget
        exact ⟨facts, heq ▸ h⟩
      · exact hs.entries id' e' hget }
  reads id' := by
    rw [Function.update_apply]
    split
    · next heq =>
      subst heq
      exact Stored.readPartition (s := { s with manifest := s.manifest.insert id' e }) h
        (SortedMap.get?_insert_self ..)
    · next hne =>
      unfold readPartition
      simp only [SortedMap.get?_insert, if_neg hne]
      rfl
  marks := rfl
  markCount := rfl
  today := rfl

/-! ### The manifest -/

/-- **Why nothing can be stored under a path by way of a draft**: the directories that it lies in
cannot be created, what is to be held cannot be written to the draft, or the draft cannot take its
place. -/
inductive StoreFault (d : Folder) (draft path : FolderPath) (held : FolderNode → Prop)
    (cause : FolderError) : Prop
  /-- The directories. -/
  | parents : (d.makeParents path).1 = .error cause → StoreFault d draft path held cause
  /-- The draft. -/
  | write {node : FolderNode} : held node →
      (d.makeParents path).2.write draft node = .error cause → StoreFault d draft path held cause
  /-- Its move. -/
  | rename {node : FolderNode} {d' : Folder} : held node →
      (d.makeParents path).2.write draft node = .ok d' → d'.rename draft path = .error cause →
      StoreFault d draft path held cause

/-- Why a manifest cannot be saved. -/
def ManifestFault (d : Folder) (path : FolderPath) (m : Manifest) : FolderError → Prop :=
  StoreFault d (FolderPath.withExtension path "tmp") path (· = .text m.text)

/-- Why lines cannot be written to a file. -/
def TableFault (d : Folder) (file : String) (facts : List FactRecord) : FolderError → Prop :=
  StoreFault d (FolderPath.extended (FolderPath.ofText file) ".tmp") (FolderPath.ofText file)
    fun node => ∃ t, FactTable.ofLines facts = .ok t ∧ node = .table t

/-- What holds of a folder and outlasts each step of saving a manifest holds afterwards. -/
theorem saveManifest_keeps {P : Folder → Prop} {path : FolderPath} (m : Manifest)
    (hparents : P (d.makeParents path).2)
    (hwrite : ∀ d d' node, P d → d.write (FolderPath.withExtension path "tmp") node = .ok d' → P d')
    (hrename : ∀ d d', P d → d.rename (FolderPath.withExtension path "tmp") path = .ok d' → P d') :
    P (saveManifest d path m).2 := by
  unfold saveManifest
  split
  · next heq =>
    rw [heq] at hparents
    exact hparents
  · next heq =>
    rw [heq] at hparents
    simp only
    split
    · exact hparents
    · next hdraft =>
      have hwritten := hwrite _ _ _ hparents hdraft
      split
      · exact hwritten
      · next hplaced => exact hrename _ _ hwritten hplaced

theorem saveManifest_eq_error {path : FolderPath} {m : Manifest} {cause : FolderError}
    (h : (saveManifest d path m).1 = .error cause) : ManifestFault d path m cause := by
  unfold saveManifest at h
  split at h
  · next heq => exact .parents ((congrArg Prod.fst heq).trans h)
  · next d₁ heq =>
    obtain rfl : (d.makeParents path).2 = d₁ := congrArg Prod.snd heq
    simp only at h
    split at h
    · next hwrite => exact .write rfl (Except.error.inj h ▸ hwrite)
    · next hwrite =>
      split at h
      · next hrename => exact .rename rfl hwrite (Except.error.inj h ▸ hrename)
      · cases h

/-- Saving a manifest touches no file with a table. -/
theorem turns_saveManifest (ht : d.Tree) {path : FolderPath}
    (hname : ∀ name, path.getLast? = some name → ¬IsTableName name) (m : Manifest) :
    d.Turns (fun name => ¬IsTableName name) (saveManifest d path m).2 := by
  have hdraft : ∀ name, (FolderPath.withExtension path "tmp").getLast? = some name →
      ¬IsTableName name := fun name h => not_isTableName_draft h
  apply saveManifest_keeps (P := d.Turns fun name => ¬IsTableName name) m
  · exact Folder.turns_makeParents ht path
  · intro d₁ d₂ node hturns hwrite
    exact hturns.trans (Folder.turns_write hturns.tree hwrite hdraft)
  · intro d₁ d₂ hturns hrename
    exact hturns.trans (Folder.turns_rename hturns.tree hrename hdraft hname).1

/-- Either the manifest is exchanged, or it cannot be saved and nothing but the folder changes. -/
theorem exchangeManifest_eq (s : PartitionStore) (m : Manifest) :
    s.exchangeManifest m =
        (.ok (), { s with folder := (saveManifest s.folder s.manifestPath m).2, manifest := m }) ∨
      ∃ cause, ManifestFault s.folder s.manifestPath m cause ∧
        s.exchangeManifest m = (.error (.io cause),
          { s with folder := (saveManifest s.folder s.manifestPath m).2 }) := by
  unfold exchangeManifest
  split
  · next heq => exact .inl (by rw [heq])
  · next cause _ heq =>
    exact .inr ⟨cause, saveManifest_eq_error (congrArg Prod.fst heq), by rw [heq]⟩

/-- Either way, files with tables are left. -/
theorem exchangeManifest_cases (hs : s.Sound L) (m : Manifest) :
    ∃ d, s.folder.Turns (fun name => ¬IsTableName name) d ∧
      (s.exchangeManifest m = (.ok (), { s with folder := d, manifest := m }) ∨
        ∃ cause, s.exchangeManifest m = (.error (.io cause), { s with folder := d })) :=
  ⟨_, turns_saveManifest hs.tree hs.manifestName m,
    (exchangeManifest_eq s m).imp_right fun ⟨cause, _, heq⟩ => ⟨cause, heq⟩⟩

/-- Files with tables outlast a change of the folder that touches none. -/
theorem Sound.becomes_saved (hs : s.Sound L)
    (hturns : s.folder.Turns (fun name => ¬IsTableName name) d) :
    Becomes L s { s with folder := d } s.readPartition :=
  hs.becomes_folder hturns fun _ _ _ _ _ h => h (isTableName_baseName _ _)

/-! ### Files with tables -/

/-- No entry has the file that some lines would have. -/
def Fresh (L : List FactRecord → Prop) (s : PartitionStore) (id : PartitionId)
    (facts : List FactRecord) : Prop :=
  ∀ id' e facts', s.manifest.get? id' = some e → Stored L s.folder id' e facts' →
    baseName id' (contentHash facts') ≠ baseName id (contentHash facts)

/-- **Lines that a partition does not hold** would have a file of their own. -/
theorem fresh_of_readPartition (hL : Storable L) (hof : Storable.Of L id facts)
    (hne : s.readPartition id ≠ .ok (some facts)) : s.Fresh L id facts := by
  intro id' e facts' hget hstored hname
  obtain ⟨rfl, rfl⟩ := hstored.toOf.eq_of_baseName_eq hL hof hname
  exact hne (hstored.readPartition hget)

theorem Sound.becomes_discardFile (hs : s.Sound L) (hfresh : s.Fresh L id facts) :
    Becomes L s (s.discardFile (fileName id (contentHash facts))) s.readPartition := by
  refine hs.becomes_folder (S := (· = baseName id (contentHash facts)))
    (Folder.turns_discardFile hs.tree fun name hlast => ?_) hfresh
  rw [ofText_fileName, Option.some.injEq] at hlast
  exact hlast.symm

/-- **How a file is written**: as a draft first, which then takes its place. -/
theorem writeFile_cases (d : Folder) (file : String) (facts : List FactRecord) :
    let path := FolderPath.ofText file
    let d₁ := (d.makeParents path).2
    (∃ cause, TableFault d file facts cause ∧ writeFile d file facts = (.error (.io cause), d₁)) ∨
    (∃ cause, FactTable.ofLines facts = .error cause ∧
      writeFile d file facts = (.error (.table cause), d₁)) ∨
    ∃ t d₂, FactTable.ofLines facts = .ok t ∧
      d₁.write (FolderPath.extended path ".tmp") (.table t) = .ok d₂ ∧
      ((∃ cause, TableFault d file facts cause ∧
          writeFile d file facts = (.error (.io cause), d₂)) ∨
        ∃ d₃, d₂.rename (FolderPath.extended path ".tmp") path = .ok d₃ ∧
          writeFile d file facts = (.ok t.cellCount, d₃)) := by
  intro path d₁
  unfold writeFile
  simp only
  split
  · next heq =>
    exact .inl ⟨_, .parents (congrArg Prod.fst heq), by rw [show d₁ = _ from congrArg Prod.snd heq]⟩
  · next d' heq =>
    have hd₁ : d₁ = d' := congrArg Prod.snd heq
    split
    · next cause htable => exact .inr (.inl ⟨cause, htable, by rw [hd₁]⟩)
    · next t htable =>
      split
      · next hwrite => exact .inl ⟨_, .write ⟨t, htable, rfl⟩ (hd₁ ▸ hwrite), by rw [hd₁]⟩
      · next d₂ hwrite =>
        have hwritten : d₁.write (FolderPath.extended path ".tmp") (.table t) = .ok d₂ :=
          hd₁ ▸ hwrite
        refine .inr (.inr ⟨t, d₂, htable, hwritten, ?_⟩)
        split
        · next hrename => exact .inl ⟨_, .rename ⟨t, htable, rfl⟩ hwritten hrename, rfl⟩
        · next d₃ hrename => exact .inr ⟨d₃, hrename, rfl⟩

/-- Writing a file touches drafts and files of its name only. -/
theorem turns_writeFile (ht : d.Tree) (id : PartitionId) (facts : List FactRecord) :
    d.Turns (fun name => ¬IsTableName name ∨ name = baseName id (contentHash facts))
      (writeFile d (fileName id (contentHash facts)) facts).2 ∧
      ∀ size, (writeFile d (fileName id (contentHash facts)) facts).1 = .ok size →
        ∃ t, FactTable.ofLines facts = .ok t ∧
          (writeFile d (fileName id (contentHash facts)) facts).2.node
            (FolderPath.ofText (fileName id (contentHash facts))) = .ok (.table t) := by
  have hlast := ofText_fileName id facts
  have hdraft : ∀ name,
      (FolderPath.extended (FolderPath.ofText (fileName id (contentHash facts))) ".tmp").getLast? =
        some name → ¬IsTableName name ∨ name = baseName id (contentHash facts) :=
    fun name hname => .inl (not_isTableName_extended hlast hname)
  have hfile : ∀ name, (FolderPath.ofText (fileName id (contentHash facts))).getLast? = some name →
      ¬IsTableName name ∨ name = baseName id (contentHash facts) :=
    fun name hname => .inr (Option.some.inj (hname.symm.trans hlast))
  have hparents := Folder.turns_makeParents
    (S := fun name => ¬IsTableName name ∨ name = baseName id (contentHash facts)) ht
    (FolderPath.ofText (fileName id (contentHash facts)))
  obtain ⟨_, -, heq⟩ | ⟨_, _, heq⟩ | ⟨t, d₂, htable, hwrite, hplaced⟩ :=
    writeFile_cases d (fileName id (contentHash facts)) facts
  · rw [heq]
    exact ⟨hparents, nofun⟩
  · rw [heq]
    exact ⟨hparents, nofun⟩
  · have hwritten := hparents.trans (Folder.turns_write hparents.tree hwrite hdraft)
    obtain ⟨_, -, heq⟩ | ⟨d₃, hrename, heq⟩ := hplaced
    · rw [heq]
      exact ⟨hwritten, nofun⟩
    · obtain ⟨hturns, hfound⟩ := Folder.turns_rename hwritten.tree hrename hdraft hfile
      rw [heq]
      refine ⟨hwritten.trans hturns, fun _ _ => ⟨t, htable, hfound _ ?_⟩⟩
      exact Folder.node_write hparents.tree hwrite

/-! ### Writing -/

/-- **How a partition is replaced**: by some lines if that succeeds, and not at all if it fails. -/
def Replaces {α : Type} (L : List FactRecord → Prop) (s : PartitionStore) (id : PartitionId)
    (stored : Option (List FactRecord)) : Except PartitionError α × PartitionStore → Prop
  | (.ok _, s') => Becomes L s s' (Function.update s.readPartition id (.ok stored))
  | (.error _, s') => Becomes L s s' s.readPartition

theorem Replaces.of_ok {α : Type} {stored : Option (List FactRecord)}
    {r : Except PartitionError α × PartitionStore} {a : α} (h : Replaces L s id stored r)
    (hok : r.1 = .ok a) : Becomes L s r.2 (Function.update s.readPartition id (.ok stored)) := by
  obtain ⟨outcome, s'⟩ := r
  cases hok
  exact h

theorem Replaces.of_error {α : Type} {stored : Option (List FactRecord)}
    {r : Except PartitionError α × PartitionStore} {error : PartitionError}
    (h : Replaces L s id stored r) (herror : r.1 = .error error) :
    Becomes L s r.2 s.readPartition := by
  obtain ⟨outcome, s'⟩ := r
  cases herror
  exact h

theorem replaces_drop (hL : Storable L) (hs : s.Sound L) (id : PartitionId) (hash : String) :
    Replaces L s id none (s.drop id hash) := by
  unfold drop
  split
  · next hget =>
    have hread : s.readPartition id = .ok none := by
      unfold readPartition
      simp only [hget]
    show Becomes L s s _
    rw [← hread, Function.update_eq_self]
    exact hs.becomes_self
  · next e hget =>
    obtain ⟨facts, hstored⟩ := hs.entries id e hget
    obtain ⟨d, hturns, heq | ⟨_, heq⟩⟩ := exchangeManifest_cases hs (s.manifest.erase id)
    · have hsaved := hs.becomes_saved hturns
      have herased := hsaved.update (hsaved.sound.becomes_erase id)
      have hfresh := fresh_of_readPartition hL hstored.toOf
        (by rw [herased.reads, Function.update_self]; exact nofun)
      rw [heq, hstored.file]
      exact herased.kept (herased.sound.becomes_discardFile hfresh)
    · rw [heq]
      exact hs.becomes_saved hturns

/-- **Entering a file** that holds lines which the partition did not hold. -/
theorem replaces_enter (hL : Storable L) (hs : s.Sound L) (hstored : Stored L s.folder id e facts)
    (hne : s.readPartition id ≠ .ok (some facts)) :
    Replaces L s id (some facts) (s.enter e) := by
  unfold enter
  rw [hstored.entryId]
  simp only
  obtain ⟨d, hturns, heq | ⟨_, heq⟩⟩ := exchangeManifest_cases hs (s.manifest.insert id e)
  · have hsaved := hs.becomes_saved hturns
    have hstored' : Stored L d id e facts :=
      hstored.turns hs.tree hturns fun h => h (isTableName_baseName _ _)
    have hentered := hsaved.update (hsaved.sound.becomes_insert hstored')
    rw [heq]
    show Becomes L s _ _
    cases hprevious : s.manifest.get? id with
    | none => exact hentered
    | some former =>
      obtain ⟨lines, hformer⟩ := hs.entries id former hprevious
      simp only [Option.map_some]
      split
      · exact hentered
      · have hlines : lines ≠ facts := by
          rintro rfl
          exact hne (hformer.readPartition hprevious)
        have hfresh := fresh_of_readPartition hL hformer.toOf
          (by
            rw [hentered.reads, Function.update_self]
            exact fun h => hlines (Option.some.inj (Except.ok.inj h)).symm)
        rw [hformer.file]
        exact hentered.kept (hentered.sound.becomes_discardFile hfresh)
  · have hsaved := hs.becomes_saved hturns
    rw [heq]
    show Becomes L s _ _
    split
    · exact hsaved
    · have hfresh := fresh_of_readPartition hL hstored.toOf (by rw [hsaved.reads]; exact hne)
      rw [hstored.file]
      exact hsaved.kept (hsaved.sound.becomes_discardFile hfresh)

/-- **Writing lines that the partition does not hold.** -/
theorem replaces_install (hL : Storable L) (hs : s.Sound L) (hof : Storable.Of L id facts)
    (hne : s.readPartition id ≠ .ok (some facts)) :
    Replaces L s id (some facts) (s.install id facts (contentHash facts)) := by
  have hfresh := fresh_of_readPartition hL hof hne
  obtain ⟨hturns, htable⟩ := turns_writeFile hs.tree id facts
  -- The file has a name that no entry has, so writing it disturbs none of them.
  have hwritten := hs.becomes_folder hturns fun id' e facts' hget hstored => by
    rintro (h | h)
    · exact h (isTableName_baseName _ _)
    · exact hfresh id' e facts' hget hstored h
  unfold install
  simp only
  split
  · next heq =>
    rw [heq] at hwritten
    exact hwritten
  · next size d heq =>
    rw [heq] at hwritten htable
    obtain ⟨t, hlines, hnode⟩ := htable size rfl
    have hstored : Stored L d id
        { id, file := fileName id (contentHash facts), contentHash := contentHash facts
          rowCount := facts.length, fileSize := size, writtenAt := s.today.dayNumber * 86400
          summary := s.summaryOf facts } facts :=
      { hof with
        entryId := rfl
        hash := rfl
        file := rfl
        table := ⟨t, hnode, FactTable.lines_ofLines hlines (hL.ordinary facts hof.allowed)⟩ }
    have hentered := replaces_enter hL hwritten.sound hstored (by rw [hwritten.reads]; exact hne)
    split
    · next heq' =>
      rw [heq'] at hentered
      exact hwritten.kept hentered
    · next heq' =>
      rw [heq'] at hentered
      exact (hwritten.update hentered).counted _ _

/-! ### Whole partitions -/

/-- A partition that holds some lines is found unchanged. -/
theorem Sound.readPartition_ne (hs : s.Sound L)
    (h : s.unchanged? id (contentHash facts) = none) : s.readPartition id ≠ .ok (some facts) := by
  intro hread
  unfold unchanged? at h
  cases hget : s.manifest.get? id with
  | none =>
    unfold readPartition at hread
    simp only [hget] at hread
    cases hread
  | some e =>
    obtain ⟨lines, hstored⟩ := hs.entries id e hget
    obtain rfl : lines = facts :=
      Option.some.inj (Except.ok.inj ((hstored.readPartition hget).symm.trans hread))
    rw [hget, Option.filter_some, if_pos] at h
    · cases h
    · rw [hstored.contains, Bool.and_true]
      exact decide_eq_true hstored.hash

/-- **Replacing a partition** by some lines of its own. -/
theorem replaces_replace (hL : Storable L) (hs : s.Sound L) {lines : List FactRecord}
    (hallowed : lines ≠ [] → L (canonicalSort lines)) (hown : ∀ f ∈ lines, id.holds f = true) :
    Replaces L s id (content lines) (s.replace id lines) := by
  obtain ⟨rfl, heq⟩ | ⟨hsome, hcases⟩ := s.replace_cases id lines
  · rw [heq]
    exact replaces_drop hL hs id _
  · have hof : Storable.Of L id (canonicalSort lines) := {
      allowed := hallowed hsome
      nonempty := fun hnil => hsome
        (List.isEmpty_iff.1 (by rw [← isEmpty_canonicalSort, hnil, List.isEmpty_nil]))
      own := fun f hf => hown f (List.mem_mergeSort.1 hf) }
    rw [content_of_ne_nil hsome]
    obtain ⟨e, ref, hunchanged, -, heq⟩ | ⟨hunchanged, heq⟩ := hcases
    · rw [heq]
      obtain ⟨hget, hsame⟩ := Option.filter_eq_some_iff.1 hunchanged
      obtain ⟨facts, hstored⟩ := hs.entries id e hget
      have hhash : e.contentHash = contentHash (canonicalSort lines) :=
        of_decide_eq_true (Bool.and_eq_true_iff.1 hsame).1
      have hfacts : facts = canonicalSort lines :=
        hL.apart _ _ hstored.allowed hof.allowed (hstored.hash.symm.trans hhash)
      have hread : s.readPartition id = .ok (some (canonicalSort lines)) :=
        hfacts ▸ hstored.readPartition hget
      have hkept : Becomes L s s
          (Function.update s.readPartition id (.ok (some (canonicalSort lines)))) := by
        rw [← hread, Function.update_eq_self]
        exact hs.becomes_self
      exact hkept.counted _ _
    · rw [heq]
      exact replaces_install hL hs hof (hs.readPartition_ne hunchanged)

/-- What becomes of the store does not depend on what is reported. -/
theorem replaces_map {α β : Type} {stored : Option (List FactRecord)}
    {r : Except PartitionError α × PartitionStore} (h : Replaces L s id stored r) (f : α → β) :
    Replaces L s id stored (r.1.map f, r.2) := by
  obtain ⟨outcome, s'⟩ := r
  cases outcome <;> exact h

/-- **Removing a partition.** -/
theorem replaces_removePartition (hL : Storable L) (hs : s.Sound L) (id : PartitionId) :
    Replaces L s id none (s.removePartition id) := by
  rw [removePartition_eq]
  exact replaces_map
    (replaces_replace hL hs (fun h => absurd rfl h) fun _ hf => absurd hf List.not_mem_nil) _

/-- **Writing a partition.** -/
theorem replaces_writePartition (hL : Storable L) (hs : s.Sound L) {lines : List FactRecord}
    (hallowed : lines ≠ [] → L (canonicalSort lines)) :
    Replaces L s id (content lines) (s.writePartition id lines) := by
  obtain ⟨_, -, heq⟩ | ⟨hcheck, heq⟩ := s.writePartition_cases id lines
  · rw [heq]
    exact hs.becomes_self
  · rw [heq]
    exact replaces_replace hL hs hallowed (checkFacts_eq_ok.1 hcheck)

theorem Sound.own_storedFacts (hs : s.Sound L) (h : s.storedFacts id = .ok facts) :
    ∀ f ∈ facts, id.holds f = true := by
  unfold storedFacts at h
  split at h
  · next e hget =>
    obtain ⟨lines, hstored⟩ := hs.entries id e hget
    rw [readFile_eq_ok.2 hstored.table, Except.ok.injEq] at h
    exact h ▸ hstored.own
  · cases h
    exact fun _ hf => absurd hf List.not_mem_nil

/-- **Appending to a partition** of a day that is not over. -/
theorem replaces_appendOpen (hL : Storable L) (hs : s.Sound L) {lines : List FactRecord}
    (hallowed : s.appended id lines ≠ [] → L (canonicalSort (s.appended id lines))) :
    Replaces L s id (content (s.appended id lines)) (s.appendOpen id lines) := by
  obtain ⟨_, -, heq⟩ | ⟨-, hcheck, -, heq⟩ := s.appendOpen_cases id lines
  · rw [heq]
    exact hs.becomes_self
  · rw [heq]
    exact replaces_replace hL hs hallowed
      (forall_mem_appended (fun _ => hs.own_storedFacts) (checkFacts_eq_ok.1 hcheck))

end PartitionStore

/-! ### Following the fact store -/

namespace Migration

open PartitionStore

variable {s : PartitionStore} {L : List FactRecord → Prop} {id : PartitionId}
  {lines : List FactRecord}

/-- **Making a partition follow** some lines. -/
theorem replaces_follow (hL : Storable L) (hs : s.Sound L)
    (hallowed : followed s id lines ≠ [] → L (canonicalSort (followed s id lines))) :
    Replaces L s id (content (followed s id lines)) (follow s id lines) := by
  obtain ⟨_, -, -, heq⟩ | ⟨hcheck, heq⟩ := follow_cases s id lines
  · rw [heq]
    exact hs.becomes_self
  · rw [heq]
    exact replaces_map (replaces_replace hL hs hallowed
      (forall_mem_followed (fun _ => hs.own_storedFacts) (checkFacts_eq_ok.1 hcheck))) _

end Migration

end RetailReport
