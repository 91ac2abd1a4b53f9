import RetailReport.Proofs.Partition.Store

/-!
# What the manifest says is what there is

Every file with the name of a table is the file of an entry, and every entry says of its lines what
is so: their hash, their number and their summary.  No operation changes that, whether it succeeds
or fails, and at whichever point it fails.  What an operation refuses for any other reason than its
files it leaves as it was, but for the directories that it has created.

## Main definitions

* `Folder.Listed`: the files with names of tables are some known ones.
* `PartitionStore.Describes`: what an entry says of its lines is so.
* `PartitionStore.Exact`: the manifest says what there is.
* `PartitionStore.Spared`: nothing has changed but for new directories.
* `PartitionStore.FileFault`: why the files of a store fail.
* `PartitionStore.RefusesLines`: why lines are refused.

## Main results

* `PartitionStore.exact_writePartition`, `PartitionStore.exact_appendOpen`,
  `PartitionStore.exact_removePartition`: the manifest stays exact.
* `PartitionStore.spared_of_writePartition`, `PartitionStore.spared_of_appendOpen`: what is refused
  changes nothing.
-/

namespace RetailReport

/-! ### Listed files -/

/-- Whether the last name of a place is one of a table. -/
def Place.IsTable (place : Place) : Prop :=
  ∃ name, place.getLast? = some name ∧ PartitionStore.IsTableName name

/-- A place whose last name is that of a path which is no table. -/
theorem Place.not_isTable {place : Place} {path : FolderPath}
    (hname : ∀ name, path.getLast? = some name → ¬PartitionStore.IsTableName name)
    (h : ∃ name, place.getLast? = some name ∧ path.getLast? = some name) : ¬place.IsTable := by
  obtain ⟨name, hplace, hpath⟩ := h
  rintro ⟨name', hplace', htable⟩
  obtain rfl : name = name' := Option.some.inj (hplace.symm.trans hplace')
  exact hname name hpath htable

namespace Folder

variable {d d' : Folder} {F G : String → Prop}

/-- **The files with names of tables** are those of some texts. -/
structure Listed (F : String → Prop) (d : Folder) : Prop where
  /-- The tree hangs together. -/
  tree : d.Tree
  /-- Each such file is found under one of the texts. -/
  files : ∀ place node, d.nodes.get? place = some node → node ≠ .directory → place.IsTable →
    ∃ file, F file ∧ d.locate (FolderPath.ofText file) = .ok place

namespace Listed

theorem mono (h : d.Listed F) (hFG : ∀ file, F file → G file) : d.Listed G := by
  refine ⟨h.tree, ?_⟩
  intro place node hget hfile hplace
  obtain ⟨file, hF, hlocate⟩ := h.files place node hget hfile hplace
  exact ⟨file, hFG file hF, hlocate⟩

/-- New files with other names do not matter. -/
theorem adds (h : d.Listed F) (hturns : d.Turns (fun _ => True) d')
    (hadds : d.Adds (fun place => ¬place.IsTable) d') : d'.Listed F := by
  refine ⟨hturns.tree, ?_⟩
  intro place node hget hfile hplace
  have hold := (hadds place node hget hfile).resolve_right fun hnot => hnot hplace
  obtain ⟨file, hF, hlocate⟩ := h.files place node hold hfile hplace
  exact ⟨file, hF, hturns.locate hlocate⟩

theorem makeParents (h : d.Listed F) (path : FolderPath) : (d.makeParents path).2.Listed F :=
  h.adds (turns_makeParents h.tree path) (adds_makeParents d path)

theorem write (h : d.Listed F) {path : FolderPath} {held : FolderNode}
    (hname : ∀ name, path.getLast? = some name → ¬PartitionStore.IsTableName name)
    (hwrite : d.write path held = .ok d') : d'.Listed F :=
  h.adds (turns_write h.tree hwrite fun _ _ => trivial)
    ((h.tree.adds_write_name hwrite).mono fun _ => Place.not_isTable hname)

theorem rename (h : d.Listed F) {source target : FolderPath}
    (hname : ∀ name, target.getLast? = some name → ¬PartitionStore.IsTableName name)
    (hrename : d.rename source target = .ok d') : d'.Listed F :=
  h.adds (turns_rename h.tree hrename (fun _ _ => trivial) fun _ _ => trivial).1
    ((h.tree.adds_rename_name hrename).mono fun _ => Place.not_isTable hname)

/-- A table that is moved is to be listed under its new path. -/
theorem renameTable (h : d.Listed F) {source : FolderPath} {file : String}
    (hrename : d.rename source (FolderPath.ofText file) = .ok d') :
    d'.Listed fun other => F other ∨ other = file := by
  have hturns : d.Turns (fun _ => True) d' :=
    (turns_rename h.tree hrename (fun _ _ => trivial) fun _ _ => trivial).1
  refine ⟨hturns.tree, ?_⟩
  intro place node hget hfile hplace
  -- The file that was moved is the only one at a new place.
  rcases adds_rename hrename place node hget hfile with hold | hnew
  · obtain ⟨other, hF, hlocate⟩ := h.files place node hold hfile hplace
    exact ⟨other, .inl hF, hturns.locate hlocate⟩
  · exact ⟨file, .inr rfl, hturns.locate hnew⟩

/-- A table that is discarded need not be listed any more. -/
theorem discardFile {file : String} (h : d.Listed fun other => F other ∨ other = file) :
    (d.discardFile (FolderPath.ofText file)).Listed F := by
  have hturns : d.Turns (fun _ => True) (d.discardFile (FolderPath.ofText file)) :=
    turns_discardFile h.tree fun _ _ => trivial
  refine ⟨hturns.tree, ?_⟩
  intro place node hget hfile hplace
  have hold : d.nodes.get? place = some node :=
    (adds_discardFile (P := fun _ => False) d _ place node hget hfile).resolve_right id
  obtain ⟨other, hother | rfl, hlocate⟩ := h.files place node hold hfile hplace
  · exact ⟨other, hother, hturns.locate hlocate⟩
  · -- At the place of the discarded file there is nothing any more.
    rw [get?_discardFile hlocate hold hfile] at hget
    cases hget

end Listed

end Folder

namespace PartitionStore

variable {s s' : PartitionStore} {L : List FactRecord → Prop} {d : Folder} {F : String → Prop}
  {id : PartitionId} {e : PartitionEntry} {facts : List FactRecord}

/-- Saving a manifest adds no table. -/
theorem listed_saveManifest (h : d.Listed F) {path : FolderPath}
    (hname : ∀ name, path.getLast? = some name → ¬IsTableName name) (m : Manifest) :
    (saveManifest d path m).2.Listed F := by
  apply saveManifest_keeps (P := fun d => d.Listed F) m
  · exact h.makeParents path
  · intro d₁ d₂ node hlisted hwrite
    exact hlisted.write (fun name hlast => not_isTableName_draft hlast) hwrite
  · intro d₁ d₂ hlisted hrename
    exact hlisted.rename hname hrename

/-- Writing lines to a file adds that file, or nothing if it fails. -/
theorem listed_writeFile (h : d.Listed F) (id : PartitionId) (facts : List FactRecord) :
    match writeFile d (fileName id (contentHash facts)) facts with
    | (.ok _, d') => d'.Listed fun file => F file ∨ file = fileName id (contentHash facts)
    | (.error _, d') => d'.Listed F := by
  have hparents := h.makeParents (FolderPath.ofText (fileName id (contentHash facts)))
  have hcases := writeFile_cases d (fileName id (contentHash facts)) facts
  generalize writeFile d (fileName id (contentHash facts)) facts = outcome at hcases ⊢
  obtain ⟨_, -, rfl⟩ | ⟨_, _, rfl⟩ | ⟨t, d₂, -, hwrite, hplaced⟩ := hcases
  · exact hparents
  · exact hparents
  · have hwritten := hparents.write
      (fun name => not_isTableName_extended (ofText_fileName id facts)) hwrite
    obtain ⟨_, -, rfl⟩ | ⟨d₃, hrename, rfl⟩ := hplaced
    · exact hwritten
    · exact hwritten.renameTable hrename

/-! ### Exact manifests -/

/-- **What an entry says of its lines** is so. -/
structure Describes (plan : Option RebuildPlan) (e : PartitionEntry) (facts : List FactRecord) :
    Prop where
  /-- The hash is theirs. -/
  hash : e.contentHash = contentHash facts
  /-- The number is theirs. -/
  rowCount : e.rowCount = facts.length
  /-- The summary is what the plan makes of them. -/
  summary : e.summary = plan.bind fun p => (p.aggregate facts).toOption

/-- Every entry describes lines that may be stored. -/
def Described (L : List FactRecord → Prop) (plan : Option RebuildPlan) (m : Manifest) : Prop :=
  ∀ id e, m.get? id = some e → ∃ facts, L facts ∧ Describes plan e facts

/-- A file of the manifest. -/
def Named (m : Manifest) (file : String) : Prop := ∃ id e, m.get? id = some e ∧ e.file = file

/-- **The manifest says what there is.** -/
structure Exact (L : List FactRecord → Prop) (plan : Option RebuildPlan) (s : PartitionStore) :
    Prop where
  /-- There are no tables but those of the entries. -/
  listed : s.folder.Listed (Named s.manifest)
  /-- Every entry describes lines that may be stored. -/
  described : Described L plan s.manifest
  /-- The manifest has another name than tables. -/
  manifestName : ∀ name, s.manifestPath.getLast? = some name → ¬IsTableName name
  /-- The plan of the summaries. -/
  plan_eq : s.summaryPlan = plan

variable {plan : Option RebuildPlan}

theorem Exact.mono {L' : List FactRecord → Prop} (h : s.Exact L plan)
    (hsub : ∀ l, L l → L' l) : s.Exact L' plan :=
  { h with described := fun id e hget =>
      (h.described id e hget).imp fun _ hl => ⟨hsub _ hl.1, hl.2⟩ }

theorem Exact.folder (h : s.Exact L plan) (hd : d.Listed (Named s.manifest)) :
    Exact L plan { s with folder := d } :=
  { h with listed := hd }

/-- Counting changes nothing. -/
theorem Exact.counted (h : s.Exact L plan) (writtenCount unchangedCount : Nat) :
    Exact L plan { s with writtenCount, unchangedCount } := ⟨h.1, h.2, h.3, h.4⟩

theorem Described.insert {m : Manifest} (h : Described L plan m) (hfacts : L facts)
    (he : Describes plan e facts) : Described L plan (m.insert id e) := by
  intro id' e' hget
  rw [SortedMap.get?_insert] at hget
  split at hget
  · cases hget
    exact ⟨facts, hfacts, he⟩
  · exact h id' e' hget

theorem Described.erase {m : Manifest} (h : Described L plan m) (id : PartitionId) :
    Described L plan (m.erase id) := by
  intro id' e' hget
  rw [SortedMap.get?_erase] at hget
  split at hget
  · cases hget
  · exact h id' e' hget

theorem named_erase {m : Manifest} {file : String} (h : Named m file)
    (hget : m.get? id = some e) : Named (m.erase id) file ∨ file = e.file := by
  obtain ⟨id', e', hget', rfl⟩ := h
  by_cases hid : id' = id
  · subst hid
    exact .inr (congrArg PartitionEntry.file (Option.some.inj (hget'.symm.trans hget)))
  · refine .inl ⟨id', e', ?_, rfl⟩
    rw [SortedMap.get?_erase, if_neg hid]
    exact hget'

theorem named_insert {m : Manifest} {file : String} (h : Named m file) :
    Named (m.insert id e) file ∨ (m.get? id).map (·.file) = some file := by
  obtain ⟨id', e', hget', rfl⟩ := h
  by_cases hid : id' = id
  · subst hid
    exact .inr (by rw [hget']; rfl)
  · refine .inl ⟨id', e', ?_, rfl⟩
    rw [SortedMap.get?_insert, if_neg hid]
    exact hget'

theorem named_insert_self (m : Manifest) : Named (m.insert id e) e.file :=
  ⟨id, e, SortedMap.get?_insert_self .., rfl⟩

/-- Either the manifest is exchanged, or nothing but the folder changes; no table is added. -/
theorem listed_exchangeManifest (h : s.folder.Listed F)
    (hname : ∀ name, s.manifestPath.getLast? = some name → ¬IsTableName name) (m : Manifest) :
    ∃ d, d.Listed F ∧
      (s.exchangeManifest m = (.ok (), { s with folder := d, manifest := m }) ∨
        ∃ cause, s.exchangeManifest m = (.error (.io cause), { s with folder := d })) :=
  ⟨_, listed_saveManifest h hname m,
    (exchangeManifest_eq s m).imp_right fun ⟨cause, _, heq⟩ => ⟨cause, heq⟩⟩

theorem exact_drop (h : s.Exact L plan) (id : PartitionId) (hash : String) :
    (s.drop id hash).2.Exact L plan := by
  unfold drop
  split
  · exact h
  · next e hget =>
    obtain ⟨d, hd, heq | ⟨_, heq⟩⟩ :=
      listed_exchangeManifest h.listed h.manifestName (s.manifest.erase id)
    · rw [heq]
      -- The file of the entry is not named any more, and it is gone.
      exact ⟨(hd.mono fun _ hnamed => named_erase hnamed hget).discardFile, h.described.erase id,
        h.manifestName, h.plan_eq⟩
    · rw [heq]
      exact h.folder hd

/-- **Entering a table** lists it, and takes the one that it replaces away. -/
theorem exact_enter (hd : s.folder.Listed fun file => Named s.manifest file ∨ file = e.file)
    (hname : ∀ name, s.manifestPath.getLast? = some name → ¬IsTableName name)
    (hdescribed : Described L plan s.manifest)
    (hplan : s.summaryPlan = plan) (hfacts : L facts) (he : Describes plan e facts) :
    (s.enter e).2.Exact L plan := by
  unfold enter
  simp only
  obtain ⟨d, hd, heq | ⟨_, heq⟩⟩ :=
    listed_exchangeManifest hd hname (s.manifest.insert e.id e)
  · have hdescribed' : Described L plan (s.manifest.insert e.id e) := hdescribed.insert hfacts he
    -- The file of the former entry is the only one that is listed no more.
    have hlisted : d.Listed fun file => Named (s.manifest.insert e.id e) file ∨
        (s.manifest.get? e.id).map (·.file) = some file := by
      refine hd.mono fun file hfile => ?_
      rcases hfile with hnamed | rfl
      · exact named_insert hnamed
      · exact .inl (named_insert_self s.manifest)
    rw [heq]
    simp only
    cases hprevious : (s.manifest.get? e.id).map (·.file) with
    | none =>
      rw [hprevious] at hlisted
      exact ⟨hlisted.mono fun _ hfile => hfile.resolve_right nofun, hdescribed', hname, hplan⟩
    | some former =>
      rw [hprevious] at hlisted
      simp only
      split
      · next hsame =>
        refine ⟨hlisted.mono fun file hfile => ?_, hdescribed', hname, hplan⟩
        rcases hfile with hnamed | hformer
        · exact hnamed
        · rw [← Option.some.inj hformer, hsame]
          exact named_insert_self s.manifest
      · refine ⟨Folder.Listed.discardFile (hlisted.mono fun file hfile => ?_), hdescribed', hname,
          hplan⟩
        exact hfile.imp_right fun hformer => (Option.some.inj hformer).symm
  · -- The manifest is the old one: the new file goes, unless it is that of the old entry.
    rw [heq]
    simp only
    split
    · next hsame =>
      refine ⟨hd.mono fun file hfile => ?_, hdescribed, hname, hplan⟩
      rcases hfile with hnamed | rfl
      · exact hnamed
      · obtain ⟨former, hget, hformer⟩ := Option.map_eq_some_iff.1 hsame
        exact ⟨e.id, former, hget, hformer⟩
    · exact ⟨hd.discardFile, hdescribed, hname, hplan⟩

theorem exact_install (h : s.Exact L plan) (hfacts : L facts) :
    (s.install id facts (contentHash facts)).2.Exact L plan := by
  have hwritten := listed_writeFile h.listed id facts
  unfold install
  simp only
  split
  · next heq =>
    rw [heq] at hwritten
    exact h.folder hwritten
  · next size d heq =>
    rw [heq] at hwritten
    have hentered := exact_enter (s := { s with folder := d })
      (e := { id, file := fileName id (contentHash facts), contentHash := contentHash facts
              rowCount := facts.length, fileSize := size, writtenAt := s.today.dayNumber * 86400
              summary := s.summaryOf facts })
      hwritten h.manifestName h.described h.plan_eq hfacts
      ⟨rfl, rfl, by rw [← h.plan_eq]; rfl⟩
    split
    · next heq' =>
      rw [heq'] at hentered
      exact hentered
    · next heq' =>
      rw [heq'] at hentered
      exact hentered.counted _ _

/-- **Replacing a partition** keeps the manifest exact, whatever comes of it. -/
theorem exact_replace (h : s.Exact L plan) {lines : List FactRecord}
    (hallowed : lines ≠ [] → L (canonicalSort lines)) : (s.replace id lines).2.Exact L plan := by
  obtain ⟨-, heq⟩ | ⟨hsome, ⟨_, _, -, -, heq⟩ | ⟨-, heq⟩⟩ := s.replace_cases id lines
  · rw [heq]
    exact exact_drop h id _
  · rw [heq]
    exact h.counted _ _
  · rw [heq]
    exact exact_install h (hallowed hsome)

theorem exact_writePartition (h : s.Exact L plan) {lines : List FactRecord}
    (hallowed : lines ≠ [] → L (canonicalSort lines)) :
    (s.writePartition id lines).2.Exact L plan := by
  obtain ⟨_, -, heq⟩ | ⟨-, heq⟩ := s.writePartition_cases id lines
  · rw [heq]
    exact h
  · rw [heq]
    exact exact_replace h hallowed

theorem exact_appendOpen (h : s.Exact L plan) {lines : List FactRecord}
    (hallowed : s.appended id lines ≠ [] → L (canonicalSort (s.appended id lines))) :
    (s.appendOpen id lines).2.Exact L plan := by
  obtain ⟨_, -, heq⟩ | ⟨-, -, -, heq⟩ := s.appendOpen_cases id lines
  · rw [heq]
    exact h
  · rw [heq]
    exact exact_replace h hallowed

theorem exact_removePartition (h : s.Exact L plan) (id : PartitionId) :
    (s.removePartition id).2.Exact L plan := by
  rw [removePartition_eq]
  exact exact_replace h fun hnil => absurd rfl hnil

/-! ### Refusals -/

/-- **Nothing has changed** but for new directories. -/
structure Spared (s s' : PartitionStore) : Prop where
  /-- Nothing but the folder has changed. -/
  eq_folder : s' = { s with folder := s'.folder }
  /-- All files are left. -/
  turns : s.folder.Turns (fun _ => False) s'.folder
  /-- There are no new ones. -/
  adds : s.folder.Adds (fun _ => False) s'.folder

theorem spared_self (ht : s.folder.Tree) : Spared s s := ⟨rfl, .refl ht, .refl _⟩

theorem Spared.manifest (h : Spared s s') : s'.manifest = s.manifest := by rw [h.eq_folder]

/-- Every file is where it was, with what it held. -/
theorem Spared.get?_iff (h : Spared s s') {place : Place} {node : FolderNode}
    (hfile : node ≠ .directory) :
    s'.folder.nodes.get? place = some node ↔ s.folder.nodes.get? place = some node :=
  ⟨fun hget => (h.adds place node hget hfile).resolve_right id,
    fun hget => h.turns.keeps place node hget (.inr fun _ _ => id)⟩

/-- Every partition is read as before. -/
theorem Spared.readPartition (h : Spared s s') (hs : s.Sound L) (id : PartitionId) :
    s'.readPartition id = s.readPartition id := by
  rw [h.eq_folder]
  exact (hs.becomes_folder h.turns fun _ _ _ _ _ => False.elim).reads id

/-- **Why the files fail** when a partition is to hold some lines: these cannot be written to their
file, or the manifest cannot be saved, be it without the partition if there are no lines, or with an
entry for the file that was written. -/
inductive FileFault (d : Folder) (path : FolderPath) (m : Manifest) (id : PartitionId)
    (facts : List FactRecord) (cause : FolderError) : Prop
  /-- The file of the lines. -/
  | table : TableFault d (fileName id (contentHash facts)) facts cause →
      FileFault d path m id facts cause
  /-- The manifest without the partition. -/
  | drop : facts = [] → ManifestFault d path (m.erase id) cause → FileFault d path m id facts cause
  /-- The manifest with the entry. -/
  | enter {size : Nat} {d' : Folder} {e : PartitionEntry} :
      writeFile d (fileName id (contentHash facts)) facts = (.ok size, d') →
      ManifestFault d' path (m.insert id e) cause → FileFault d path m id facts cause

theorem exchangeManifest_eq_error {m : Manifest} {error : PartitionError}
    (h : (s.exchangeManifest m).1 = .error error) :
    ∃ cause, error = .io cause ∧ ManifestFault s.folder s.manifestPath m cause := by
  obtain heq | ⟨cause, hfault, heq⟩ := exchangeManifest_eq s m
  · rw [heq] at h
    cases h
  · rw [heq] at h
    exact ⟨cause, (Except.error.inj h).symm, hfault⟩

theorem drop_eq_error {hash : String} {error : PartitionError}
    (h : (s.drop id hash).1 = .error error) :
    ∃ cause, error = .io cause ∧
      ManifestFault s.folder s.manifestPath (s.manifest.erase id) cause := by
  unfold drop at h
  split at h
  · cases h
  · split at h
    · next heq =>
      rw [Except.error.inj h] at heq
      exact exchangeManifest_eq_error (congrArg Prod.fst heq)
    · cases h

theorem enter_eq_error {error : PartitionError} (h : (s.enter e).1 = .error error) :
    ∃ cause, error = .io cause ∧
      ManifestFault s.folder s.manifestPath (s.manifest.insert e.id e) cause := by
  unfold enter at h
  simp only at h
  split at h
  · cases h
  · next heq => exact exchangeManifest_eq_error (by rw [heq]; exact h)

/-- **Lines that cannot be written** are refused before there is a file. -/
theorem writeFile_eq_error {file : String} {error : PartitionError}
    (h : (writeFile d file facts).1 = .error error) :
    (∃ cause, error = .io cause ∧ TableFault d file facts cause) ∨
      (writeFile d file facts).2 = (d.makeParents (FolderPath.ofText file)).2 ∧
        ∃ cause, error = .table cause ∧ FactTable.ofLines facts = .error cause := by
  obtain ⟨cause, hfault, heq⟩ | ⟨cause, htable, heq⟩ |
      ⟨t, d₂, -, -, ⟨cause, hfault, heq⟩ | ⟨d₃, -, heq⟩⟩ := writeFile_cases d file facts
  · rw [heq] at h
    exact .inl ⟨cause, (Except.error.inj h).symm, hfault⟩
  · rw [heq] at h ⊢
    exact .inr ⟨rfl, cause, (Except.error.inj h).symm, htable⟩
  · rw [heq] at h
    exact .inl ⟨cause, (Except.error.inj h).symm, hfault⟩
  · rw [heq] at h
    cases h

theorem spared_of_install (ht : s.folder.Tree) {error : PartitionError}
    (h : (s.install id facts (contentHash facts)).1 = .error error) :
    (∃ cause, error = .io cause ∧
        FileFault s.folder s.manifestPath s.manifest id facts cause) ∨
      Spared s (s.install id facts (contentHash facts)).2 ∧
        ∃ f ∈ facts, FactTable.fitsWord f.timestamp.nanos = false ∧
          error = .table (.momentOutOfRange f.timestamp f.recordId) := by
  unfold install at h ⊢
  simp only at h ⊢
  split at h
  · next d hwrite =>
    obtain rfl := Except.error.inj h
    obtain ⟨cause, hio, hfault⟩ | ⟨hfolder, cause, rfl, htable⟩ :=
      writeFile_eq_error (congrArg Prod.fst hwrite)
    · exact .inl ⟨cause, hio, .table hfault⟩
    · obtain ⟨f, hf, hfits, rfl⟩ := FactTable.exists_of_ofLines_eq_error htable
      rw [hwrite] at hfolder
      obtain rfl : d = _ := hfolder
      refine .inr ⟨?_, f, hf, hfits, rfl⟩
      exact ⟨rfl, Folder.turns_makeParents ht _, Folder.adds_makeParents _ _⟩
  · next hwrite =>
    split at h
    · next hentered =>
      obtain rfl := Except.error.inj h
      obtain ⟨cause, hio, hfault⟩ := enter_eq_error (congrArg Prod.fst hentered)
      exact .inl ⟨cause, hio, .enter hwrite hfault⟩
    · cases h

/-- **A replacement that fails** for any other reason than its files leaves everything as it was; a
moment does not fit a word. -/
theorem spared_of_replace (ht : s.folder.Tree) {lines : List FactRecord}
    {error : PartitionError} (h : (s.replace id lines).1 = .error error) :
    (∃ cause, error = .io cause ∧
        FileFault s.folder s.manifestPath s.manifest id (canonicalSort lines) cause) ∨
      (∃ f ∈ lines, FactTable.fitsWord f.timestamp.nanos = false ∧
          error = .table (.momentOutOfRange f.timestamp f.recordId)) ∧
        Spared s (s.replace id lines).2 := by
  obtain ⟨hnil, heq⟩ | ⟨-, ⟨_, _, -, -, heq⟩ | ⟨-, heq⟩⟩ := s.replace_cases id lines
  · rw [heq] at h
    obtain ⟨cause, hio, hfault⟩ := drop_eq_error h
    exact .inl ⟨cause, hio, .drop (by rw [hnil, canonicalSort, List.mergeSort_nil]) hfault⟩
  · -- What is found unchanged does not fail.
    rw [heq] at h
    cases h
  · rw [heq] at h ⊢
    refine (spared_of_install ht h).imp_right ?_
    rintro ⟨hspared, f, hf, hfits, rfl⟩
    exact ⟨⟨f, List.mem_mergeSort.1 hf, hfits, rfl⟩, hspared⟩

/-- What lines a store may refuse, other than for its files. -/
inductive RefusesLines (id : PartitionId) (given wanted : List FactRecord) : PartitionError → Prop
  /-- A line that is given belongs to another partition. -/
  | foreign {f : FactRecord} : f ∈ given → id.holds f = false →
      RefusesLines id given wanted (.invalidFacts id f.recordId)
  /-- A moment of a line that is wanted does not fit a word. -/
  | outOfRange {f : FactRecord} : f ∈ wanted → FactTable.fitsWord f.timestamp.nanos = false →
      RefusesLines id given wanted (.table (.momentOutOfRange f.timestamp f.recordId))

/-- Lines that belong to another partition are refused. -/
theorem RefusesLines.of_checkFacts {given wanted : List FactRecord} {error : PartitionError}
    (h : checkFacts id given = .error error) : RefusesLines id given wanted error := by
  obtain ⟨f, hf, hother, rfl⟩ := checkFacts_eq_error h
  exact .foreign hf hother

theorem spared_of_writePartition (ht : s.folder.Tree) {lines : List FactRecord}
    {error : PartitionError} (h : (s.writePartition id lines).1 = .error error) :
    (∃ cause, error = .io cause ∧
        FileFault s.folder s.manifestPath s.manifest id (canonicalSort lines) cause) ∨
      RefusesLines id lines lines error ∧ Spared s (s.writePartition id lines).2 := by
  obtain ⟨_, hcheck, heq⟩ | ⟨-, heq⟩ := s.writePartition_cases id lines
  · rw [heq] at h ⊢
    exact .inr ⟨.of_checkFacts (Except.error.inj h ▸ hcheck), spared_self ht⟩
  · rw [heq] at h ⊢
    refine (spared_of_replace ht h).imp_right ?_
    rintro ⟨⟨f, hf, hfits, rfl⟩, hspared⟩
    exact ⟨.outOfRange hf hfits, hspared⟩

theorem spared_of_appendOpen (ht : s.folder.Tree) {lines stored : List FactRecord}
    (hstored : s.storedFacts id = .ok stored) {error : PartitionError}
    (h : (s.appendOpen id lines).1 = .error error) :
    (∃ cause, error = .io cause ∧ FileFault s.folder s.manifestPath s.manifest id
        (canonicalSort (s.appended id lines)) cause) ∨
      (s.isClosed id.date = true ∧ error = .closedPartition id ∨
        RefusesLines id lines (s.appended id lines) error) ∧ Spared s (s.appendOpen id lines).2 := by
  obtain ⟨_, hwhy, heq⟩ | ⟨-, -, -, heq⟩ := s.appendOpen_cases id lines
  · rw [heq] at h ⊢
    obtain rfl := Except.error.inj h
    refine .inr ⟨?_, spared_self ht⟩
    obtain hclosed | hcheck | hunread := hwhy
    · exact .inl hclosed
    · exact .inr (.of_checkFacts hcheck)
    · rw [hstored] at hunread
      cases hunread
  · rw [heq] at h ⊢
    refine (spared_of_replace ht h).imp_right ?_
    rintro ⟨⟨f, hf, hfits, rfl⟩, hspared⟩
    exact ⟨.inr (.outOfRange hf hfits), hspared⟩

/-- A removal fails for nothing but its files. -/
theorem removePartition_eq_error (ht : s.folder.Tree) {error : PartitionError}
    (h : (s.removePartition id).1 = .error error) :
    ∃ cause, error = .io cause ∧
      FileFault s.folder s.manifestPath s.manifest id (canonicalSort []) cause := by
  rw [removePartition_eq] at h
  -- There are no lines that could be refused.
  refine (spared_of_replace ht (Except.map_eq_error.1 h)).resolve_right ?_
  rintro ⟨⟨_, hf, -⟩, -⟩
  cases hf

end PartitionStore

end RetailReport
