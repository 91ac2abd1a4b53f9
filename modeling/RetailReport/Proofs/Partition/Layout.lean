import RetailReport.Proofs.Partition.Inventory
import RetailReport.Proofs.Partition.PlainPath

/-!
# Where things stand in the folder of the partitions

A manifest that is kept apart from the partitions never stands in their way: directories and files
have places of their own, and nothing ever stands at a place of the other kind.  So the manifest can
always be saved, and the only lines that cannot be written are those whose file has too long a name
or which a table cannot hold.  These are refused again and again, and after the first time, which may
create the directory of their store, without any trace.

## Main definitions

* `PartitionStore.KeptApart`: the manifest is kept apart from the partitions.
* `PartitionStore.IsDirectoryPlace`, `PartitionStore.IsFilePlace`: the places of both kinds.
* `PartitionStore.Laid`, `PartitionStore.LaidOut`: everything stands where it is meant to.
* `PartitionStore.Writable`: lines can be written.

## Main results

* `PartitionStore.KeptApart.not_isFilePlace`: no directory has the place of a file.
* `PartitionStore.Laid.saveManifest`: **the manifest can be saved**.
* `PartitionStore.LaidOut.replace`, `PartitionStore.LaidOut.replace_again`: what is refused, and what
  becomes of it the next time.
-/

namespace RetailReport

namespace PartitionStore

open Folder (IsPlainName Fits)

variable {d d' : Folder} {path around : FolderPath} {place : Place} {name : String}
  {id : PartitionId} {facts : List FactRecord}

/-! ### Where things stand -/

/-- Whether a name ends as the names of drafts of partition files do. -/
def IsDraftName (name : String) : Prop := ".parquet.tmp".toList <:+ name.toList

/-- The place of the directory of a store; the files of a store without a name lie in the root. -/
def storePlace (storeId : String) : Place :=
  if storeId = "" then [] else FolderPath.home ++ [directoryName storeId]

/-- The place of the file of some lines of a partition. -/
def tablePlace (id : PartitionId) (facts : List FactRecord) : Place :=
  storePlace id.storeId ++ [baseName id (contentHash facts)]

/-- The place of its draft. -/
def draftPlace (id : PartitionId) (facts : List FactRecord) : Place :=
  storePlace id.storeId ++ [baseName id (contentHash facts) ++ ".tmp"]

/-- **A manifest is kept apart from the partitions**: its path leads straight to a file in a
directory, and so does that of its draft; what it leads through has not the name of a table, nor of
the draft of one, and it does not lead to the directory of a store. -/
structure KeptApart (path : FolderPath) : Prop where
  /-- Its path leads straight on. -/
  plain : ∀ name ∈ path, IsPlainName name
  /-- Its path fits. -/
  fits : Fits path
  /-- The path of its draft leads straight on. -/
  draftPlain : ∀ name ∈ FolderPath.withExtension path "tmp", IsPlainName name
  /-- The path of its draft fits. -/
  draftFits : Fits (FolderPath.withExtension path "tmp")
  /-- No table stands in its way, nor a draft of one. -/
  way : ∀ name ∈ path.dropLast, ¬IsTableName name ∧ ¬IsDraftName name
  /-- It is no table. -/
  file : ∀ name, path.getLast? = some name → ¬IsTableName name
  /-- It is not the directory of a store. -/
  store : ∀ storeId, path ≠ storePlace storeId
  /-- It is not the home, and the home does not lie in it. -/
  home : ¬path <+: FolderPath.home

/-- The places of directories. -/
inductive IsDirectoryPlace (path : FolderPath) (place : Place) : Prop
  /-- The home, and what it lies in. -/
  | home : place <+: FolderPath.home → IsDirectoryPlace path place
  /-- What the manifest lies in. -/
  | way : place <+: path.dropLast → IsDirectoryPlace path place
  /-- The directory of a store. -/
  | store (storeId : String) : place = storePlace storeId → IsDirectoryPlace path place

/-- The places of files. -/
inductive IsFilePlace (path : FolderPath) (place : Place) : Prop
  /-- The manifest. -/
  | manifest : place = path → IsFilePlace path place
  /-- Its draft. -/
  | manifestDraft : place = FolderPath.withExtension path "tmp" → IsFilePlace path place
  /-- A table. -/
  | table (id : PartitionId) (facts : List FactRecord) : place = tablePlace id facts →
      IsFilePlace path place
  /-- The draft of a table. -/
  | draft (id : PartitionId) (facts : List FactRecord) : place = draftPlace id facts →
      IsFilePlace path place

theorem ofText_fileName_eq_tablePlace (id : PartitionId) (facts : List FactRecord) :
    FolderPath.ofText (fileName id (contentHash facts)) = tablePlace id facts := by
  by_cases hempty : id.storeId = ""
  · have hname : fileName id (contentHash facts) = "" ++ "/" ++ baseName id (contentHash facts) := by
      have hnone : directoryName "" = "" := by
        rw [← String.toList_inj, directoryName, String.toList_map]
        rfl
      simp only [fileName, baseName, hempty, hnone, String.append_assoc]
    have habsolute : FolderPath.isAbsolute (fileName id (contentHash facts)) = true := by
      rw [hname, FolderPath.isAbsolute, String.toList_append, String.toList_append]
      exact decide_eq_true rfl
    rw [FolderPath.ofText, habsolute, if_pos rfl, hname,
      FolderPath.names_append (by decide) (notMem_baseName id facts), tablePlace, storePlace,
      if_pos hempty]
    rfl
  · rw [ofText_fileName_eq hempty, tablePlace, storePlace, if_neg hempty, List.append_assoc]
    rfl

theorem extended_tablePlace (id : PartitionId) (facts : List FactRecord) :
    FolderPath.extended (tablePlace id facts) ".tmp" = draftPlace id facts := by
  rw [FolderPath.extended, tablePlace, List.getLast?_concat, draftPlace]
  simp only [List.dropLast_concat]

/-! ### Directories and files have places of their own -/

theorem IsTableName.mem_point (h : IsTableName name) : '.' ∈ name.toList :=
  h.subset (by decide)

theorem isDraftName_tmp (h : IsTableName name) : IsDraftName (name ++ ".tmp") := by
  obtain ⟨before, h⟩ := h
  refine ⟨before, ?_⟩
  rw [String.toList_append, ← h, List.append_assoc]
  rfl

/-- Names of drafts lead on. -/
theorem isPlainName_of_isDraftName (h : IsDraftName name) : IsPlainName name :=
  isPlainName_of_suffix (by decide) h

theorem IsDraftName.mem_point (h : IsDraftName name) : '.' ∈ name.toList :=
  h.subset (by decide)

/-- The home and the directories of stores have no point in their names. -/
theorem notMem_point_of_getLast? (h : place <+: FolderPath.home ∨ ∃ storeId, place = storePlace storeId)
    (hlast : place.getLast? = some name) : '.' ∉ name.toList := by
  have hhome : ∀ place : Place, place <+: FolderPath.home → place.getLast? = some name →
      '.' ∉ name.toList := by
    intro place hplace hlast
    have hmem : name ∈ FolderPath.home := hplace.subset (List.mem_of_getLast? hlast)
    revert hmem
    simp only [FolderPath.home, List.mem_cons, List.not_mem_nil, or_false]
    rintro (rfl | rfl) <;> decide
  rcases h with hplace | ⟨storeId, rfl⟩
  · exact hhome place hplace hlast
  · unfold storePlace at hlast
    split at hlast
    · cases hlast
    · rw [List.getLast?_concat] at hlast
      rw [← Option.some.inj hlast]
      exact notMem_point_directoryName storeId

namespace KeptApart

theorem exists_eq_concat (h : KeptApart path) : ∃ around name, path = around ++ [name] := by
  rcases List.eq_nil_or_concat path with rfl | ⟨around, name, rfl⟩
  · exact absurd List.nil_prefix h.home
  · exact ⟨around, name, List.concat_eq_append⟩

theorem exists_draft_eq (h : KeptApart path) :
    ∃ stem, FolderPath.withExtension path "tmp" = path.dropLast ++ [stem ++ ".tmp"] := by
  obtain ⟨around, name, rfl⟩ := h.exists_eq_concat
  rw [List.dropLast_concat]
  exact FolderPath.exists_withExtension_eq (h.plain name (by simp)) h.draftPlain

/-- **No directory has the place of a file.** -/
theorem not_isFilePlace (h : KeptApart path) (hplace : IsDirectoryPlace path place) :
    ¬IsFilePlace path place := by
  obtain ⟨stem, hdraft⟩ := h.exists_draft_eq
  have htmp : '.' ∈ (stem ++ ".tmp").toList := by
    rw [String.toList_append]
    exact List.mem_append_right _ (by decide)
  have htable : ∀ id facts, '.' ∈ (baseName id (contentHash facts)).toList :=
    fun id facts => (isTableName_baseName _ _).mem_point
  have hdraftName : ∀ id facts, IsDraftName (baseName id (contentHash facts) ++ ".tmp") :=
    fun id facts => isDraftName_tmp (isTableName_baseName _ _)
  intro hfile
  by_cases hway : place <+: path.dropLast
  · -- What the manifest lies in is told from it by the length, and from tables by the names.
    have hlast : ∀ name, place.getLast? = some name → ¬IsTableName name ∧ ¬IsDraftName name :=
      fun name hname => h.way name (hway.subset (List.mem_of_getLast? hname))
    have hlength := hway.length_le
    cases hfile with
    | manifest heq =>
      have hpos : path ≠ [] := fun hnil => h.home (hnil ▸ List.nil_prefix)
      rw [heq, List.length_dropLast] at hlength
      have := List.length_pos_iff.2 hpos
      omega
    | manifestDraft heq =>
      rw [heq, hdraft, List.length_append, List.length_singleton] at hlength
      omega
    | table id facts heq =>
      exact (hlast _ (by rw [heq, tablePlace, List.getLast?_concat])).1 (isTableName_baseName _ _)
    | draft id facts heq =>
      exact (hlast _ (by rw [heq, draftPlace, List.getLast?_concat])).2 (hdraftName id facts)
  · have hown : place <+: FolderPath.home ∨ ∃ storeId, place = storePlace storeId := by
      cases hplace with
      | home hhome => exact .inl hhome
      | way hway' => exact absurd hway' hway
      | store storeId heq => exact .inr ⟨storeId, heq⟩
    have hpoint {name : String} (hlast : place.getLast? = some name) : '.' ∉ name.toList :=
      notMem_point_of_getLast? hown hlast
    cases hfile with
    | manifest heq =>
      rcases hown with hhome | ⟨storeId, hstore⟩
      · exact h.home (heq ▸ hhome)
      · exact h.store storeId (heq ▸ hstore)
    | manifestDraft heq => exact hpoint (by rw [heq, hdraft, List.getLast?_concat]) htmp
    | table id facts heq =>
      exact hpoint (by rw [heq, tablePlace, List.getLast?_concat]) (htable id facts)
    | draft id facts heq =>
      exact hpoint (by rw [heq, draftPlace, List.getLast?_concat]) (hdraftName id facts).mem_point

end KeptApart

/-! ### Laid out folders -/

/-- **Everything stands where it is meant to**: directories and files have their own places. -/
structure Laid (path : FolderPath) (d : Folder) : Prop where
  /-- The tree hangs together. -/
  tree : d.Tree
  /-- The home is there. -/
  home : d.nodes.get? FolderPath.home = some .directory
  /-- The directories. -/
  directories : ∀ place, d.nodes.get? place = some .directory → IsDirectoryPlace path place
  /-- The files. -/
  files : ∀ place node, d.nodes.get? place = some node → node ≠ .directory → IsFilePlace path place

/-- **A folder has become another one** that is laid out, too, and has all of its directories. -/
structure Grows (path : FolderPath) (d d' : Folder) : Prop where
  /-- It is laid out. -/
  laid : Laid path d'
  /-- The directories are left. -/
  turns : d.Turns (fun _ => True) d'

theorem Grows.trans {d'' : Folder} (h : Grows path d d') (h' : Grows path d' d'') :
    Grows path d d'' := ⟨h'.laid, h.turns.trans h'.turns⟩

theorem Grows.get? (h : Grows path d d') (hdir : d.nodes.get? place = some .directory) :
    d'.nodes.get? place = some .directory := h.turns.keeps _ _ hdir (.inl rfl)

namespace Laid

theorem grows_self (h : Laid path d) : Grows path d d := ⟨h, .refl h.tree⟩

/-- Directories find their places free. -/
theorem clear (h : Laid path d) (hpath : KeptApart path)
    (hdirs : ∀ place, place <+: around → IsDirectoryPlace path place) : d.Clear around := by
  intro place hplace node hget
  by_contra hnode
  exact hpath.not_isFilePlace (hdirs place hplace) (h.files place node hget hnode)

/-- Files find their places free of directories. -/
theorem not_directory (h : Laid path d) (hpath : KeptApart path) (hfile : IsFilePlace path place) :
    d.nodes.get? place ≠ some .directory :=
  fun hget => hpath.not_isFilePlace (h.directories place hget) hfile

/-- **Directories are created** in their places. -/
theorem makeDirs (h : Laid path d) (hpath : KeptApart path)
    (hdirs : ∀ place, place <+: around → IsDirectoryPlace path place)
    (hplain : ∀ name ∈ around, IsPlainName name) (hfits : Fits around) :
    ∃ d', d.makeDirs around = (.ok (), d') ∧ Grows path d d' ∧
      d'.nodes.get? around = some .directory := by
  obtain ⟨d', hmade, hget⟩ := Folder.makeDirs_of_clear h.tree hplain hfits (h.clear hpath hdirs)
  have hturns := Folder.turns_makeDirs (S := fun _ => True) h.tree around
  rw [hmade] at hturns
  refine ⟨d', hmade, ⟨⟨hturns.tree, hturns.keeps _ _ h.home (.inl rfl), ?_, ?_⟩, hturns⟩, ?_⟩
  · intro place hplace
    rw [hget] at hplace
    split at hplace
    · next hprefix => exact hdirs place hprefix
    · exact h.directories place hplace
  · intro place node hplace hnode
    rw [hget] at hplace
    split at hplace
    · exact absurd (Option.some.inj hplace).symm hnode
    · exact h.files place node hplace hnode
  · rw [hget, if_pos (List.prefix_refl _)]

/-- **A file is placed** by way of its draft. -/
theorem placed (h : Laid path d) (hpath : KeptApart path) {draft : String} (node : FolderNode)
    (hnode : node ≠ .directory) (hdir : d.nodes.get? around = some .directory)
    (hplain : ∀ other ∈ around ++ [name], IsPlainName other) (hfits : Fits (around ++ [name]))
    (hdraft : ∀ other ∈ around ++ [draft], IsPlainName other) (hfits' : Fits (around ++ [draft]))
    (hfile : IsFilePlace path (around ++ [name])) (hfile' : IsFilePlace path (around ++ [draft])) :
    ∃ d₁ d₂, d.write (around ++ [draft]) node = .ok d₁ ∧
      d₁.rename (around ++ [draft]) (around ++ [name]) = .ok d₂ ∧ Grows path d d₂ := by
  obtain ⟨d₁, d₂, hwrite, hrename, hget⟩ := Folder.exists_placed h.tree hnode hdir hplain hfits
    hdraft hfits' (h.not_directory hpath hfile) (h.not_directory hpath hfile')
  have hwritten := Folder.turns_write (S := fun _ => True) h.tree hwrite fun _ _ => trivial
  have hturns := hwritten.trans (Folder.turns_rename (S := fun _ => True) hwritten.tree hrename
    (fun _ _ => trivial) fun _ _ => trivial).1
  refine ⟨d₁, d₂, hwrite, hrename, ⟨hturns.tree, hturns.keeps _ _ h.home (.inl rfl), ?_, ?_⟩, hturns⟩
  · intro place hplace
    rw [hget] at hplace
    split at hplace
    · exact absurd (Option.some.inj hplace) hnode
    · split at hplace
      · cases hplace
      · exact h.directories place hplace
  · intro place other hplace hother
    rw [hget] at hplace
    split at hplace
    · next heq => exact heq ▸ hfile
    · split at hplace
      · cases hplace
      · exact h.files place other hplace hother

/-- Discarding a file leaves the others where they are. -/
theorem discardFile (h : Laid path d) (file : FolderPath) : Grows path d (d.discardFile file) := by
  have hturns : d.Turns (fun _ => True) (d.discardFile file) :=
    Folder.turns_discardFile h.tree fun _ _ => trivial
  have hold : ∀ place node, (d.discardFile file).nodes.get? place = some node →
      d.nodes.get? place = some node := by
    intro place node hget
    unfold Folder.discardFile at hget
    split at hget
    · next hremove =>
      obtain ⟨held, -, hremove⟩ := Except.bind_eq_ok.1 hremove
      obtain ⟨former, -, hremove⟩ := Except.bind_eq_ok.1 hremove
      cases hremove
      change (d.nodes.erase former).get? place = some node at hget
      rw [SortedMap.get?_erase] at hget
      split at hget
      · cases hget
      · exact hget
    · exact hget
  exact ⟨⟨hturns.tree, hturns.keeps _ _ h.home (.inl rfl),
    fun place hget => h.directories place (hold place _ hget),
    fun place node hget => h.files place node (hold place node hget)⟩, hturns⟩

/-- **The manifest can be saved.** -/
theorem saveManifest (h : Laid path d) (hpath : KeptApart path) (m : Manifest) :
    ∃ d', saveManifest d path m = (.ok (), d') ∧ Grows path d d' := by
  obtain ⟨stem, hdraft⟩ := hpath.exists_draft_eq
  obtain ⟨around, name, heq⟩ := hpath.exists_eq_concat
  have hplain := hpath.plain
  have hfits := hpath.fits
  have hdraftPlain := hpath.draftPlain
  have hdraftFits := hpath.draftFits
  have hfile : IsFilePlace path path := .manifest rfl
  have hfile' : IsFilePlace path (FolderPath.withExtension path "tmp") := .manifestDraft rfl
  have hdirs : ∀ place, place <+: path.dropLast → IsDirectoryPlace path place := fun _ => .way
  have haround : path.dropLast = around := by rw [heq, List.dropLast_concat]
  rw [haround] at hdraft hdirs
  rw [hdraft] at hdraftPlain hdraftFits hfile'
  rw [heq] at hplain hfits
  have hname : IsFilePlace path (around ++ [name]) := heq ▸ hfile
  -- The directories are there after this, and then the draft takes the place of the manifest.
  obtain ⟨d₁, hmade, hgrows, hdir⟩ := h.makeDirs hpath hdirs
    (fun other hother => hplain other (List.mem_append_left _ hother)) hfits.of_concat
  obtain ⟨d₂, d₃, hwrite, hrename, hgrows'⟩ := hgrows.laid.placed hpath (.text m.text) nofun
    hdir hplain hfits hdraftPlain hdraftFits hname hfile'
  have hparents : d.makeParents path = (.ok (), d₁) := by
    rw [Folder.makeParents, heq, FolderPath.parent?_concat hplain]
    exact hmade
  refine ⟨d₃, ?_, hgrows.trans hgrows'⟩
  unfold PartitionStore.saveManifest
  rw [hparents, hdraft]
  simp only [hwrite]
  rw [heq, hrename]

end Laid

/-! ### Tables -/

/-- The directory of a store is there, unless its path does not fit. -/
def Housed (d : Folder) (storeId : String) : Prop :=
  Fits (storePlace storeId) → d.nodes.get? (storePlace storeId) = some .directory

/-- **Lines can be written** if the draft of their file fits and each of their moments fits a word. -/
structure Writable (id : PartitionId) (facts : List FactRecord) : Prop where
  /-- The draft. -/
  fits : Fits (draftPlace id facts)
  /-- The lines. -/
  encodes : ∃ t, FactTable.ofLines facts = .ok t

theorem isPlainName_of_mem_storePlace (storeId : String) :
    ∀ name ∈ storePlace storeId, IsPlainName name := by
  intro name hname
  unfold storePlace at hname
  split at hname
  · cases hname
  · next hstore =>
    rcases List.mem_append.1 hname with hhome | hlast
    · clear hname
      revert name
      unfold IsPlainName
      decide
    · exact List.mem_singleton.1 hlast ▸ isPlainName_directoryName hstore

theorem isPlainName_of_mem_tablePlace (id : PartitionId) (facts : List FactRecord) :
    ∀ name ∈ tablePlace id facts, IsPlainName name := by
  intro name hname
  rcases List.mem_append.1 hname with hstore | hlast
  · exact isPlainName_of_mem_storePlace _ name hstore
  · exact List.mem_singleton.1 hlast ▸ isPlainName_of_isTableName (isTableName_baseName _ _)

theorem isPlainName_of_mem_draftPlace (id : PartitionId) (facts : List FactRecord) :
    ∀ name ∈ draftPlace id facts, IsPlainName name := by
  intro name hname
  rcases List.mem_append.1 hname with hstore | hlast
  · exact isPlainName_of_mem_storePlace _ name hstore
  · rw [List.mem_singleton.1 hlast]
    exact isPlainName_of_isDraftName (isDraftName_tmp (isTableName_baseName _ _))

/-- Where a draft fits, the file does. -/
theorem Writable.fits_tablePlace (h : Writable id facts) : Fits (tablePlace id facts) := by
  have hname := h.fits.names (baseName id (contentHash facts) ++ ".tmp") (by simp [draftPlace])
  have hsize := h.fits.size
  rw [draftPlace, FolderPath.size_concat] at hsize
  rw [String.utf8ByteSize_append] at hname hsize
  constructor
  · intro name hmem
    rcases List.mem_append.1 hmem with hstore | hlast
    · exact h.fits.names name (List.mem_append_left _ hstore)
    · rw [List.mem_singleton.1 hlast]
      refine ⟨fun hzero => hname.1 ?_, by omega⟩
      rw [String.toList_append]
      exact List.mem_append_left _ hzero
  · rw [tablePlace, FolderPath.size_concat]
    omega

theorem makeParents_tablePlace (d : Folder) (id : PartitionId) (facts : List FactRecord) :
    d.makeParents (tablePlace id facts) = d.makeDirs (storePlace id.storeId) := by
  have hparent : FolderPath.parent? (tablePlace id facts) = some (storePlace id.storeId) :=
    FolderPath.parent?_concat (isPlainName_of_mem_tablePlace id facts)
  rw [Folder.makeParents, hparent]

/-- What the directory of a store lies in is the home, and what that lies in. -/
theorem isDirectoryPlace_of_prefix {storeId : String} (hplace : place <+: storePlace storeId) :
    IsDirectoryPlace path place := by
  by_cases hsame : place = storePlace storeId
  · exact .store storeId hsame
  · refine .home ?_
    unfold storePlace at hplace hsame
    split at hplace
    · next hempty =>
      rw [if_pos hempty] at hsame
      exact absurd (List.prefix_nil.1 hplace) hsame
    · next hempty =>
      rw [if_neg hempty] at hsame
      exact (List.prefix_concat_iff.1 hplace).resolve_left hsame

/-- **The directory of a store** is created, unless its path does not fit. -/
theorem Laid.makeDirs_storePlace (h : Laid path d) (hpath : KeptApart path) (storeId : String) :
    ∃ d', (Fits (storePlace storeId) ∧ d.makeDirs (storePlace storeId) = (.ok (), d') ∧
          d'.nodes.get? (storePlace storeId) = some .directory ∨
        ¬Fits (storePlace storeId) ∧
          ∃ cause, d.makeDirs (storePlace storeId) = (.error cause, d')) ∧
      Grows path d d' ∧ Housed d' storeId ∧ (Housed d storeId → d' = d) := by
  have hplain := isPlainName_of_mem_storePlace storeId
  by_cases hfits : Fits (storePlace storeId)
  · obtain ⟨d', hmade, hgrows, hdir⟩ :=
      h.makeDirs hpath (fun _ => isDirectoryPlace_of_prefix) hplain hfits
    refine ⟨d', .inl ⟨hfits, hmade, hdir⟩, hgrows, fun _ => hdir, fun hhoused => ?_⟩
    have hthere := Folder.makeDirs_of_directory h.tree hplain hfits (hhoused hfits)
    exact congrArg Prod.snd (hmade.symm.trans hthere)
  · -- The home is there, so that it is the last name which is too long.
    have hnot : storeId ≠ "" := by
      rintro rfl
      exact hfits ⟨fun _ hname => absurd hname List.not_mem_nil, Nat.zero_le _⟩
    have hstore : storePlace storeId = FolderPath.home ++ [directoryName storeId] := if_neg hnot
    rw [hstore] at hplain
    obtain ⟨cause, hmade⟩ := Folder.makeDirs_of_not_fits h.tree hplain ⟨by decide, by decide⟩ h.home
      (hstore ▸ hfits)
    exact ⟨d, .inr ⟨hfits, cause, hstore ▸ hmade⟩, h.grows_self, fun hfits' => absurd hfits' hfits,
      fun _ => rfl⟩

/-- **Lines are written** if they can be; if not, nothing changes but that their store gets its
directory. -/
theorem Laid.writeFile (h : Laid path d) (hpath : KeptApart path) (id : PartitionId)
    (facts : List FactRecord) :
    (Writable id facts ∧ ∃ size d', writeFile d (fileName id (contentHash facts)) facts =
        (.ok size, d') ∧ Grows path d d') ∨
      ¬Writable id facts ∧ ∃ error d', writeFile d (fileName id (contentHash facts)) facts =
        (.error error, d') ∧ Grows path d d' ∧ Housed d' id.storeId ∧
          (Housed d id.storeId → d' = d) := by
  unfold PartitionStore.writeFile
  rw [ofText_fileName_eq_tablePlace]
  simp only [makeParents_tablePlace, extended_tablePlace]
  obtain ⟨d₁, ⟨hfits, hmade, hdir⟩ | ⟨hfits, cause, hmade⟩, hrest⟩ :=
    h.makeDirs_storePlace hpath id.storeId
  · -- The directory is there, so only the lines or the length of the name can be refused.
    rw [hmade]
    cases htable : FactTable.ofLines facts with
    | error e =>
      refine .inr ⟨?_, _, d₁, rfl, hrest⟩
      rintro ⟨-, t, ht⟩
      rw [htable] at ht
      cases ht
    | ok t =>
      by_cases hdraft : Fits (draftPlace id facts)
      · have hwritable : Writable id facts := ⟨hdraft, t, htable⟩
        obtain ⟨d₂, d₃, hwrite, hrename, hgrows⟩ := hrest.1.laid.placed hpath (.table t)
          nofun hdir (isPlainName_of_mem_tablePlace id facts) hwritable.fits_tablePlace
          (isPlainName_of_mem_draftPlace id facts) hdraft (.table id facts rfl) (.draft id facts rfl)
        have hwrite' : d₁.write (draftPlace id facts) (.table t) = .ok d₂ := hwrite
        have hrename' : d₂.rename (draftPlace id facts) (tablePlace id facts) = .ok d₃ := hrename
        refine .inl ⟨hwritable, t.cellCount, d₃, ?_, hrest.1.trans hgrows⟩
        simp only [hwrite', hrename']
      · obtain ⟨cause, -, hlocate⟩ := Folder.locate_of_not_fits hrest.1.laid.tree
          (isPlainName_of_mem_draftPlace id facts) hfits hdir hdraft
        have hlocate' : d₁.locate (draftPlace id facts) = .error cause := hlocate
        have hwrite : d₁.write (draftPlace id facts) (.table t) = .error cause := by
          unfold Folder.write
          rw [hlocate']
          rfl
        simp only [hwrite]
        exact .inr ⟨fun hwritable => hdraft hwritable.fits, _, d₁, rfl, hrest⟩
  · rw [hmade]
    exact .inr ⟨fun hwritable => hfits hwritable.fits_tablePlace.of_concat, _, d₁, rfl, hrest⟩

/-! ### Stores in laid out folders -/

/-- **A store is laid out.** -/
structure LaidOut (path : FolderPath) (s : PartitionStore) : Prop where
  /-- The path of its manifest. -/
  manifestPath : s.manifestPath = path
  /-- Its folder. -/
  folder : Laid path s.folder

/-- **A store has become another one** that is laid out, too, and has all of its directories. -/
structure Expands (path : FolderPath) (s s' : PartitionStore) : Prop where
  /-- The path of its manifest. -/
  manifestPath : s'.manifestPath = path
  /-- Its folder. -/
  grows : Grows path s.folder s'.folder

variable {s s' : PartitionStore}

theorem Expands.laidOut (h : Expands path s s') : LaidOut path s' := ⟨h.manifestPath, h.grows.laid⟩

theorem LaidOut.expands_self (h : LaidOut path s) : Expands path s s :=
  ⟨h.manifestPath, h.folder.grows_self⟩

/-- The directory of a store is left. -/
theorem Expands.housed (h : Expands path s s') {storeId : String}
    (hhoused : Housed s.folder storeId) : Housed s'.folder storeId :=
  fun hfits => h.grows.get? (hhoused hfits)

theorem LaidOut.exchangeManifest (h : LaidOut path s) (hpath : KeptApart path) (m : Manifest) :
    ∃ d', s.exchangeManifest m = (.ok (), { s with folder := d', manifest := m }) ∧
      Grows path s.folder d' := by
  obtain ⟨d', hsaved, hgrows⟩ := h.folder.saveManifest hpath m
  refine ⟨d', ?_, hgrows⟩
  rw [PartitionStore.exchangeManifest, h.manifestPath, hsaved]

/-- **An entry is always entered.** -/
theorem LaidOut.enter (h : LaidOut path s) (hpath : KeptApart path) (e : PartitionEntry) :
    (s.enter e).1 = .ok () ∧ Expands path s (s.enter e).2 := by
  obtain ⟨d', hexchanged, hgrows⟩ := h.exchangeManifest hpath (s.manifest.insert e.id e)
  unfold PartitionStore.enter
  simp only [hexchanged, true_and]
  split
  · split
    · exact ⟨h.manifestPath, hgrows⟩
    · exact ⟨h.manifestPath, hgrows.trans (hgrows.laid.discardFile _)⟩
  · exact ⟨h.manifestPath, hgrows⟩

/-- **A partition is always dropped.** -/
theorem LaidOut.drop (h : LaidOut path s) (hpath : KeptApart path) (id : PartitionId)
    (hash : String) : (∃ ref, (s.drop id hash).1 = .ok ref) ∧ Expands path s (s.drop id hash).2 := by
  obtain ⟨d', hexchanged, hgrows⟩ := h.exchangeManifest hpath (s.manifest.erase id)
  unfold PartitionStore.drop
  split
  · exact ⟨⟨_, rfl⟩, h.expands_self⟩
  · simp only [hexchanged]
    exact ⟨⟨_, rfl⟩, h.manifestPath, hgrows.trans (hgrows.laid.discardFile _)⟩

/-- **What becomes of a store that refuses lines**: nothing, but that their store gets its directory. -/
structure Refuses (path : FolderPath) (s : PartitionStore) (id : PartitionId)
    {α : Type} (r : Except PartitionError α × PartitionStore) : Prop where
  /-- It tells why. -/
  error : ∃ error, r.1 = .error error
  /-- Nothing but the folder changes. -/
  eq_folder : r.2 = { s with folder := r.2.folder }
  /-- The folder has all its directories. -/
  grows : Grows path s.folder r.2.folder
  /-- The directory of the store is one of them. -/
  housed : Housed r.2.folder id.storeId
  /-- If it was there before, nothing changes at all. -/
  eq_self : Housed s.folder id.storeId → r.2 = s

/-- **Installing lines** fails exactly if they cannot be written. -/
theorem LaidOut.install (h : LaidOut path s) (hpath : KeptApart path) (id : PartitionId)
    (facts : List FactRecord) :
    (Writable id facts ∧ (∃ ref, (s.install id facts (contentHash facts)).1 = .ok ref) ∧
        Expands path s (s.install id facts (contentHash facts)).2) ∨
      ¬Writable id facts ∧ Refuses path s id (s.install id facts (contentHash facts)) := by
  unfold PartitionStore.install
  simp only
  obtain ⟨hwritable, size, d', hwritten, hgrows⟩ |
      ⟨hnot, error, d', hwritten, hgrows, hhoused, hself⟩ := h.folder.writeFile hpath id facts
  · have hlaid : LaidOut path { s with folder := d' } := ⟨h.manifestPath, hgrows.laid⟩
    obtain ⟨hok, hentered⟩ := hlaid.enter hpath
      { id, file := fileName id (contentHash facts), contentHash := contentHash facts
        rowCount := facts.length, fileSize := size, writtenAt := s.today.dayNumber * 86400
        summary := s.summaryOf facts }
    simp only [hwritten]
    refine .inl ⟨hwritable, ?_⟩
    split
    · next heq =>
      rw [heq] at hok
      cases hok
    · next heq =>
      rw [heq] at hentered
      exact ⟨⟨_, rfl⟩, hentered.manifestPath, hgrows.trans hentered.grows⟩
  · simp only [hwritten]
    refine .inr ⟨hnot, ⟨error, rfl⟩, rfl, hgrows, hhoused, fun hold => ?_⟩
    rw [hself hold]

/-- **Replacing a partition** fails exactly if there are lines, they are not there already, and they
cannot be written. -/
theorem LaidOut.replace (h : LaidOut path s) (hpath : KeptApart path) (id : PartitionId)
    (lines : List FactRecord) :
    ((∃ ref, (s.replace id lines).1 = .ok ref) ∧ Expands path s (s.replace id lines).2) ∨
      lines ≠ [] ∧ s.unchanged? id (contentHash (canonicalSort lines)) = none ∧
        ¬Writable id (canonicalSort lines) ∧ Refuses path s id (s.replace id lines) := by
  obtain ⟨-, heq⟩ | ⟨hsome, ⟨_, _, -, -, heq⟩ | ⟨hchanged, heq⟩⟩ := s.replace_cases id lines
  · rw [heq]
    exact .inl (h.drop hpath id _)
  · rw [heq]
    exact .inl ⟨⟨_, rfl⟩, h.manifestPath, h.folder.grows_self⟩
  · rw [heq]
    exact (h.install hpath id (canonicalSort lines)).imp And.right fun ⟨hnot, hrefuses⟩ =>
      ⟨hsome, hchanged, hnot, hrefuses⟩

/-- **A partition is refused again**, and then nothing changes. -/
theorem LaidOut.replace_again (h : LaidOut path s) (hpath : KeptApart path)
    {lines : List FactRecord} (hsome : lines ≠ [])
    (hchanged : s.unchanged? id (contentHash (canonicalSort lines)) = none)
    (hnot : ¬Writable id (canonicalSort lines)) (hhoused : Housed s.folder id.storeId) :
    ∃ error, s.replace id lines = (.error error, s) := by
  obtain ⟨hnil, -⟩ | ⟨-, ⟨_, _, hfound, -⟩ | ⟨-, heq⟩⟩ := s.replace_cases id lines
  · exact absurd hnil hsome
  · rw [hchanged] at hfound
    cases hfound
  · rw [heq]
    obtain ⟨hwritable, -⟩ | ⟨-, hrefuses⟩ := h.install hpath id (canonicalSort lines)
    · exact absurd hwritable hnot
    · obtain ⟨error, herror⟩ := hrefuses.error
      exact ⟨error, Prod.ext herror (hrefuses.eq_self hhoused)⟩

end PartitionStore

end RetailReport
