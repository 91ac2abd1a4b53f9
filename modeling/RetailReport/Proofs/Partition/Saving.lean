import RetailReport.Proofs.Partition.Store

/-!
# Saving a manifest again

Whether a manifest can be saved does not depend on what it says, but on where it goes: the directories
around it, and the places of its file and of its draft.  Saving it leaves these as they have to be, and
so does discarding files.  So a manifest that has been saved can be saved again.

What is written by way of a draft adds one file to the folder, and the draft is gone.  A file that
stands where the manifest goes is lost; every other one with the name of a table is left.

## Main definitions

* `PartitionStore.Savable`: a manifest can be saved under a path.

## Main results

* `Folder.makeParents_again`: directories that were created need not be created again.
* `Folder.get?_placed`: what is in a folder after a file was written by way of a draft.
* `Folder.node_of_placed`: what becomes of what was there before.
* `PartitionStore.Savable.exists_saveManifest`: any manifest is saved.
* `PartitionStore.savable_saveManifest`, `PartitionStore.Savable.discardFile`: and can be saved again.
* `PartitionStore.node_of_saveManifest`: what saving it does to a file with the name of a table.
-/

namespace RetailReport

/-! ### Paths of directories -/

namespace FolderPath

variable {path parent : FolderPath} {names : List String}

/-- No empty name is left at the end of a path that was trimmed. -/
theorem withoutSlashes_trimmed (path : FolderPath) :
    withoutSlashes (trimmed path) = trimmed path := by
  unfold withoutSlashes trimmed
  rw [List.reverse_reverse]
  refine congrArg List.reverse ?_
  cases hrest : path.reverse.dropWhile isBlank with
  | nil => rfl
  | cons name rest =>
    have hname : isBlank name = false := by
      simpa [hrest] using List.head?_dropWhile_not isBlank path.reverse
    have hempty : name ≠ "" := by
      rintro rfl
      cases hname
    rw [List.dropWhile_cons_of_neg (by simpa using hempty)]

theorem withoutSlashes_of_mem_above (h : path ∈ above names) : withoutSlashes path = path := by
  induction names with
  | nil => cases h
  | cons name rest ih =>
    rw [above] at h
    split at h
    · exact ih h
    · rcases List.mem_cons.1 h with rfl | h
      · exact withoutSlashes_trimmed _
      · exact ih h

theorem withoutSlashes_parent? (h : parent? path = some parent) :
    withoutSlashes parent = parent :=
  withoutSlashes_of_mem_above (List.mem_of_mem_head? h)

end FolderPath

/-! ### Directories that are there -/

namespace Folder

variable {d d' d'' : Folder} {S : String → Prop} {path draft : FolderPath} {place : Place}
  {held node : FolderNode}

/-- A directory outlasts every change. -/
theorem Turns.isDirectory (h : d.Turns S d') (hdir : d.isDirectory path = true) :
    d'.isDirectory path = true := by
  obtain ⟨place, hlocate, hget⟩ := node_eq_ok.1 (isDirectory_iff.1 hdir)
  exact isDirectory_iff.2 (node_eq_ok.2 ⟨place, h.locate hlocate, h.keeps _ _ hget (.inl rfl)⟩)

/-- What was to be created is a directory. -/
theorem isDirectory_of_ensureDir (ht : d.Tree) (hslashes : FolderPath.withoutSlashes path = path)
    (h : d.ensureDir path = .ok d') : d'.isDirectory path = true := by
  unfold ensureDir at h
  split at h
  · next hmake =>
    rw [Except.ok.inj h] at hmake
    have hturns : d.Turns (fun _ => True) d' := turns_makeDir ht hmake
    obtain ⟨place, hlocate, hmake⟩ := Except.bind_eq_ok.1 hmake
    rw [hslashes] at hlocate
    split at hmake
    · cases hmake
    · cases hmake
      exact isDirectory_iff.2 (node_eq_ok.2 ⟨place, hturns.locate hlocate,
        SortedMap.get?_insert_self ..⟩)
  · split at h
    · next hdir => exact Except.ok.inj h ▸ hdir
    · cases h

theorem isDirectory_of_ensureDirs (ht : d.Tree)
    (hslashes : FolderPath.withoutSlashes path = path) {above : List FolderPath}
    (h : d.ensureDirs (path :: above) = (.ok (), d')) : d'.isDirectory path = true := by
  rw [ensureDirs] at h
  split at h
  · next hdone =>
    cases h
    exact isDirectory_of_ensureDir ht hslashes hdone
  · -- The directories around it had to be created first.
    have htree : (d.ensureDirs above).2.Tree :=
      (ensureDirs_keeps (P := d.Turns fun _ => True)
        (fun _ _ _ hd hmake => hd.trans (turns_makeDir hd.tree hmake)) (.refl ht) above).tree
    split at h
    · cases h
    · next heq =>
      rw [heq] at htree
      split at h
      · next hdone =>
        cases h
        exact isDirectory_of_ensureDir htree hslashes hdone
      · cases h
  · cases h

theorem turns_of_makeParents {outcome : Except FolderError Unit} (ht : d.Tree)
    (h : d.makeParents path = (outcome, d')) : d.Turns S d' := by
  rw [show d' = (d.makeParents path).2 from congrArg Prod.snd h.symm]
  exact turns_makeParents ht path

/-- **Directories that were created** need not be created again. -/
theorem makeParents_again (ht : d.Tree) (h : d.makeParents path = (.ok (), d'))
    (hturns : d'.Turns S d'') : d''.makeParents path = (.ok (), d'') := by
  unfold makeParents at h ⊢
  split at h
  · next parent hparent =>
    have hslashes := FolderPath.withoutSlashes_parent? hparent
    have hdir := hturns.isDirectory (isDirectory_of_ensureDirs ht hslashes h)
    show d''.ensureDirs (parent :: FolderPath.above parent.reverse) = _
    rw [ensureDirs, ensureDir_of_isDirectory hslashes hdir]
  · rfl

/-! ### Files that were drafts -/

/-- **What writing a file by way of a draft does**: the file is there, the draft is gone, and all else
is as before. -/
theorem get?_placed (ht : d.Tree) (hwrite : d.write draft held = .ok d')
    (hrename : d'.rename draft path = .ok d'') : d.Turns (fun _ => True) d'' ∧
      ∃ former goal, d.locate draft = .ok former ∧ d''.locate path = .ok goal ∧
        ∀ place, d''.nodes.get? place =
          if place = goal then some held else if place = former then none else d.nodes.get? place := by
  have hwritten : d.Turns (fun _ => True) d' := turns_write ht hwrite fun _ _ => trivial
  have hplaced : d'.Turns (fun _ => True) d'' :=
    (turns_rename hwritten.tree hrename (fun _ _ => trivial) fun _ _ => trivial).1
  have hdraft := node_write ht hwrite
  obtain ⟨former, hformer, -, rfl⟩ := write_eq_ok hwrite
  obtain ⟨found, former', next, hfound, -, hformer', hnext, hcases⟩ := rename_eq_ok hrename
  obtain rfl : former = former' := Except.ok.inj ((hwritten.locate hformer).symm.trans hformer')
  obtain rfl : held = found := Except.ok.inj (hdraft.symm.trans hfound)
  refine ⟨hwritten.trans hplaced, former, ?_⟩
  rcases hcases with ⟨hsame, rfl⟩ | ⟨hother, rfl⟩
  · -- The draft was written where the file is to be.
    refine ⟨former, hformer, hsame, fun place => ?_⟩
    refine (SortedMap.get?_insert ..).trans ?_
    split <;> rfl
  · obtain ⟨goal, hgoal, -, rfl⟩ := write_eq_ok hnext
    have hne : goal ≠ former := fun heq => hother (heq ▸ hgoal)
    refine ⟨goal, hformer, hplaced.locate hgoal, fun place => ?_⟩
    change (((d.nodes.insert former held).insert goal held).erase former).get? place = _
    rw [SortedMap.get?_erase, SortedMap.get?_insert, SortedMap.get?_insert]
    by_cases hplace : place = former
    · rw [if_pos hplace, if_neg (hplace ▸ hne.symm), if_pos hplace]
    · rw [if_neg hplace, if_neg hplace, if_neg hplace]

/-- **After a file was written by way of a draft** nothing is new but the file. -/
theorem get?_of_placed (ht : d.Tree) (hwrite : d.write draft held = .ok d')
    (hrename : d'.rename draft path = .ok d'') (hget : d''.nodes.get? place = some node) :
    d.nodes.get? place = some node ∨ node = held ∧ d''.locate path = .ok place := by
  obtain ⟨-, former, goal, -, hgoal, hthere⟩ := get?_placed ht hwrite hrename
  rw [hthere] at hget
  split at hget
  · next heq => exact .inr ⟨(Option.some.inj hget).symm, heq ▸ hgoal⟩
  · split at hget
    · cases hget
    · exact .inl hget

/-- **What was there before** is still there, or the file has taken its place. -/
theorem node_of_placed (ht : d.Tree) (hwrite : d.write draft held = .ok d')
    (hrename : d'.rename draft path = .ok d'') {other : FolderPath} (hnode : d.node other = .ok node)
    (hdraft : d.locate draft ≠ d.locate other) :
    d''.node other = .ok node ∨ d''.node other = .ok held ∧ d''.locate other = d''.locate path := by
  obtain ⟨hturns, former, goal, hformer, hgoal, hthere⟩ := get?_placed ht hwrite hrename
  obtain ⟨place, hlocate, hget⟩ := node_eq_ok.1 hnode
  have hlocate' : d''.locate other = .ok place := hturns.locate hlocate
  have hne : place ≠ former := by
    rintro rfl
    exact hdraft (hformer.trans hlocate.symm)
  by_cases hsame : place = goal
  · have hheld : d''.nodes.get? place = some held := (hthere place).trans (if_pos hsame)
    exact .inr ⟨node_eq_ok.2 ⟨place, hlocate', hheld⟩, hlocate'.trans (hsame ▸ hgoal.symm)⟩
  · have hkept : d''.nodes.get? place = some node := by
      rw [hthere, if_neg hsame, if_neg hne]
      exact hget
    exact .inl (node_eq_ok.2 ⟨place, hlocate', hkept⟩)

/-- A file can be written wherever no directory is. -/
theorem exists_write (hlocate : d.locate path = .ok place)
    (hfile : d.nodes.get? place ≠ some .directory) (held : FolderNode) :
    d.write path held = .ok { d with nodes := d.nodes.insert place held } := by
  refine Except.bind_eq_ok.2 ⟨place, hlocate, ?_⟩
  split
  · next hdir => exact absurd hdir hfile
  · rfl

/-- A file can be moved to wherever no directory is. -/
theorem exists_rename {source target : FolderPath} {goal : Place}
    (hnode : d.node source = .ok held) (hheld : held ≠ .directory)
    (hlocate : d.locate target = .ok goal) (hfile : d.nodes.get? goal ≠ some .directory) :
    ∃ d', d.rename source target = .ok d' := by
  obtain ⟨former, hformer, -⟩ := node_eq_ok.1 hnode
  refine ⟨_, Except.bind_eq_ok.2 ⟨held, read_eq_ok.2 ⟨hnode, hheld⟩, Except.bind_eq_ok.2 ⟨former,
    hformer, Except.bind_eq_ok.2 ⟨_, exists_write hlocate hfile held, Except.bind_eq_ok.2 ⟨goal,
    hlocate, rfl⟩⟩⟩⟩⟩

/-- Discarding a file leaves no directory where none was. -/
theorem get?_discardFile_ne (hfile : d.nodes.get? place ≠ some .directory) :
    (d.discardFile path).nodes.get? place ≠ some .directory := by
  unfold discardFile
  split
  · next hremove =>
    obtain ⟨-, -, hremove⟩ := Except.bind_eq_ok.1 hremove
    obtain ⟨gone, -, hremove⟩ := Except.bind_eq_ok.1 hremove
    cases hremove
    show (d.nodes.erase gone).get? place ≠ _
    rw [SortedMap.get?_erase]
    split
    · exact nofun
    · exact hfile
  · exact hfile

end Folder

/-! ### Manifests -/

namespace PartitionStore

variable {d d' : Folder} {path : FolderPath} {m : Manifest}

/-- What happens when a manifest is saved. -/
theorem saveManifest_eq_ok : saveManifest d path m = (.ok (), d') ↔ ∃ d₁ d₂,
    d.makeParents path = (.ok (), d₁) ∧
    d₁.write (FolderPath.withExtension path "tmp") (.text m.text) = .ok d₂ ∧
    d₂.rename (FolderPath.withExtension path "tmp") path = .ok d' := by
  unfold saveManifest
  constructor
  · intro h
    split at h
    · cases h
    · next d₁ hparents =>
      simp only at h
      split at h
      · cases h
      · next d₂ hwrite =>
        split at h
        · cases h
        · next hrename =>
          cases h
          exact ⟨d₁, d₂, hparents, hwrite, hrename⟩
  · rintro ⟨d₁, d₂, hparents, hwrite, hrename⟩
    rw [hparents]
    simp only [hwrite, hrename]

/-- **A manifest can be saved under a path**: the directories are there, and neither where its draft
nor where its file is to be is there a directory. -/
structure Savable (path : FolderPath) (d : Folder) : Prop where
  /-- The directories. -/
  parents : d.makeParents path = (.ok (), d)
  /-- The draft. -/
  draft : ∃ place, d.locate (FolderPath.withExtension path "tmp") = .ok place ∧
    d.nodes.get? place ≠ some .directory
  /-- The file. -/
  file : ∃ place, d.locate path = .ok place ∧ d.nodes.get? place ≠ some .directory

/-- **Any manifest is saved**, whatever it says. -/
theorem Savable.exists_saveManifest (h : Savable path d) (ht : d.Tree) (m : Manifest) :
    ∃ d', saveManifest d path m = (.ok (), d') := by
  obtain ⟨draft, hdraft, hfree⟩ := h.draft
  obtain ⟨file, hfile, hfree'⟩ := h.file
  have hwrite := Folder.exists_write hdraft hfree (.text m.text)
  have hturns : d.Turns (fun _ => True) { d with nodes := d.nodes.insert draft (.text m.text) } :=
    Folder.turns_write ht hwrite fun _ _ => trivial
  have hstill : (d.nodes.insert draft (.text m.text)).get? file ≠ some .directory := by
    rw [SortedMap.get?_insert]
    split
    · exact nofun
    · exact hfree'
  obtain ⟨d', hrename⟩ := Folder.exists_rename (Folder.node_write ht hwrite) nofun
    (hturns.locate hfile) hstill
  exact ⟨d', saveManifest_eq_ok.2 ⟨d, _, h.parents, hwrite, hrename⟩⟩

/-- **What saving a manifest does**: all directories stay where they are, and the text of the manifest
is found under its path. -/
theorem turns_of_saveManifest (ht : d.Tree) (h : saveManifest d path m = (.ok (), d')) :
    d.Turns (fun _ => True) d' ∧ d'.node path = .ok (.text m.text) := by
  obtain ⟨d₁, d₂, hparents, hwrite, hrename⟩ := saveManifest_eq_ok.1 h
  have hcreated : d.Turns (fun _ => True) d₁ := Folder.turns_of_makeParents ht hparents
  obtain ⟨hplaced, _, goal, -, hgoal, hthere⟩ := Folder.get?_placed hcreated.tree hwrite hrename
  exact ⟨hcreated.trans hplaced, Folder.node_eq_ok.2 ⟨goal, hgoal, (hthere goal).trans (if_pos rfl)⟩⟩

/-- **A manifest that was saved** can be saved again. -/
theorem savable_saveManifest (ht : d.Tree) (h : saveManifest d path m = (.ok (), d')) :
    Savable path d' := by
  obtain ⟨file, hfile, hget⟩ := Folder.node_eq_ok.1 (turns_of_saveManifest ht h).2
  obtain ⟨d₁, d₂, hparents, hwrite, hrename⟩ := saveManifest_eq_ok.1 h
  have htree : d₁.Tree := (Folder.turns_of_makeParents (S := fun _ => True) ht hparents).tree
  obtain ⟨hplaced, -⟩ := Folder.get?_placed htree hwrite hrename
  obtain ⟨draft, hdraft, hfree, -⟩ := Folder.write_eq_ok hwrite
  refine ⟨Folder.makeParents_again ht hparents hplaced,
    ⟨draft, hplaced.locate hdraft, fun hdir => ?_⟩, ⟨file, hfile, ?_⟩⟩
  · -- No directory is new since the directories around the file were created.
    rcases Folder.get?_of_placed htree hwrite hrename hdir with hold | ⟨hnew, -⟩
    · exact hfree hold
    · cases hnew
  · rw [hget]
    exact nofun

/-- Discarding a file does not matter. -/
theorem Savable.discardFile (h : Savable path d) (ht : d.Tree) (other : FolderPath) :
    Savable path (d.discardFile other) := by
  have hturns : d.Turns (fun _ => True) (d.discardFile other) :=
    Folder.turns_discardFile ht fun _ _ => trivial
  obtain ⟨draft, hdraft, hfree⟩ := h.draft
  obtain ⟨file, hfile, hfree'⟩ := h.file
  exact ⟨Folder.makeParents_again ht h.parents hturns,
    ⟨draft, hturns.locate hdraft, Folder.get?_discardFile_ne hfree⟩,
    ⟨file, hturns.locate hfile, Folder.get?_discardFile_ne hfree'⟩⟩

/-- **A file with the name of a table** is left, unless the manifest goes to its place. -/
theorem node_of_saveManifest (ht : d.Tree) (h : saveManifest d path m = (.ok (), d'))
    {file : FolderPath} {name : String} {held : FolderNode} (hlast : file.getLast? = some name)
    (hname : IsTableName name) (hnode : d.node file = .ok held) (hfile : held ≠ .directory) :
    d'.node file = .ok held ∨
      d'.node file = .ok (.text m.text) ∧ d'.locate file = d'.locate path := by
  obtain ⟨d₁, d₂, hparents, hwrite, hrename⟩ := saveManifest_eq_ok.1 h
  have hturns : d.Turns (fun _ => False) d₁ := Folder.turns_of_makeParents ht hparents
  have hnode₁ : d₁.node file = .ok held := hturns.node ht hnode hfile fun _ _ => not_false
  refine Folder.node_of_placed hturns.tree hwrite hrename hnode₁ fun hsame => ?_
  -- The draft would have the name of a table.
  obtain ⟨place, hlocate, -, hget, hplace⟩ := hturns.tree.exists_of_node hnode₁ hfile
  obtain ⟨around, own, rfl, hdraft, -⟩ := hturns.tree.exists_of_locate (hsame.trans hlocate) hget
  rw [hlast, List.getLast?_concat] at hplace
  exact not_isTableName_draft hdraft (Option.some.inj hplace ▸ hname)

/-- Saving a manifest puts no table anywhere. -/
theorem get?_table_of_saveManifest (ht : d.Tree) (h : saveManifest d path m = (.ok (), d'))
    {place : Place} {t : FactTable} (hget : d'.nodes.get? place = some (.table t)) :
    d.nodes.get? place = some (.table t) := by
  obtain ⟨d₁, d₂, hparents, hwrite, hrename⟩ := saveManifest_eq_ok.1 h
  have hadds := Folder.adds_makeParents (P := fun _ => False) d path
  have htree : d₁.Tree := (Folder.turns_of_makeParents (S := fun _ => True) ht hparents).tree
  rw [hparents] at hadds
  rcases Folder.get?_of_placed htree hwrite hrename hget with hold | ⟨hnew, -⟩
  · exact (hadds place _ hold nofun).resolve_right id
  · cases hnew

end PartitionStore

end RetailReport
