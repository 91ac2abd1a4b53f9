import RetailReport.Partition.Folder
import RetailReport.Proofs.Outcomes
import RetailReport.Proofs.SortedMap

/-!
# What becomes of a folder

Whatever is done to a folder changes it at few places only: where a path leads to, and at the
directories that are created on the way.  The places are told apart by their own names, since these
are also the last names of the paths that lead there.

## Main definitions

* `Folder.Tree`: the tree of the folder hangs together.
* `Folder.Turns`: one folder has become another, but for files whose names are in a set.
* `Folder.Adds`: one folder has become another, with new files at some places only.

## Main results

* `Folder.Turns.node`: what the other files hold is still found.
* `Folder.turns_makeParents`, `Folder.turns_write`, `Folder.turns_rename`, `Folder.turns_discardFile`.
* `Folder.adds_makeParents`, `Folder.adds_write`, `Folder.adds_rename`, `Folder.adds_discardFile`.
* `Folder.get?_discardFile`: a file that was discarded is gone.
-/

namespace RetailReport.Folder

variable {d d' d'' : Folder} {S : String → Prop} {path : FolderPath} {place : Place}
  {held : FolderNode}

/-- **The tree hangs together**: its root is a directory, and so is everything that something lies
in. -/
structure Tree (d : Folder) : Prop where
  /-- The root is a directory. -/
  root : d.nodes.get? [] = some .directory
  /-- Whatever stands somewhere lies in a directory. -/
  around : ∀ place name node, d.nodes.get? (place ++ [name]) = some node →
    d.nodes.get? place = some .directory

/-- **A folder has become another one** in which all directories are left, and all files but those
whose names are in a set. -/
structure Turns (S : String → Prop) (d d' : Folder) : Prop where
  /-- The tree still hangs together. -/
  tree : d'.Tree
  /-- What stands where it stood. -/
  keeps : ∀ place node, d.nodes.get? place = some node →
    (node = .directory ∨ ∀ name, place.getLast? = some name → ¬S name) →
    d'.nodes.get? place = some node

theorem Turns.refl (h : d.Tree) : d.Turns S d := ⟨h, fun _ _ hget _ => hget⟩

theorem Turns.trans (h : d.Turns S d') (h' : d'.Turns S d'') : d.Turns S d'' :=
  ⟨h'.tree, fun place node hget hkept => h'.keeps place node (h.keeps place node hget hkept) hkept⟩

theorem Turns.mono {S' : String → Prop} (h : d.Turns S d') (hS : ∀ name, S name → S' name) :
    d.Turns S' d' := by
  refine ⟨h.tree, fun place node hget hkept => h.keeps place node hget (hkept.imp_right ?_)⟩
  intro hnot name hlast hname
  exact hnot name hlast (hS name hname)

/-! ### Following paths -/

/-- Where a name can lead: nowhere else, back, or on. -/
theorem follow_eq_ok {name : String} {next : Place} (h : d.follow place name = .ok next) :
    d.nodes.get? place = some .directory ∧
      (next = place ∨ next = place.dropLast ∨ next = place ++ [name]) := by
  unfold follow at h
  split at h
  · cases h
  · next hdir =>
    refine ⟨hdir, ?_⟩
    split at h
    · exact .inl (Except.ok.inj h).symm
    · split at h
      · exact .inr (.inl (Except.ok.inj h).symm)
      · split at h
        · cases h
        · exact .inr (.inr (Except.ok.inj h).symm)
  · cases h

theorem Turns.follow (h : d.Turns S d') {name : String} {next : Place}
    (hfollow : d.follow place name = .ok next) : d'.follow place name = .ok next := by
  have hdir := (follow_eq_ok hfollow).1
  have hdir' := h.keeps place _ hdir (.inl rfl)
  unfold Folder.follow at hfollow ⊢
  rw [hdir] at hfollow
  rw [hdir']
  exact hfollow

theorem Turns.foldlM_follow (h : d.Turns S d') {next : Place}
    (hfollow : path.foldlM d.follow place = .ok next) : path.foldlM d'.follow place = .ok next := by
  induction path generalizing place with
  | nil => exact hfollow
  | cons name path ih =>
    rw [List.foldlM_cons] at hfollow ⊢
    obtain ⟨mid, hmid, hrest⟩ := Except.bind_eq_ok.1 hfollow
    exact Except.bind_eq_ok.2 ⟨mid, h.follow hmid, ih hrest⟩

/-- A path leads to where it has led. -/
theorem Turns.locate (h : d.Turns S d') (hlocate : d.locate path = .ok place) :
    d'.locate path = .ok place := by
  unfold Folder.locate at hlocate ⊢
  split at hlocate
  · cases hlocate
  · next hnull =>
    rw [if_neg hnull]
    split at hlocate
    · cases hlocate
    · next hsize =>
      rw [if_neg hsize]
      exact h.foldlM_follow hlocate

theorem foldlM_of_locate (h : d.locate path = .ok place) :
    path.foldlM d.follow [] = .ok place := by
  unfold locate at h
  split at h
  · cases h
  · split at h
    · cases h
    · exact h

theorem node_eq_ok : d.node path = .ok held ↔
    ∃ place, d.locate path = .ok place ∧ d.nodes.get? place = some held := by
  unfold Folder.node
  rw [Except.bind_eq_ok]
  refine exists_congr fun place => and_congr_right fun _ => ?_
  split
  · next found hfound =>
    rw [hfound, Option.some.injEq]
    exact ⟨Except.ok.inj, fun h => h ▸ rfl⟩
  · next hnone => simp [hnone, throw, throwThe, MonadExceptOf.throw]

/-- **Where there is no directory** a path only gets by its last name, out of a directory. -/
theorem Tree.exists_of_locate (h : d.Tree) (hlocate : d.locate path = .ok place)
    (hfile : d.nodes.get? place ≠ some .directory) :
    ∃ around name, place = around ++ [name] ∧ path.getLast? = some name ∧
      d.nodes.get? around = some .directory := by
  have hfollow := foldlM_of_locate hlocate
  rcases List.eq_nil_or_concat path with rfl | ⟨before, name, rfl⟩
  · cases hfollow
    exact absurd h.root hfile
  · rw [List.concat_eq_append, List.foldlM_append_eq_ok] at hfollow
    obtain ⟨around, -, hlast⟩ := hfollow
    obtain ⟨next, hnext, hlast⟩ := Except.bind_eq_ok.1 hlast
    cases hlast
    obtain ⟨hdir, rfl | rfl | rfl⟩ := follow_eq_ok hnext
    · exact absurd hdir hfile
    · -- The way back leads to a directory.
      rcases List.eq_nil_or_concat around with rfl | ⟨outer, inner, rfl⟩
      · exact absurd hdir hfile
      · rw [List.concat_eq_append, List.dropLast_concat] at hfile
        rw [List.concat_eq_append] at hdir
        exact absurd (h.around _ _ _ hdir) hfile
    · exact ⟨around, name, rfl, by simp, hdir⟩

/-- A file is found under the last name of its path. -/
theorem Tree.exists_of_node (h : d.Tree) (hnode : d.node path = .ok held)
    (hfile : held ≠ .directory) :
    ∃ place, d.locate path = .ok place ∧ d.nodes.get? place = some held ∧
      d.nodes.get? place ≠ some .directory ∧ path.getLast? = place.getLast? := by
  obtain ⟨place, hlocate, hget⟩ := node_eq_ok.1 hnode
  have hget' : d.nodes.get? place ≠ some .directory := by
    rw [hget]
    exact fun e => hfile (Option.some.inj e)
  obtain ⟨around, name, rfl, hlast, -⟩ := h.exists_of_locate hlocate hget'
  exact ⟨_, hlocate, hget, hget', hlast.trans List.getLast?_concat.symm⟩

/-- **What a file holds** is still found, unless its name is in the set. -/
theorem Turns.node (h : d.Turns S d') (ht : d.Tree) (hnode : d.node path = .ok held)
    (hfile : held ≠ .directory) (hname : ∀ name, path.getLast? = some name → ¬S name) :
    d'.node path = .ok held := by
  obtain ⟨place, hlocate, hget, -, hlast⟩ := ht.exists_of_node hnode hfile
  refine node_eq_ok.2 ⟨place, h.locate hlocate, h.keeps _ _ hget (.inr fun own hown => ?_)⟩
  exact hname own (hlast.trans hown)

/-! ### One change -/

/-- Something new is put into a directory, or takes the place of a file in the set. -/
theorem Tree.turns_insert (h : d.Tree) {around : Place} {name : String}
    (hdir : d.nodes.get? around = some .directory)
    (hfile : d.nodes.get? (around ++ [name]) ≠ some .directory)
    (hname : d.nodes.get? (around ++ [name]) = none ∨ S name) (held : FolderNode) :
    d.Turns S { d with nodes := d.nodes.insert (around ++ [name]) held } := by
  -- No directory is replaced, so all ways stay open.
  have hdirs : ∀ place, d.nodes.get? place = some .directory →
      (d.nodes.insert (around ++ [name]) held).get? place = some .directory := by
    intro place hget
    have hne : place ≠ around ++ [name] := fun e => hfile (e ▸ hget)
    rw [SortedMap.get?_insert, if_neg hne]
    exact hget
  constructor
  · refine ⟨hdirs [] h.root, fun place own found hget => ?_⟩
    rw [SortedMap.get?_insert] at hget
    split at hget
    · next e =>
      obtain ⟨rfl, -⟩ := List.append_inj' e rfl
      exact hdirs place hdir
    · exact hdirs place (h.around place own found hget)
  · intro place found hget hkept
    show (d.nodes.insert _ _).get? place = _
    rw [SortedMap.get?_insert, if_neg]
    · exact hget
    · rintro rfl
      rcases hkept with rfl | hkept
      · exact hfile hget
      · rcases hname with hname | hname
        · rw [hname] at hget
          cases hget
        · exact hkept name List.getLast?_concat hname

/-- A file in the set is taken away. -/
theorem Tree.turns_erase (h : d.Tree) (hfile : d.nodes.get? place ≠ some .directory)
    (hname : ∀ name, place.getLast? = some name → S name) :
    d.Turns S { d with nodes := d.nodes.erase place } := by
  have hdirs : ∀ other, d.nodes.get? other = some .directory →
      (d.nodes.erase place).get? other = some .directory := by
    intro other hget
    have hne : other ≠ place := fun e => hfile (e ▸ hget)
    rw [SortedMap.get?_erase, if_neg hne]
    exact hget
  constructor
  · refine ⟨hdirs [] h.root, fun other own found hget => hdirs other ?_⟩
    rw [SortedMap.get?_erase] at hget
    split at hget
    · cases hget
    · exact h.around other own found hget
  · intro other found hget hkept
    show (d.nodes.erase place).get? other = _
    rw [SortedMap.get?_erase, if_neg]
    · exact hget
    · rintro rfl
      rcases hkept with rfl | hkept
      · exact hfile hget
      · cases hlast : other.getLast? with
        | none =>
          rw [List.getLast?_eq_none_iff] at hlast
          exact hfile (hlast ▸ h.root)
        | some name => exact hkept name hlast (hname name hlast)

/-! ### Directories -/

theorem turns_makeDir (h : d.Tree) (hmake : d.makeDir path = .ok d') : d.Turns S d' := by
  obtain ⟨place, hlocate, hmake⟩ := Except.bind_eq_ok.1 hmake
  split at hmake
  · cases hmake
  · next hfree =>
    cases hmake
    have hnone : d.nodes.get? place = none := by
      simpa [SortedMap.contains] using hfree
    have hfile : d.nodes.get? place ≠ some .directory := by rw [hnone]; exact nofun
    obtain ⟨around, name, rfl, -, hdir⟩ := h.exists_of_locate hlocate hfile
    exact h.turns_insert hdir hfile (.inl hnone) .directory

theorem isDirectory_iff : d.isDirectory path = true ↔ d.node path = .ok .directory := by
  unfold isDirectory
  split
  · next h => exact iff_of_true rfl h
  · next h => exact iff_of_false Bool.false_ne_true h

/-- What is a directory need not be created. -/
theorem ensureDir_of_isDirectory (hslashes : FolderPath.withoutSlashes path = path)
    (h : d.isDirectory path = true) : d.ensureDir path = .ok d := by
  obtain ⟨place, hlocate, hget⟩ := node_eq_ok.1 (isDirectory_iff.1 h)
  have hmake : d.makeDir path = .error .occupied := by
    have hoccupied : d.nodes.contains place = true := by
      rw [SortedMap.contains, hget]
      rfl
    unfold makeDir
    rw [hslashes, hlocate]
    exact if_pos hoccupied
  rw [ensureDir, hmake]
  exact if_pos h

/-- Whatever the creation of one directory keeps, that of several keeps. -/
theorem ensureDirs_keeps {P : Folder → Prop}
    (hP : ∀ d path d', P d → makeDir d path = .ok d' → P d') (h : P d) (paths : List FolderPath) :
    P (d.ensureDirs paths).2 := by
  have hone : ∀ {d d' path}, P d → ensureDir d path = .ok d' → P d' := by
    intro d d' path h hmake
    unfold ensureDir at hmake
    split at hmake
    · next hdone => exact hP d path d' h (Except.ok.inj hmake ▸ hdone)
    · split at hmake
      · exact Except.ok.inj hmake ▸ h
      · cases hmake
  induction paths with
  | nil => exact h
  | cons path above ih =>
    unfold ensureDirs
    split
    · next hdone => exact hone h hdone
    · split
      · next heq =>
        rw [heq] at ih
        exact ih
      · next heq =>
        rw [heq] at ih
        split
        · next hdone => exact hone ih hdone
        · exact ih
    · exact h

theorem makeParents_keeps {P : Folder → Prop}
    (hP : ∀ d path d', P d → makeDir d path = .ok d' → P d') (h : P d) (path : FolderPath) :
    P (d.makeParents path).2 := by
  unfold makeParents
  split
  · exact ensureDirs_keeps hP h _
  · exact h

/-- **Creating directories** leaves everything where it is. -/
theorem turns_makeParents (h : d.Tree) (path : FolderPath) : d.Turns S (d.makeParents path).2 :=
  makeParents_keeps (P := d.Turns S) (fun _ _ _ hd hmake => hd.trans (turns_makeDir hd.tree hmake))
    (.refl h) path

/-! ### Files -/

/-- What writing a file does. -/
theorem write_eq_ok (hwrite : d.write path held = .ok d') :
    ∃ place, d.locate path = .ok place ∧ d.nodes.get? place ≠ some .directory ∧
      d' = { d with nodes := d.nodes.insert place held } := by
  obtain ⟨place, hlocate, hwrite⟩ := Except.bind_eq_ok.1 hwrite
  refine ⟨place, hlocate, ?_⟩
  split at hwrite
  · cases hwrite
  · next hfile => exact ⟨hfile, (Except.ok.inj hwrite).symm⟩

/-- **Writing a file** changes nothing but files of its name. -/
theorem turns_write (h : d.Tree) (hwrite : d.write path held = .ok d')
    (hname : ∀ name, path.getLast? = some name → S name) : d.Turns S d' := by
  obtain ⟨place, hlocate, hfile, rfl⟩ := write_eq_ok hwrite
  obtain ⟨around, name, rfl, hlast, hdir⟩ := h.exists_of_locate hlocate hfile
  exact h.turns_insert hdir hfile (.inr (hname name hlast)) held

/-- A file that was written is found. -/
theorem node_write (h : d.Tree) (hwrite : d.write path held = .ok d') :
    d'.node path = .ok held := by
  have hturns := turns_write (S := fun _ => True) h hwrite fun _ _ => trivial
  obtain ⟨place, hlocate, -, rfl⟩ := write_eq_ok hwrite
  exact node_eq_ok.2 ⟨place, hturns.locate hlocate, SortedMap.get?_insert_self ..⟩

theorem read_eq_ok : d.read path = .ok held ↔ d.node path = .ok held ∧ held ≠ .directory := by
  unfold read
  rw [Except.bind_eq_ok]
  constructor
  · rintro ⟨found, hnode, hread⟩
    split at hread
    · cases hread
    · next hfile => exact Except.ok.inj hread ▸ ⟨hnode, hfile⟩
  · rintro ⟨hnode, hfile⟩
    refine ⟨held, hnode, ?_⟩
    split
    · exact absurd rfl hfile
    · rfl

/-- What moving a file does. -/
theorem rename_eq_ok {source target : FolderPath} (hrename : d.rename source target = .ok d') :
    ∃ held former next, d.node source = .ok held ∧ held ≠ .directory ∧
      d.locate source = .ok former ∧ d.write target held = .ok next ∧
      (d.locate target = .ok former ∧ d' = d ∨
        d.locate target ≠ .ok former ∧ d' = { next with nodes := next.nodes.erase former }) := by
  obtain ⟨held, hread, hrename⟩ := Except.bind_eq_ok.1 hrename
  obtain ⟨former, hformer, hrename⟩ := Except.bind_eq_ok.1 hrename
  obtain ⟨next, hnext, hrename⟩ := Except.bind_eq_ok.1 hrename
  obtain ⟨place, hplace, hrename⟩ := Except.bind_eq_ok.1 hrename
  obtain ⟨hnode, hfile⟩ := read_eq_ok.1 hread
  refine ⟨held, former, next, hnode, hfile, hformer, hnext, ?_⟩
  rw [hplace, Except.ok.injEq, ← Except.ok.inj hrename]
  split
  · next heq => exact .inl ⟨heq, rfl⟩
  · next hne => exact .inr ⟨fun e => hne (Except.ok.inj e), rfl⟩

/-- **Moving a file** changes nothing but files of its two names; it is found under its new path. -/
theorem turns_rename (h : d.Tree) {source target : FolderPath}
    (hrename : d.rename source target = .ok d')
    (hsource : ∀ name, source.getLast? = some name → S name)
    (htarget : ∀ name, target.getLast? = some name → S name) :
    d.Turns S d' ∧ ∀ held, d.node source = .ok held → d'.node target = .ok held := by
  obtain ⟨held, former, next, hnode, hfile, hformer, hnext, hcases⟩ := rename_eq_ok hrename
  obtain ⟨place, hplace, hget, hget', hlast⟩ := h.exists_of_node hnode hfile
  obtain rfl : place = former := Except.ok.inj (hplace.symm.trans hformer)
  suffices hfound : d.Turns S d' ∧ d'.node target = .ok held from
    ⟨hfound.1, fun other hother => Except.ok.inj (hnode.symm.trans hother) ▸ hfound.2⟩
  rcases hcases with ⟨hsame, rfl⟩ | ⟨hother, rfl⟩
  · exact ⟨.refl h, node_eq_ok.2 ⟨place, hsame, hget⟩⟩
  · have hturns := turns_write h hnext htarget
    obtain ⟨goal, hgoal, -, rfl⟩ := write_eq_ok hnext
    have hne : place ≠ goal := fun e => hother (e ▸ hgoal)
    have hget'' : (d.nodes.insert goal held).get? place ≠ some .directory := by
      rwa [SortedMap.get?_insert, if_neg hne]
    have hall := hturns.trans
      (hturns.tree.turns_erase hget'' fun own hown => hsource own (hlast.trans hown))
    refine ⟨hall, node_eq_ok.2 ⟨goal, hall.locate hgoal, ?_⟩⟩
    show ((d.nodes.insert goal held).erase place).get? goal = _
    rw [SortedMap.get?_erase, if_neg hne.symm, SortedMap.get?_insert_self]

/-- **Discarding a file** changes nothing but files of its name. -/
theorem turns_discardFile (h : d.Tree) (hname : ∀ name, path.getLast? = some name → S name) :
    d.Turns S (d.discardFile path) := by
  unfold discardFile
  split
  · next hremove =>
    obtain ⟨held, hread, hremove⟩ := Except.bind_eq_ok.1 hremove
    obtain ⟨place, hplace, hremove⟩ := Except.bind_eq_ok.1 hremove
    cases hremove
    obtain ⟨hnode, hfile⟩ := read_eq_ok.1 hread
    obtain ⟨place', hplace', -, hget, hlast⟩ := h.exists_of_node hnode hfile
    obtain rfl : place' = place := Except.ok.inj (hplace'.symm.trans hplace)
    exact h.turns_erase hget fun own hown => hname own (hlast.trans hown)
  · exact .refl h

/-- Leaving out files leaves the tree as it is. -/
theorem Tree.withoutExtension (h : d.Tree) (ext : String) : (d.withoutExtension ext).Tree := by
  have hdirs : ∀ place, d.nodes.get? place = some .directory →
      (d.withoutExtension ext).nodes.get? place = some .directory := by
    intro place hget
    rw [Folder.withoutExtension, SortedMap.get?_filter, hget]
    rfl
  refine ⟨hdirs [] h.root, fun place name found hget => hdirs place ?_⟩
  rw [Folder.withoutExtension, SortedMap.get?_filter] at hget
  exact h.around place name found (Option.filter_eq_some_iff.1 hget).1

/-! ### New files -/

/-- **A folder has become another one** in which all files are old, but for those at some places. -/
def Adds (P : Place → Prop) (d d' : Folder) : Prop :=
  ∀ place node, d'.nodes.get? place = some node → node ≠ .directory →
    d.nodes.get? place = some node ∨ P place

section Adds

variable {P Q : Place → Prop}

theorem Adds.refl (d : Folder) : d.Adds P d := fun _ _ hget _ => .inl hget

theorem Adds.trans (h : d.Adds P d') (h' : d'.Adds P d'') : d.Adds P d'' := by
  intro place node hget hfile
  rcases h' place node hget hfile with hget' | hnew
  · exact h place node hget' hfile
  · exact .inr hnew

theorem Adds.mono (h : d.Adds P d') (hPQ : ∀ place, P place → Q place) : d.Adds Q d' :=
  fun place node hget hfile => (h place node hget hfile).imp_right (hPQ place)

theorem adds_insert (d : Folder) (place : Place) (held : FolderNode)
    (hplace : held ≠ .directory → P place) :
    d.Adds P { d with nodes := d.nodes.insert place held } := by
  intro other node hget hfile
  change (d.nodes.insert place held).get? other = some node at hget
  rw [SortedMap.get?_insert] at hget
  split at hget
  · next hsame =>
    cases hget
    exact .inr (hsame ▸ hplace hfile)
  · exact .inl hget

theorem adds_erase (d : Folder) (place : Place) :
    d.Adds P { d with nodes := d.nodes.erase place } := by
  intro other node hget _
  change (d.nodes.erase place).get? other = some node at hget
  rw [SortedMap.get?_erase] at hget
  split at hget
  · cases hget
  · exact .inl hget

theorem adds_makeDir (hmake : d.makeDir path = .ok d') : d.Adds P d' := by
  obtain ⟨place, -, hmake⟩ := Except.bind_eq_ok.1 hmake
  split at hmake
  · cases hmake
  · cases hmake
    exact adds_insert d place .directory fun hfile => absurd rfl hfile

/-- **Creating directories** adds no file. -/
theorem adds_makeParents (d : Folder) (path : FolderPath) : d.Adds P (d.makeParents path).2 :=
  makeParents_keeps (P := d.Adds P) (fun _ _ _ hd hmake => hd.trans (adds_makeDir hmake))
    (.refl d) path

/-- **Writing a file** adds one at its path. -/
theorem adds_write (hwrite : d.write path held = .ok d') :
    d.Adds (fun place => d.locate path = .ok place) d' := by
  obtain ⟨place, hlocate, -, rfl⟩ := write_eq_ok hwrite
  exact adds_insert d place held fun _ => hlocate

/-- The file has the name that the path ends in. -/
theorem Tree.adds_write_name (h : d.Tree) (hwrite : d.write path held = .ok d') :
    d.Adds (fun place => ∃ name, place.getLast? = some name ∧ path.getLast? = some name) d' := by
  obtain ⟨place, hlocate, hfile, rfl⟩ := write_eq_ok hwrite
  obtain ⟨around, name, rfl, hlast, -⟩ := h.exists_of_locate hlocate hfile
  exact adds_insert d _ held fun _ => ⟨name, List.getLast?_concat, hlast⟩

/-- **Moving a file** adds one at its new path. -/
theorem adds_rename {source target : FolderPath} (hrename : d.rename source target = .ok d') :
    d.Adds (fun place => d.locate target = .ok place) d' := by
  obtain ⟨held, former, next, -, -, -, hnext, hcases⟩ := rename_eq_ok hrename
  rcases hcases with ⟨-, rfl⟩ | ⟨-, rfl⟩
  · exact .refl _
  · exact (adds_write hnext).trans (adds_erase next former)

/-- The file has the name that its new path ends in. -/
theorem Tree.adds_rename_name (h : d.Tree) {source target : FolderPath}
    (hrename : d.rename source target = .ok d') :
    d.Adds (fun place => ∃ name, place.getLast? = some name ∧ target.getLast? = some name) d' := by
  obtain ⟨held, former, next, -, -, -, hnext, hcases⟩ := rename_eq_ok hrename
  rcases hcases with ⟨-, rfl⟩ | ⟨-, rfl⟩
  · exact .refl _
  · exact (h.adds_write_name hnext).trans (adds_erase next former)

/-- **Discarding a file** adds none. -/
theorem adds_discardFile (d : Folder) (path : FolderPath) : d.Adds P (d.discardFile path) := by
  unfold discardFile
  split
  · next hremove =>
    obtain ⟨held, -, hremove⟩ := Except.bind_eq_ok.1 hremove
    obtain ⟨place, -, hremove⟩ := Except.bind_eq_ok.1 hremove
    cases hremove
    exact adds_erase d place
  · exact .refl d

/-- **A file that was discarded** is gone. -/
theorem get?_discardFile (hlocate : d.locate path = .ok place) {node : FolderNode}
    (hget : d.nodes.get? place = some node) (hfile : node ≠ .directory) :
    (d.discardFile path).nodes.get? place = none := by
  have hread : d.read path = .ok node := read_eq_ok.2 ⟨node_eq_ok.2 ⟨place, hlocate, hget⟩, hfile⟩
  have hremove : d.removeFile path = .ok { d with nodes := d.nodes.erase place } :=
    Except.bind_eq_ok.2 ⟨node, hread, Except.bind_eq_ok.2 ⟨place, hlocate, rfl⟩⟩
  unfold discardFile
  rw [hremove]
  exact (SortedMap.get?_erase ..).trans (if_pos rfl)

end Adds

/-! ### Plain paths -/

/-- A name that leads on, if anywhere. -/
def IsPlainName (name : String) : Prop := FolderPath.isBlank name = false ∧ name ≠ ".."

theorem follow_eq_ok_of_plain {name : String} (hname : IsPlainName name) {next : Place}
    (h : d.follow place name = .ok next) : next = place ++ [name] := by
  unfold follow at h
  split at h
  · cases h
  · rw [hname.1, if_neg Bool.false_ne_true, if_neg hname.2] at h
    split at h
    · cases h
    · exact (Except.ok.inj h).symm
  · cases h

/-- **A path of names that lead on** leads to the place of these names. -/
theorem eq_of_locate (hplain : ∀ name ∈ path, IsPlainName name)
    (hlocate : d.locate path = .ok place) : place = path := by
  have hfollow : ∀ (path before : List String), (∀ name ∈ path, IsPlainName name) →
      path.foldlM d.follow before = .ok place → place = before ++ path := by
    intro path
    induction path with
    | nil =>
      intro before _ h
      rw [List.append_nil]
      exact (Except.ok.inj h).symm
    | cons name path ih =>
      intro before hplain h
      rw [List.foldlM_cons] at h
      obtain ⟨next, hnext, hrest⟩ := Except.bind_eq_ok.1 h
      obtain rfl := follow_eq_ok_of_plain (hplain name List.mem_cons_self) hnext
      rw [ih _ (fun other hother => hplain other (List.mem_cons_of_mem _ hother)) hrest,
        List.append_assoc]
      rfl
  exact hfollow path [] hplain (foldlM_of_locate hlocate)

theorem mem_files : place ∈ d.files ↔
    ∃ node, d.nodes.get? place = some node ∧ isFile place node = true := by
  unfold files
  rw [List.mem_filterMap]
  constructor
  · rintro ⟨⟨other, node⟩, hmem, hfile⟩
    dsimp only at hfile
    split at hfile
    · next hisFile =>
      cases hfile
      exact ⟨node, SortedMap.mem_toList.1 hmem, hisFile⟩
    · cases hfile
  · rintro ⟨node, hget, hisFile⟩
    exact ⟨(place, node), SortedMap.mem_toList.2 hget, if_pos hisFile⟩

/-! ### Empty folders -/

/-- In an empty folder there are but the home and the directories that it lies in. -/
theorem eq_directory_of_empty (hget : ({} : Folder).nodes.get? place = some held) :
    held = .directory := by
  have hmem := SortedMap.mem_toList.2 hget
  have hlist : ({} : Folder).nodes.toList =
      [([], .directory), (["tmp"], .directory), (FolderPath.home, .directory)] := rfl
  rw [hlist] at hmem
  simp only [List.mem_cons, Prod.mk.injEq, List.not_mem_nil, or_false] at hmem
  rcases hmem with h | h | h <;> exact h.2

theorem tree_empty : ({} : Folder).Tree where
  root := rfl
  around place name held hget := by
    have hmem := SortedMap.mem_toList.2 hget
    have hlist : ({} : Folder).nodes.toList =
        [([], .directory), (["tmp"], .directory),
          (["tmp"] ++ [FolderPath.homeName], .directory)] := rfl
    rw [hlist] at hmem
    simp only [List.mem_cons, Prod.mk.injEq, List.not_mem_nil, or_false] at hmem
    rcases hmem with h | h | h
    · exact absurd h.1 (List.append_ne_nil_of_right_ne_nil _ (List.cons_ne_nil _ _))
    · have hplace : place ++ [name] = [] ++ ["tmp"] := h.1
      rw [(List.append_inj' hplace rfl).1]
      rfl
    · rw [(List.append_inj' h.1 rfl).1]
      rfl

end RetailReport.Folder
