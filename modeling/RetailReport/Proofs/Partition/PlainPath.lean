import RetailReport.Proofs.Partition.Folder

/-!
# Paths that lead straight on

A path of names that lead on and are not too long comes to the place of its own names, as long as
there are directories on the way.  Directories that are missing on a clear way can be created, those
that are there are left alone, and a file can be placed in a directory by way of a draft beside it.

## Main definitions

* `Folder.Fits`: a path is not too long, nor any of its names.
* `Folder.Clear`: no file stands on a way.

## Main results

* `FolderPath.exists_withExtension_eq`: where the draft of a file is.
* `Folder.locate_of_fits`, `Folder.locate_of_missing`, `Folder.locate_of_not_fits`: where such a path
  leads to.
* `Folder.makeDirs_of_clear`, `Folder.makeDirs_of_directory`: creating directories.
* `Folder.exists_placed`: placing a file.
-/

namespace RetailReport

namespace FolderPath

open Folder (IsPlainName)

variable {path around : FolderPath} {name : String}

theorem withoutSlashes_of_plain (hplain : ∀ name ∈ path, IsPlainName name) :
    withoutSlashes path = path := by
  rcases List.eq_nil_or_concat path with rfl | ⟨around, name, rfl⟩
  · rfl
  · have hname : name ≠ "" := by
      rintro rfl
      exact absurd (hplain "" (by simp)).1 (by decide)
    simp [withoutSlashes, hname]

theorem trimmed_of_plain (hplain : ∀ name ∈ path, IsPlainName name) : trimmed path = path := by
  rcases List.eq_nil_or_concat path with rfl | ⟨around, name, rfl⟩
  · rfl
  · have hname := (hplain name (by simp)).1
    simp [trimmed, hname]

theorem above_reverse_concat (hplain : ∀ other ∈ around ++ [name], IsPlainName other) :
    above (around ++ [name]).reverse = ancestors around := by
  have hname := (hplain name (by simp)).1
  have haround : trimmed around = around :=
    trimmed_of_plain fun other hother => hplain other (List.mem_append_left _ hother)
  rw [List.reverse_append, List.reverse_singleton, List.singleton_append, above, hname,
    if_neg Bool.false_ne_true, List.reverse_reverse, haround, ancestors]

theorem ancestors_concat (hplain : ∀ other ∈ around ++ [name], IsPlainName other) :
    ancestors (around ++ [name]) = (around ++ [name]) :: ancestors around := by
  rw [ancestors, above_reverse_concat hplain]

theorem parent?_concat (hplain : ∀ other ∈ around ++ [name], IsPlainName other) :
    parent? (around ++ [name]) = some around := by
  rw [parent?, above_reverse_concat hplain, ancestors, List.head?_cons]

theorem size_concat (around : FolderPath) (name : String) :
    size (around ++ [name]) = size around + 1 + name.utf8ByteSize := by
  simp [size, List.foldl_append]

theorem fileName?_concat (hname : IsPlainName name) :
    fileName? (around ++ [name]) = some name := by
  have htrimmed : trimmed (around ++ [name]) = around ++ [name] := by simp [trimmed, hname.1]
  rw [fileName?, htrimmed, List.getLast?_concat]
  exact if_neg hname.2

theorem replaceExtension_concat (hname : IsPlainName name) (ext : String) :
    replaceExtension (around ++ [name]) ext = around ++ [(splitName name).1 ++ "." ++ ext] := by
  have htrimmed : trimmed (around ++ [name]) = around ++ [name] := by simp [trimmed, hname.1]
  rw [replaceExtension, fileName?_concat hname]
  simp only [htrimmed, List.dropLast_concat]

/-- What is left of a name without its extension is longer than a point. -/
theorem length_of_extension? {former : String} (h : extension? name = some former) :
    former.length + 2 ≤ name.length := by
  unfold extension? splitName at h
  simp only at h
  split at h
  · next hsplit =>
    obtain ⟨hshort, hbefore⟩ := hsplit
    have hlength := List.length_pos_iff.2 hbefore
    rw [List.length_take] at hlength
    have hformer := congrArg String.length (Option.some.inj h)
    rw [String.length_ofList] at hformer
    omega
  · cases h

/-- **The draft of a file** with a plain path stands beside it, under a name that ends as those of
drafts do, unless that name leads back. -/
theorem exists_withExtension_eq (hname : IsPlainName name)
    (hdraft : ∀ other ∈ withExtension (around ++ [name]) "tmp", IsPlainName other) :
    ∃ stem, withExtension (around ++ [name]) "tmp" = around ++ [stem ++ ".tmp"] := by
  have hreplace : ∀ {last : String}, IsPlainName last →
      ∃ stem, replaceExtension (around ++ [last]) "tmp" = around ++ [stem ++ ".tmp"] := by
    intro last hlast
    refine ⟨(splitName last).1, ?_⟩
    rw [replaceExtension_concat hlast, String.append_assoc]
    rfl
  unfold withExtension at hdraft ⊢
  rw [fileName?_concat hname, Option.bind_some] at hdraft ⊢
  cases hformer : extension? name with
  | none => exact hreplace hname
  | some former =>
    rw [hformer] at hdraft
    have hlength := length_of_extension? hformer
    obtain ⟨last, hlast⟩ : ∃ last : String, last = String.ofList
        (name.toList.take (name.length - former.length)) := ⟨_, rfl⟩
    have hdropped : (dropChars former.length (around ++ [name]).reverse).reverse =
        around ++ [last] := by
      rw [List.reverse_append, List.reverse_singleton, List.singleton_append, dropChars,
        if_pos (by omega), List.reverse_cons, List.reverse_reverse, hlast]
    have hlong : 2 ≤ last.length := by
      rw [hlast, String.length_ofList, List.length_take, String.length_toList]
      omega
    have hblank : isBlank last = false := by
      rw [isBlank, Bool.or_eq_false_iff, decide_eq_false_iff_not, decide_eq_false_iff_not]
      constructor <;> rintro rfl <;> exact absurd hlong (by decide)
    simp only [hdropped] at hdraft ⊢
    by_cases hback : last = ".."
    · -- Such a draft would lead back.
      have hsame : replaceExtension (around ++ [last]) "tmp" = around ++ [last] := by
        have htrimmed : trimmed (around ++ [last]) = around ++ [last] := by simp [trimmed, hblank]
        rw [replaceExtension, fileName?, htrimmed, List.getLast?_concat]
        simp only [hback, if_true]
      rw [hsame] at hdraft
      exact absurd hback (hdraft last (by simp)).2
    · exact hreplace ⟨hblank, hback⟩

end FolderPath

namespace Folder

variable {d d' : Folder} {path around : FolderPath} {name : String} {place : Place} {S : String → Prop}

/-- **A path fits** if it is not too long, nor any of its names, and no null character is in it. -/
structure Fits (path : FolderPath) : Prop where
  /-- The names. -/
  names : ∀ name ∈ path, '\x00' ∉ name.toList ∧ name.utf8ByteSize ≤ maxName
  /-- The whole path. -/
  size : FolderPath.size path ≤ maxPath

/-- **The way is clear** if no file stands on it. -/
def Clear (d : Folder) (path : FolderPath) : Prop :=
  ∀ place, place <+: path → ∀ node, d.nodes.get? place = some node → node = .directory

theorem Fits.of_concat (h : Fits (around ++ [name])) : Fits around := by
  refine ⟨fun other hother => h.names other (List.mem_append_left _ hother), ?_⟩
  have hsize := h.size
  rw [FolderPath.size_concat] at hsize
  omega

theorem Clear.of_concat (h : d.Clear (around ++ [name])) : d.Clear around :=
  fun place hplace => h place (hplace.trans (List.prefix_append _ _))

/-- A directory lies in a directory. -/
theorem Tree.dropLast (h : d.Tree) (hdir : d.nodes.get? place = some .directory) :
    d.nodes.get? place.dropLast = some .directory := by
  rcases List.eq_nil_or_concat place with rfl | ⟨around, name, rfl⟩
  · exact hdir
  · rw [List.concat_eq_append] at hdir ⊢
    rw [List.dropLast_concat]
    exact h.around _ _ _ hdir

/-- What a directory lies in are directories. -/
theorem Tree.get?_of_prefix (h : d.Tree) (hdir : d.nodes.get? path = some .directory)
    (hplace : place <+: path) : d.nodes.get? place = some .directory := by
  induction path using List.reverseRecOn with
  | nil => rwa [List.prefix_nil.1 hplace]
  | append_singleton around name ih =>
    rcases List.prefix_concat_iff.1 hplace with rfl | hplace
    · exact hdir
    · exact ih (h.around _ _ _ hdir) hplace

/-- Where a name leads on to. -/
theorem follow_of_plain (hname : IsPlainName name) (hdir : d.nodes.get? place = some .directory) :
    d.follow place name =
      if maxName < name.utf8ByteSize then .error .tooLong else .ok (place ++ [name]) := by
  unfold follow
  rw [hdir]
  simp only [hname.1, hname.2, Bool.false_eq_true, if_false]

/-- A plain path leads to a place in a directory. -/
theorem foldlM_follow_of_directory (h : d.Tree) (hplain : ∀ name ∈ path, IsPlainName name)
    (hfits : ∀ name ∈ path, name.utf8ByteSize ≤ maxName)
    (hdir : d.nodes.get? path.dropLast = some .directory) : path.foldlM d.follow [] = .ok path := by
  induction path using List.reverseRecOn with
  | nil => rfl
  | append_singleton around name ih =>
    rw [List.dropLast_concat] at hdir
    have hleads := ih (fun other hother => hplain other (List.mem_append_left _ hother))
      (fun other hother => hfits other (List.mem_append_left _ hother)) (h.dropLast hdir)
    have hname : name.utf8ByteSize ≤ maxName := hfits name (by simp)
    refine (List.foldlM_append_eq_ok ..).2 ⟨around, hleads, ?_⟩
    rw [List.foldlM_cons, follow_of_plain (hplain name (by simp)) hdir, if_neg (by omega)]
    rfl

/-- On a clear way a plain path leads nowhere for want of directories only. -/
theorem foldlM_follow_of_missing (h : d.Tree) (hplain : ∀ name ∈ path, IsPlainName name)
    (hfits : ∀ name ∈ path, name.utf8ByteSize ≤ maxName) (hclear : d.Clear path.dropLast)
    (hmissing : d.nodes.get? path.dropLast = none) :
    path.foldlM d.follow [] = .error .notFound := by
  induction path using List.reverseRecOn with
  | nil =>
    rw [List.dropLast_nil, h.root] at hmissing
    cases hmissing
  | append_singleton around name ih =>
    rw [List.dropLast_concat] at hclear hmissing
    have hplain' : ∀ other ∈ around, IsPlainName other :=
      fun other hother => hplain other (List.mem_append_left _ hother)
    have hfits' : ∀ other ∈ around, other.utf8ByteSize ≤ maxName :=
      fun other hother => hfits other (List.mem_append_left _ hother)
    have hprefix : around.dropLast <+: around := List.dropLast_prefix around
    rw [List.foldlM_append]
    cases haround : d.nodes.get? around.dropLast with
    | none =>
      rw [ih hplain' hfits' (fun place hplace => hclear place (hplace.trans hprefix)) haround]
      rfl
    | some node =>
      -- The way ends just before the last name.
      obtain rfl := hclear _ hprefix node haround
      rw [foldlM_follow_of_directory h hplain' hfits' haround]
      show (List.foldlM d.follow around [name]) = _
      rw [List.foldlM_cons, follow, hmissing]
      rfl

theorem locate_eq_of_fits (hfits : Fits path) : d.locate path = path.foldlM d.follow [] := by
  have hnull : (path.any fun name => name.toList.contains '\x00') = false := by
    rw [List.any_eq_false]
    intro name hname
    rw [Bool.not_eq_true, List.contains_eq_mem, decide_eq_false_iff_not]
    exact (hfits.names name hname).1
  unfold locate
  rw [hnull, if_neg Bool.false_ne_true, if_neg (Nat.not_lt.2 hfits.size)]

/-- **A plain path that fits** leads to the place of its names, out of a directory. -/
theorem locate_of_fits (h : d.Tree) (hplain : ∀ name ∈ path, IsPlainName name) (hfits : Fits path)
    (hdir : d.nodes.get? path.dropLast = some .directory) : d.locate path = .ok path := by
  rw [locate_eq_of_fits hfits]
  exact foldlM_follow_of_directory h hplain (fun name hname => (hfits.names name hname).2) hdir

theorem locate_of_missing (h : d.Tree) (hplain : ∀ name ∈ path, IsPlainName name)
    (hfits : Fits path) (hclear : d.Clear path.dropLast)
    (hmissing : d.nodes.get? path.dropLast = none) : d.locate path = .error .notFound := by
  rw [locate_eq_of_fits hfits]
  exact foldlM_follow_of_missing h hplain (fun name hname => (hfits.names name hname).2) hclear
    hmissing

/-- A plain path that does not fit leads nowhere, and not for want of directories. -/
theorem locate_of_not_fits (h : d.Tree) (hplain : ∀ other ∈ around ++ [name], IsPlainName other)
    (hfits : Fits around) (hdir : d.nodes.get? around = some .directory)
    (hnot : ¬Fits (around ++ [name])) :
    ∃ cause, cause ≠ .notFound ∧ d.locate (around ++ [name]) = .error cause := by
  unfold locate
  split
  · exact ⟨.nullCharacter, nofun, rfl⟩
  · next hnull =>
    split
    · exact ⟨.tooLong, nofun, rfl⟩
    · next hsize =>
      -- What does not fit can only be the last name.
      have hlong : maxName < name.utf8ByteSize := by
        by_contra hshort
        refine hnot ⟨fun other hother => ?_, Nat.not_lt.1 hsize⟩
        rcases List.mem_append.1 hother with hold | hlast
        · exact hfits.names other hold
        · obtain rfl := List.mem_singleton.1 hlast
          refine ⟨fun hzero => hnull ?_, Nat.not_lt.1 hshort⟩
          rw [List.any_eq_true]
          exact ⟨other, hother, List.elem_eq_true_of_mem hzero⟩
      refine ⟨.tooLong, nofun, ?_⟩
      rw [List.foldlM_append, foldlM_follow_of_directory h
        (fun other hother => hplain other (List.mem_append_left _ hother))
        (fun other hother => (hfits.names other hother).2) (h.dropLast hdir)]
      show List.foldlM d.follow around [name] = _
      rw [List.foldlM_cons, follow_of_plain (hplain name (by simp)) hdir, if_pos hlong]
      rfl

/-! ### Creating directories -/

/-- A directory that is there need not be created. -/
theorem ensureDir_of_directory (h : d.Tree) (hplain : ∀ name ∈ path, IsPlainName name)
    (hfits : Fits path) (hdir : d.nodes.get? path = some .directory) : d.ensureDir path = .ok d := by
  have hlocate : d.locate path = .ok path := locate_of_fits h hplain hfits (h.dropLast hdir)
  exact ensureDir_of_isDirectory (FolderPath.withoutSlashes_of_plain hplain)
    (isDirectory_iff.2 (node_eq_ok.2 ⟨path, hlocate, hdir⟩))

/-- What becomes of a directory that cannot even be located. -/
theorem ensureDir_of_locate_error (hplain : ∀ name ∈ path, IsPlainName name) {cause : FolderError}
    (hlocate : d.locate path = .error cause) : d.ensureDir path = .error cause := by
  have hmake : d.makeDir path = .error cause := by
    unfold makeDir
    rw [FolderPath.withoutSlashes_of_plain hplain, hlocate]
    rfl
  have hisDirectory : d.isDirectory path = false := by
    rw [isDirectory, node, hlocate]
    rfl
  rw [ensureDir, hmake]
  exact if_neg (Bool.eq_false_iff.1 hisDirectory)

/-- A directory is created in another one. -/
theorem ensureDir_of_free (h : d.Tree) (hplain : ∀ name ∈ path, IsPlainName name)
    (hfits : Fits path) (hdir : d.nodes.get? path.dropLast = some .directory)
    (hfree : d.nodes.get? path = none) :
    d.ensureDir path = .ok { d with nodes := d.nodes.insert path .directory } := by
  have hvacant : d.nodes.contains path = false := by
    rw [SortedMap.contains, hfree]
    rfl
  unfold ensureDir makeDir
  rw [FolderPath.withoutSlashes_of_plain hplain, locate_of_fits h hplain hfits hdir]
  simp only [bind, Except.bind, hvacant, Bool.false_eq_true, if_false]
  rfl

/-- With the others there, the last directory on a path is the only one to be created. -/
theorem exists_ensureDir (h : d.Tree) (hplain : ∀ other ∈ around ++ [name], IsPlainName other)
    (hfits : Fits (around ++ [name])) (haround : d.nodes.get? around = some .directory)
    (hfree : d.nodes.get? (around ++ [name]) = none) :
    ∃ d', d.ensureDir (around ++ [name]) = .ok d' ∧ ∀ place, d'.nodes.get? place =
      if place <+: around ++ [name] then some .directory else d.nodes.get? place := by
  have hdir : d.nodes.get? (around ++ [name]).dropLast = some .directory := by
    rwa [List.dropLast_concat]
  refine ⟨_, ensureDir_of_free h hplain hfits hdir hfree, fun place => ?_⟩
  show (d.nodes.insert _ _).get? place = _
  rw [SortedMap.get?_insert]
  simp only [List.prefix_concat_iff]
  by_cases heq : place = around ++ [name]
  · rw [if_pos heq, if_pos (.inl heq)]
  · rw [if_neg heq]
    split
    · next hplace => exact h.get?_of_prefix haround (hplace.resolve_left heq)
    · rfl

theorem turns_makeDirs (h : d.Tree) (path : FolderPath) : d.Turns S (d.makeDirs path).2 :=
  ensureDirs_keeps (P := d.Turns S) (fun _ _ _ hd hmake => hd.trans (turns_makeDir hd.tree hmake))
    (.refl h) _

/-- **Directories on a clear way** are created as far as they are missing. -/
theorem makeDirs_of_clear (h : d.Tree) (hplain : ∀ name ∈ path, IsPlainName name)
    (hfits : Fits path) (hclear : d.Clear path) : ∃ d', d.makeDirs path = (.ok (), d') ∧
      ∀ place, d'.nodes.get? place =
        if place <+: path then some .directory else d.nodes.get? place := by
  induction path using List.reverseRecOn with
  | nil =>
    refine ⟨d, ?_, fun place => ?_⟩
    · have hroot : d.ensureDir [] = .ok d := ensureDir_of_directory h hplain hfits h.root
      rw [makeDirs, FolderPath.ancestors, ensureDirs, hroot]
    · split
      · next hplace =>
        rw [List.prefix_nil.1 hplace]
        exact h.root
      · rfl
  | append_singleton around name ih =>
    have hplain' : ∀ other ∈ around, IsPlainName other :=
      fun other hother => hplain other (List.mem_append_left _ hother)
    rw [makeDirs, FolderPath.ancestors_concat hplain, ensureDirs]
    -- The directories are created from the outermost on, so the path itself comes last.
    cases hpath : d.nodes.get? (around ++ [name]) with
    | some node =>
      obtain rfl := hclear _ (List.prefix_refl _) node hpath
      rw [ensureDir_of_directory h hplain hfits hpath]
      refine ⟨d, rfl, fun place => ?_⟩
      split
      · next hplace => exact h.get?_of_prefix hpath hplace
      · rfl
    | none =>
      cases haround : d.nodes.get? around with
      | some node =>
        obtain rfl := hclear _ (List.prefix_append _ _) node haround
        obtain ⟨d', hmade, hget⟩ := exists_ensureDir h hplain hfits haround hpath
        exact ⟨d', by rw [hmade], hget⟩
      | none =>
        have hmissing : d.locate (around ++ [name]) = .error .notFound := by
          apply locate_of_missing h hplain hfits
          · rw [List.dropLast_concat]
            exact hclear.of_concat
          · rwa [List.dropLast_concat]
        obtain ⟨d₁, hmade, hget⟩ := ih hplain' hfits.of_concat hclear.of_concat
        have htree : d₁.Tree := by
          have hturns := turns_makeDirs (S := fun _ => False) h around
          rw [hmade] at hturns
          exact hturns.tree
        have hfree : d₁.nodes.get? (around ++ [name]) = none := by
          rw [hget, if_neg, hpath]
          intro hplace
          have hlength := hplace.length_le
          rw [List.length_append, List.length_singleton] at hlength
          omega
        have hthere : d₁.nodes.get? around = some .directory := by
          rw [hget, if_pos (List.prefix_refl _)]
        obtain ⟨d', hmade', hget'⟩ := exists_ensureDir htree hplain hfits hthere hfree
        rw [makeDirs] at hmade
        refine ⟨d', ?_, fun place => ?_⟩
        · rw [ensureDir_of_locate_error hplain hmissing, hmade]
          simp only [hmade']
        · rw [hget', hget]
          split
          · rfl
          · next hplace =>
            rw [if_neg fun hplace' => hplace (hplace'.trans (List.prefix_append _ _))]

/-- Directories that are there need not be created. -/
theorem makeDirs_of_directory (h : d.Tree) (hplain : ∀ name ∈ path, IsPlainName name)
    (hfits : Fits path) (hdir : d.nodes.get? path = some .directory) :
    d.makeDirs path = (.ok (), d) := by
  rw [makeDirs, FolderPath.ancestors, ensureDirs, ensureDir_of_directory h hplain hfits hdir]

/-- A directory whose path does not fit is not created. -/
theorem makeDirs_of_not_fits (h : d.Tree) (hplain : ∀ other ∈ around ++ [name], IsPlainName other)
    (hfits : Fits around) (hdir : d.nodes.get? around = some .directory)
    (hnot : ¬Fits (around ++ [name])) :
    ∃ cause, d.makeDirs (around ++ [name]) = (.error cause, d) := by
  obtain ⟨cause, hcause, hlocate⟩ := locate_of_not_fits h hplain hfits hdir hnot
  refine ⟨cause, ?_⟩
  rw [makeDirs, FolderPath.ancestors, ensureDirs, ensureDir_of_locate_error hplain hlocate]
  split
  · next heq => cases heq
  · next heq => exact absurd (Except.error.inj heq) hcause
  · next heq => rw [Except.error.inj heq]

/-! ### Files that are placed by way of drafts -/

theorem write_of_fits (h : d.Tree) (hplain : ∀ name ∈ path, IsPlainName name) (hfits : Fits path)
    (hdir : d.nodes.get? path.dropLast = some .directory)
    (hfile : d.nodes.get? path ≠ some .directory) (node : FolderNode) :
    d.write path node = .ok { d with nodes := d.nodes.insert path node } := by
  unfold write
  rw [locate_of_fits h hplain hfits hdir]
  cases hget : d.nodes.get? path with
  | none => simp only [bind, Except.bind, hget]; rfl
  | some found =>
    cases found with
    | directory => exact absurd hget hfile
    | text | table => simp only [bind, Except.bind, hget]; rfl

/-- A file is moved to another name in its directory. -/
theorem rename_of_fits {draft : String} {node : FolderNode} (h : d.Tree)
    (hdir : d.nodes.get? around = some .directory)
    (hplain : ∀ other ∈ around ++ [name], IsPlainName other) (hfits : Fits (around ++ [name]))
    (hdraft : ∀ other ∈ around ++ [draft], IsPlainName other) (hfits' : Fits (around ++ [draft]))
    (hget : d.nodes.get? (around ++ [draft]) = some node) (hnode : node ≠ .directory)
    (hfile : d.nodes.get? (around ++ [name]) ≠ some .directory) :
    d.rename (around ++ [draft]) (around ++ [name]) =
      .ok (if around ++ [name] = around ++ [draft] then d else { d with
        nodes := (d.nodes.insert (around ++ [name]) node).erase (around ++ [draft]) }) := by
  have hdir' : ∀ last : String, d.nodes.get? (around ++ [last]).dropLast = some .directory := by
    intro last
    rwa [List.dropLast_concat]
  have hsource := locate_of_fits h hdraft hfits' (hdir' draft)
  have htarget := locate_of_fits h hplain hfits (hdir' name)
  have hread : d.read (around ++ [draft]) = .ok node :=
    read_eq_ok.2 ⟨node_eq_ok.2 ⟨_, hsource, hget⟩, hnode⟩
  have hwrite := write_of_fits h hplain hfits (hdir' name) hfile node
  unfold rename
  rw [hread, hsource, htarget]
  simp only [bind, Except.bind, hwrite, pure, Except.pure]

/-- **A file that is placed by way of a draft** beside it stands there, and the draft is gone. -/
theorem exists_placed {draft : String} {node : FolderNode} (h : d.Tree) (hnode : node ≠ .directory)
    (hdir : d.nodes.get? around = some .directory)
    (hplain : ∀ other ∈ around ++ [name], IsPlainName other) (hfits : Fits (around ++ [name]))
    (hdraft : ∀ other ∈ around ++ [draft], IsPlainName other) (hfits' : Fits (around ++ [draft]))
    (hfile : d.nodes.get? (around ++ [name]) ≠ some .directory)
    (hfile' : d.nodes.get? (around ++ [draft]) ≠ some .directory) :
    ∃ d₁ d₂, d.write (around ++ [draft]) node = .ok d₁ ∧
      d₁.rename (around ++ [draft]) (around ++ [name]) = .ok d₂ ∧
      ∀ place, d₂.nodes.get? place = if place = around ++ [name] then some node
        else if place = around ++ [draft] then none else d.nodes.get? place := by
  have hdir' : d.nodes.get? (around ++ [draft]).dropLast = some .directory := by
    rwa [List.dropLast_concat]
  have hwrite := write_of_fits h hdraft hfits' hdir' hfile' node
  have htree : Tree { d with nodes := d.nodes.insert (around ++ [draft]) node } :=
    (turns_write (S := fun _ => True) h hwrite fun _ _ => trivial).tree
  have hget : ∀ place, (d.nodes.insert (around ++ [draft]) node).get? place =
      if place = around ++ [draft] then some node else d.nodes.get? place :=
    fun place => SortedMap.get?_insert ..
  have hthere : (d.nodes.insert (around ++ [draft]) node).get? around = some .directory := by
    rw [hget, if_neg, hdir]
    intro heq
    have hlength := congrArg List.length heq
    rw [List.length_append, List.length_singleton] at hlength
    omega
  -- The draft may have the name of the file itself; then it is a file that stands there now.
  have hfree : (d.nodes.insert (around ++ [draft]) node).get? (around ++ [name]) ≠
      some .directory := by
    rw [hget]
    split
    · exact fun heq => hnode (Option.some.inj heq)
    · exact hfile
  have hrename := rename_of_fits htree hthere hplain hfits hdraft hfits'
    ((hget _).trans (if_pos rfl)) hnode hfree
  refine ⟨_, _, hwrite, hrename, fun place => ?_⟩
  by_cases hsame : around ++ [name] = around ++ [draft]
  · rw [if_pos hsame, hget, hsame]
    split <;> rfl
  · rw [if_neg hsame]
    show ((SortedMap.insert _ _ _).erase _).get? place = _
    rw [SortedMap.get?_erase, SortedMap.get?_insert, hget]
    by_cases hname : place = around ++ [name]
    · rw [if_pos hname, if_pos hname, if_neg (hname ▸ hsame)]
    · rw [if_neg hname, if_neg hname]
      split <;> rfl

end Folder

end RetailReport
