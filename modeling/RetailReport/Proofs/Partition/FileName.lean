import Mathlib.Data.List.Basic
import RetailReport.Partition.Store
import RetailReport.Proofs.Calendar.Written
import RetailReport.Proofs.Partition.Folder

/-!
# Names of the files of partitions

The file of a partition is named for its day and for the content hash of its lines.  Lines with
different hashes have files with different names, and no such name is one that a draft has.

## Main definitions

* `PartitionStore.baseName`: the name of the file of a partition, without its directory.

## Main results

* `PartitionStore.ofText_fileName`: the path of a file ends in its name.
* `PartitionStore.ofText_fileName_eq`: the place of a file.
* `PartitionStore.contentHash_eq_of_baseName_eq`: the name of a file tells the hash.
-/

namespace RetailReport

/-! ### Characters of hashes -/

namespace Digits

theorem ne_of_isDigit {c : Char} (h : isDigit c = true) : c ≠ '-' ∧ c ≠ '/' := by
  constructor
  · rintro rfl
    cases h
  · rintro rfl
    cases h

theorem hexChar_ne : ∀ n < 16, hexChar n ≠ '-' ∧ hexChar n ≠ '/' := by decide

theorem ne_of_mem_hex {width n : Nat} {c : Char} (h : c ∈ hex width n) : c ≠ '-' ∧ c ≠ '/' := by
  induction width generalizing n with
  | zero => cases h
  | succ width ih =>
    rcases List.mem_append.1 h with h | h
    · exact ih h
    · rw [List.mem_singleton.1 h]
      exact hexChar_ne _ (Nat.mod_lt n (by decide))

/-- A number without a sign has no hyphen. -/
theorem hyphen_notMem_decimal (n : Nat) : '-' ∉ decimal n := fun h =>
  (ne_of_isDigit (isDigit_of_mem_decimal h)).1 rfl

end Digits

open Digits

theorem toList_contentHash (facts : List FactRecord) : (contentHash facts).toList =
    hex 8 (Crc32.ofBytes (hashedBytes facts)).toNat ++ '-' :: decimal facts.length := by
  simp [contentHash, Crc32.render, String.toList_append]

/-! ### Names of files -/

namespace FolderPath

theorem names_append {a b : String} (ha : '/' ∉ a.toList) (hb : '/' ∉ b.toList) :
    names (a ++ "/" ++ b) = [a, b] := by
  have hsplit : (a ++ "/" ++ b).toList = a.toList ++ '/' :: b.toList := by
    simp [String.toList_append]
  rw [names, hsplit, List.splitOn_append_cons_self_of_not_mem ha, List.splitOn_eq_singleton hb]
  simp

/-- A path ends in the last name of its text. -/
theorem getLast?_ofText {a b : String} (ha : '/' ∉ a.toList) (hb : '/' ∉ b.toList) :
    (ofText (a ++ "/" ++ b)).getLast? = some b := by
  rw [ofText, names_append ha hb]
  split <;> rfl

end FolderPath

namespace PartitionStore

/-- The name of the file of a partition, without its directory. -/
def baseName (id : PartitionId) (hash : String) : String :=
  id.date.render ++ "-" ++ hash ++ ".parquet"

/-- Of other characters than letters, digits and hyphens a directory has only underscores. -/
theorem isAlphanum_of_mem_directoryName {storeId : String} {c : Char}
    (h : c ∈ (directoryName storeId).toList) : (c.isAlphanum || c == '-' || c == '_') = true := by
  rw [directoryName, String.toList_map, List.mem_map] at h
  obtain ⟨former, -, rfl⟩ := h
  split
  · next hkept => exact hkept
  · decide

theorem notMem_directoryName (storeId : String) : '/' ∉ (directoryName storeId).toList :=
  fun h => absurd (isAlphanum_of_mem_directoryName h) (by decide)

theorem notMem_point_directoryName (storeId : String) : '.' ∉ (directoryName storeId).toList :=
  fun h => absurd (isAlphanum_of_mem_directoryName h) (by decide)

theorem notMem_render (d : Date) : '/' ∉ d.render.toList := by
  have hpadded : ∀ width n, '/' ∉ padded width n := fun width n h =>
    (ne_of_isDigit (isDigit_of_mem_padded h)).2 rfl
  rw [Date.render, String.toList_ofList, Date.renderChars, Date.renderYear]
  split
  · simp [hpadded]
  · split <;> simp [hpadded]

theorem notMem_baseName (id : PartitionId) (facts : List FactRecord) :
    '/' ∉ (baseName id (contentHash facts)).toList := by
  have hhex : ∀ width n, '/' ∉ hex width n := fun width n h => (ne_of_mem_hex h).2 rfl
  have hdecimal : ∀ n, '/' ∉ decimal n := fun n h =>
    (ne_of_isDigit (isDigit_of_mem_decimal h)).2 rfl
  rw [baseName, String.toList_append, String.toList_append, String.toList_append,
    toList_contentHash]
  simp [notMem_render, hhex, hdecimal]

/-- **The path of a file** ends in its name. -/
theorem ofText_fileName (id : PartitionId) (facts : List FactRecord) :
    (FolderPath.ofText (fileName id (contentHash facts))).getLast? =
      some (baseName id (contentHash facts)) := by
  have hname : fileName id (contentHash facts) =
      directoryName id.storeId ++ "/" ++ baseName id (contentHash facts) := by
    simp only [fileName, baseName, String.append_assoc]
  rw [hname]
  exact FolderPath.getLast?_ofText (notMem_directoryName _) (notMem_baseName id facts)

/-- What stands before the last hyphen of a text and what stands after it. -/
theorem append_cons_inj {as as' bs bs' : List Char} (hb : '-' ∉ bs) (hb' : '-' ∉ bs')
    (h : as ++ '-' :: bs = as' ++ '-' :: bs') : as = as' ∧ bs = bs' := by
  have hnil : ∀ {c ds ds' : List Char}, '-' ∉ ds → '-' :: ds = c ++ '-' :: ds' → c = [] := by
    intro c ds ds' hd heq
    cases c with
    | nil => rfl
    | cons x c =>
      rw [List.cons_append, List.cons.injEq] at heq
      exact absurd (heq.2 ▸ List.mem_append_right c List.mem_cons_self) hd
  rcases List.append_eq_append_iff.1 h with ⟨c, rfl, heq⟩ | ⟨c, rfl, heq⟩
  · obtain rfl := hnil hb heq
    exact ⟨(List.append_nil _).symm, (List.cons.inj heq).2⟩
  · obtain rfl := hnil hb' heq
    exact ⟨List.append_nil _, (List.cons.inj heq).2.symm⟩

/-- **The name of a file tells the hash** of its lines. -/
theorem contentHash_eq_of_baseName_eq {id id' : PartitionId} {facts facts' : List FactRecord}
    (h : baseName id (contentHash facts) = baseName id' (contentHash facts')) :
    contentHash facts = contentHash facts' := by
  have hhex : ∀ width n, '-' ∉ hex width n := fun width n h => (ne_of_mem_hex h).1 rfl
  have hchars := congrArg String.toList h
  simp only [baseName, String.toList_append] at hchars
  have hnames := List.append_cancel_right hchars
  rw [toList_contentHash, toList_contentHash, ← List.append_assoc, ← List.append_assoc] at hnames
  obtain ⟨hbefore, hcount⟩ := append_cons_inj (hyphen_notMem_decimal _)
    (hyphen_notMem_decimal _) hnames
  simp only [List.append_assoc] at hbefore
  obtain ⟨-, hcheck⟩ := append_cons_inj (hhex _ _) (hhex _ _) hbefore
  rw [← String.toList_inj, toList_contentHash, toList_contentHash, hcheck, hcount]

/-! ### Names of other files -/

/-- Whether a name ends as the names of partition files do. -/
def IsTableName (name : String) : Prop := ".parquet".toList <:+ name.toList

theorem isTableName_baseName (id : PartitionId) (hash : String) :
    IsTableName (baseName id hash) := by
  rw [IsTableName, baseName, String.toList_append]
  exact List.suffix_append _ _

/-- No draft has the name of a partition file. -/
theorem not_isTableName_tmp (stem : String) : ¬IsTableName (stem ++ ".tmp") := by
  rintro ⟨before, h⟩
  have hlast := congrArg List.getLast? h
  have hdraft : ".tmp".toList.getLast? = some 'p' := by decide
  have htable : ".parquet".toList.getLast? = some 't' := by decide
  rw [String.toList_append, List.getLast?_append, List.getLast?_append, hdraft, htable] at hlast
  exact absurd (Option.some.inj hlast) (by decide)

/-- A path that names no file ends in a name that leads nowhere, or back. -/
theorem not_isTableName_of_fileName? {path : FolderPath} {name : String}
    (h : FolderPath.fileName? path = none) (hlast : path.getLast? = some name) :
    ¬IsTableName name := by
  have hnone : name = "" ∨ name = "." ∨ name = ".." := by
    by_cases hblank : FolderPath.isBlank name = true
    · rw [FolderPath.isBlank, Bool.or_eq_true, decide_eq_true_eq, decide_eq_true_eq] at hblank
      exact hblank.imp_right .inl
    · obtain ⟨before, rfl⟩ := List.getLast?_eq_some_iff.1 hlast
      have htrimmed : FolderPath.trimmed (before ++ [name]) = before ++ [name] := by
        simp [FolderPath.trimmed, hblank]
      rw [FolderPath.fileName?, htrimmed, List.getLast?_concat] at h
      simp only [ite_eq_left_iff, reduceCtorEq, imp_false, not_not] at h
      exact .inr (.inr h)
  rintro ⟨before, h⟩
  have hlength := congrArg List.length h
  have htable : ".parquet".toList.length = 8 := by decide
  rw [List.length_append, htable] at hlength
  rcases hnone with rfl | rfl | rfl <;> simp at hlength

/-- The draft of a file does not have the name of a partition file. -/
theorem not_isTableName_extended {path : FolderPath} {last name : String}
    (hlast : path.getLast? = some last)
    (h : (FolderPath.extended path ".tmp").getLast? = some name) : ¬IsTableName name := by
  simp only [FolderPath.extended, hlast, List.getLast?_concat, Option.some.injEq] at h
  exact h ▸ not_isTableName_tmp _

/-- The draft of a manifest does not have the name of a partition file. -/
theorem not_isTableName_draft {path : FolderPath} {name : String}
    (h : (FolderPath.withExtension path "tmp").getLast? = some name) : ¬IsTableName name := by
  have hreplace : ∀ base : FolderPath,
      (FolderPath.replaceExtension base "tmp").getLast? = some name → ¬IsTableName name := by
    intro base hbase
    unfold FolderPath.replaceExtension at hbase
    split at hbase
    · next own _ =>
      rw [List.getLast?_concat, Option.some.injEq] at hbase
      have hstem : name = (FolderPath.splitName own).1 ++ ".tmp" := by
        rw [← hbase, String.append_assoc]
        rfl
      exact hstem ▸ not_isTableName_tmp _
    · next hnone => exact not_isTableName_of_fileName? hnone hbase
  unfold FolderPath.withExtension at h
  split at h
  · exact hreplace _ h
  · exact hreplace _ h

/-! ### Places of files -/

theorem directoryName_eq_empty {storeId : String} (h : directoryName storeId = "") :
    storeId = "" := by
  have hlist := congrArg String.toList h
  rw [directoryName, String.toList_map] at hlist
  exact String.toList_eq_nil_iff.1 (List.map_eq_nil_iff.1 hlist)

/-- A store id becomes the name of a directory, unless it is empty. -/
theorem isPlainName_directoryName {storeId : String} (h : storeId ≠ "") :
    Folder.IsPlainName (directoryName storeId) := by
  have hne {name : String} (hname : '.' ∈ name.toList) : directoryName storeId ≠ name := by
    rintro rfl
    exact notMem_point_directoryName storeId hname
  have hblank : directoryName storeId ≠ "" := fun hempty => h (directoryName_eq_empty hempty)
  refine ⟨?_, hne (by decide)⟩
  rw [FolderPath.isBlank, Bool.or_eq_false_iff, decide_eq_false_iff_not, decide_eq_false_iff_not]
  exact ⟨hblank, hne (by decide)⟩

/-- A name that ends in some characters leads on, if they are too many for one that leads back. -/
theorem isPlainName_of_suffix {name : String} {suffix : List Char} (hlong : 2 < suffix.length)
    (h : suffix <:+ name.toList) : Folder.IsPlainName name := by
  have hne {other : String} (hother : other.toList.length ≤ 2) : name ≠ other := by
    rintro rfl
    exact absurd (Nat.lt_of_lt_of_le hlong h.length_le) (Nat.not_lt.2 hother)
  refine ⟨?_, hne (by decide)⟩
  rw [FolderPath.isBlank, Bool.or_eq_false_iff, decide_eq_false_iff_not, decide_eq_false_iff_not]
  exact ⟨hne (by decide), hne (by decide)⟩

/-- Names of partition files lead on. -/
theorem isPlainName_of_isTableName {name : String} (h : IsTableName name) :
    Folder.IsPlainName name := isPlainName_of_suffix (by decide) h

/-- **The place of a file**: in the home, in the directory of its store. -/
theorem ofText_fileName_eq {id : PartitionId} (h : id.storeId ≠ "") (facts : List FactRecord) :
    FolderPath.ofText (fileName id (contentHash facts)) =
      FolderPath.home ++ [directoryName id.storeId, baseName id (contentHash facts)] := by
  have hname : fileName id (contentHash facts) =
      directoryName id.storeId ++ "/" ++ baseName id (contentHash facts) := by
    simp only [fileName, baseName, String.append_assoc]
  have hrelative : FolderPath.isAbsolute (fileName id (contentHash facts)) = false := by
    rw [FolderPath.isAbsolute, decide_eq_false_iff_not, hname, String.toList_append,
      String.toList_append, List.append_assoc]
    cases hchars : (directoryName id.storeId).toList with
    | nil => exact absurd (directoryName_eq_empty (String.toList_eq_nil_iff.1 hchars)) h
    | cons c rest =>
      rw [List.cons_append, List.head?_cons, Option.some.injEq]
      rintro rfl
      exact notMem_directoryName id.storeId (hchars ▸ List.mem_cons_self)
  rw [FolderPath.ofText, hrelative, if_neg Bool.false_ne_true, hname,
    FolderPath.names_append (notMem_directoryName _) (notMem_baseName id facts)]

theorem isPlainName_of_mem_ofText {id : PartitionId} (h : id.storeId ≠ "")
    (facts : List FactRecord) :
    ∀ name ∈ FolderPath.ofText (fileName id (contentHash facts)), Folder.IsPlainName name := by
  intro name hname
  rw [ofText_fileName_eq h, List.mem_append] at hname
  rcases hname with hhome | hname
  · revert name
    unfold Folder.IsPlainName
    decide
  · simp only [List.mem_cons, List.not_mem_nil, or_false] at hname
    rcases hname with rfl | rfl
    · exact isPlainName_directoryName h
    · exact isPlainName_of_isTableName (isTableName_baseName _ _)

/-! ### Extensions -/

/-- What has the extension of a table ends as the names of partition files do. -/
theorem isTableName_of_extension? {name : String}
    (h : FolderPath.extension? name = some "parquet") : IsTableName name := by
  unfold FolderPath.extension? FolderPath.splitName at h
  simp only at h
  split at h
  · next hshort =>
    have hafter : name.toList.reverse.takeWhile (· ≠ '.') = "parquet".toList.reverse := by
      have hlist := congrArg String.toList (Option.some.inj h)
      rw [String.toList_ofList] at hlist
      rw [← hlist, List.reverse_reverse]
    have hsplit := List.takeWhile_append_dropWhile (p := (· ≠ '.')) (l := name.toList.reverse)
    have hpoint := List.head?_dropWhile_not (· ≠ '.') name.toList.reverse
    rw [hafter] at hsplit
    -- What is left of the name is not empty, and ends in the point.
    cases hrest : name.toList.reverse.dropWhile (· ≠ '.') with
    | nil =>
      rw [hrest, List.append_nil] at hsplit
      rw [hafter, List.length_reverse, List.length_reverse, ← List.length_reverse, hsplit,
        List.length_reverse, String.length_toList] at hshort
      exact absurd hshort.1 (Nat.lt_irrefl _)
    | cons c rest =>
      rw [hrest] at hsplit hpoint
      have hc : c = '.' := by simpa using hpoint
      refine ⟨rest.reverse, ?_⟩
      rw [← List.reverse_inj, ← hsplit, hc, List.reverse_append, List.reverse_reverse]
      rfl
  · cases h

theorem extension?_baseName (id : PartitionId) (hash : String) :
    FolderPath.extension? (baseName id hash) = some "parquet" := by
  have hreverse : (baseName id hash).toList.reverse =
      "parquet".toList.reverse ++ '.' :: (id.date.render ++ "-" ++ hash).toList.reverse := by
    rw [baseName, String.toList_append, List.reverse_append]
    rfl
  have hafter : (baseName id hash).toList.reverse.takeWhile (· ≠ '.') =
      "parquet".toList.reverse := by
    have hpoint : '.' ∉ "parquet".toList := by decide
    have hnone : ∀ c ∈ "parquet".toList.reverse, decide (c ≠ '.') = true := fun c hc =>
      decide_eq_true fun h => hpoint (h ▸ List.mem_reverse.1 hc)
    rw [hreverse, List.takeWhile_append_of_pos hnone, List.takeWhile_cons_of_neg (by decide),
      List.append_nil]
  have hlength : (baseName id hash).length = (id.date.render ++ "-" ++ hash).length + 8 := by
    rw [baseName, String.length_append]
    rfl
  have hseven : "parquet".toList.length = 7 := by decide
  have hbefore : (baseName id hash).toList.take
      ((baseName id hash).length - "parquet".toList.length - 1) ≠ [] := by
    intro h
    have hshort := congrArg List.length h
    rw [hseven, List.length_take, String.length_toList, hlength, List.length_nil] at hshort
    have hone : 1 ≤ (id.date.render ++ "-" ++ hash).length := by
      rw [String.length_append, String.length_append]
      have : "-".length = 1 := by decide
      omega
    omega
  -- The last point of the name is the one before the extension, with more than that in front.
  unfold FolderPath.extension? FolderPath.splitName
  rw [hafter, List.reverse_reverse, if_pos]
  · rw [String.ofList_toList]
  · refine ⟨?_, hbefore⟩
    rw [hseven, hlength]
    omega

end PartitionStore

end RetailReport
