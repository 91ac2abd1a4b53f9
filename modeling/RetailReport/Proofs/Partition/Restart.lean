import RetailReport.Proofs.Calendar.Written
import RetailReport.Proofs.Partition.History
import RetailReport.Proofs.Partition.Reading
import RetailReport.Proofs.Partition.Saving

/-!
# Opening the partition store again

The manifest is the only thing that a store knows of its partitions when it is opened again.  After
any calls that have succeeded, its file holds the text of the manifest, or there is no file because
nothing was ever stored.  So whether a store can be opened again, and with the same manifest, is a
question of what its text says.

Summaries with ratios are left out, and so are counts beyond 64 bits, which no summary has in memory.

## Main definitions

* `PartitionStore.Reached`: what a store becomes by calls that succeed.
* `PartitionStore.Kept`, `PartitionStore.AtRest`: what such calls keep.

## Main results

* `PartitionStore.Reached.atRest`: what every run of such calls keeps.
* `PartitionStore.AtRest.open?_eq`: what becomes of such a store when it is opened again.
* `PartitionStore.Reached.reopens`: **a store opens again with the same manifest** exactly if no
  summary has the least amount.
-/

namespace RetailReport.PartitionStore

variable {s s₀ : PartitionStore} {path : FolderPath} {id : PartitionId} {e : PartitionEntry}

/-- **What a store can become** by calls that succeed. -/
inductive Reached (s₀ : PartitionStore) : PartitionStore → Prop
  /-- Nothing was called yet. -/
  | start : Reached s₀ s₀
  /-- One more call succeeds. -/
  | call {s : PartitionStore} (h : Reached s₀ s) (c : PartitionCall)
      (hok : (c.perform s).1 = .ok ()) : Reached s₀ (c.perform s).2

/-! ### What calls keep -/

/-- **An entry is in its place**: under its partition, with the name of its file and the moment that
partitions are given. -/
structure Placed (id : PartitionId) (e : PartitionEntry) : Prop where
  /-- The partition. -/
  entryId : e.id = id
  /-- The file. -/
  file : ∃ facts, e.file = fileName id (contentHash facts)
  /-- The moment. -/
  writtenAt : ∃ day : Date, e.writtenAt = day.dayNumber * 86400

/-- **What calls keep**, whether they succeed or not: the directories, the path of the manifest, and
its entries in their places. -/
structure Kept (path : FolderPath) (s : PartitionStore) : Prop where
  /-- The directories of an empty folder are left. -/
  folder : ({} : Folder).Turns (fun _ => True) s.folder
  /-- The path of the manifest. -/
  manifestPath : s.manifestPath = path
  /-- The name of the manifest. -/
  manifestName : ∀ name, path.getLast? = some name → ¬IsTableName name
  /-- The entries. -/
  entries : ∀ id e, s.manifest.get? id = some e → Placed id e

/-- The file of the manifest holds its text. -/
structure Saved (path : FolderPath) (s : PartitionStore) : Prop extends Kept path s where
  /-- The file. -/
  text : s.folder.node path = .ok (.text s.manifest.text)

/-- **A store at rest**: either its manifest is saved, or nothing was ever stored. -/
inductive AtRest (path : FolderPath) (s : PartitionStore) : Prop
  /-- The manifest is saved. -/
  | saved (h : s.Saved path)
  /-- There is no file. -/
  | new (h : s.Kept path) (hempty : s.manifest = .empty) (hfile : s.folder.contains path = false)

theorem AtRest.kept (h : s.AtRest path) : s.Kept path := by
  cases h with
  | saved h => exact h.toKept
  | new h _ _ => exact h

theorem Kept.onDay (h : s.Kept path) (today : Date) : Kept path { s with today } :=
  ⟨h.folder, h.manifestPath, h.manifestName, h.entries⟩

/-- Another business day changes nothing of what is stored. -/
theorem AtRest.onDay (h : s.AtRest path) (today : Date) : AtRest path { s with today } := by
  cases h with
  | saved h => exact .saved ⟨h.toKept.onDay today, h.text⟩
  | new h hempty hfile => exact .new (h.onDay today) hempty hfile

/-- Nor does counting. -/
theorem AtRest.counted (h : s.AtRest path) (writtenCount unchangedCount : Nat) :
    AtRest path { s with writtenCount, unchangedCount } := by
  cases h with
  | saved h => exact .saved ⟨⟨h.folder, h.manifestPath, h.manifestName, h.entries⟩, h.text⟩
  | new h hempty hfile =>
    exact .new ⟨h.folder, h.manifestPath, h.manifestName, h.entries⟩ hempty hfile

/-- A folder that has become another one keeps the directories. -/
theorem Kept.withFolder {S : String → Prop} {d : Folder} (h : s.Kept path)
    (hturns : s.folder.Turns S d) : Kept path { s with folder := d } :=
  ⟨h.folder.trans (hturns.mono fun _ _ => trivial), h.manifestPath, h.manifestName, h.entries⟩

/-! ### The manifest -/

/-- **Another manifest is saved.** -/
theorem Kept.saved_exchangeManifest {m : Manifest} (h : s.Kept path)
    (hentries : ∀ id e, m.get? id = some e → Placed id e)
    (hok : (s.exchangeManifest m).1 = .ok ()) :
    Saved path (s.exchangeManifest m).2 ∧ (s.exchangeManifest m).2.manifest = m := by
  obtain rfl := h.manifestPath
  have hturns := turns_saveManifest h.folder.tree h.manifestName m
  unfold exchangeManifest at hok ⊢
  split
  · next d heq =>
    rw [heq] at hturns
    have hkept := h.withFolder hturns
    exact ⟨⟨⟨hkept.folder, hkept.manifestPath, hkept.manifestName, hentries⟩,
      (turns_of_saveManifest h.folder.tree heq).2⟩, rfl⟩
  · next heq =>
    -- If the manifest cannot be saved, the call fails.
    rw [heq] at hok
    cases hok

/-- Discarding the file of a partition leaves the manifest saved. -/
theorem Saved.discardFile (h : s.Saved path) (id : PartitionId) (facts : List FactRecord) :
    Saved path (s.discardFile (fileName id (contentHash facts))) := by
  have hturns : s.folder.Turns IsTableName
      (s.folder.discardFile (FolderPath.ofText (fileName id (contentHash facts)))) := by
    refine Folder.turns_discardFile h.folder.tree fun name hlast => ?_
    rw [ofText_fileName, Option.some.injEq] at hlast
    exact hlast ▸ isTableName_baseName _ _
  exact ⟨h.toKept.withFolder hturns, hturns.node h.folder.tree h.text nofun h.manifestName⟩

/-! ### Calls -/

/-- **An entry is put in**, and the manifest is saved. -/
theorem Kept.saved_enter (h : s.Kept path) (hplaced : Placed id e)
    (hok : (s.enter e).1 = .ok ()) : Saved path (s.enter e).2 := by
  obtain rfl := hplaced.entryId
  have hentries : ∀ id found, (s.manifest.insert e.id e).get? id = some found →
      Placed id found := by
    intro id found hget
    rw [SortedMap.get?_insert] at hget
    split at hget
    · next heq =>
      cases hget
      exact heq ▸ hplaced
    · exact h.entries id found hget
  have hexchange := h.saved_exchangeManifest hentries
  unfold enter at hok ⊢
  simp only at hok ⊢
  split
  · next s' heq =>
    rw [heq] at hexchange
    obtain ⟨hsaved, -⟩ := hexchange rfl
    -- The file of the entry before it may be discarded.
    cases hprevious : s.manifest.get? e.id with
    | none => exact hsaved
    | some former =>
      obtain ⟨facts, hfile⟩ := (h.entries _ _ hprevious).file
      simp only [Option.map_some]
      split
      · exact hsaved
      · rw [hfile]
        exact hsaved.discardFile _ facts
  · next heq =>
    rw [heq] at hok
    cases hok

/-- **A partition is taken out**, if it is stored. -/
theorem AtRest.drop (h : s.AtRest path) {hash : String} {ref : PartitionRef}
    (hok : (s.drop id hash).1 = .ok ref) : AtRest path (s.drop id hash).2 := by
  have hentries : ∀ other found, (s.manifest.erase id).get? other = some found →
      Placed other found := by
    intro other found hget
    rw [SortedMap.get?_erase] at hget
    split at hget
    · cases hget
    · exact h.kept.entries other found hget
  have hexchange := h.kept.saved_exchangeManifest hentries
  unfold PartitionStore.drop at hok ⊢
  split
  · exact h
  · next former hformer =>
    obtain ⟨facts, hfile⟩ := (h.kept.entries id former hformer).file
    rw [hformer] at hok
    simp only at hok
    split
    · next heq =>
      rw [heq] at hok
      cases hok
    · next s' heq =>
      -- The file is discarded after the manifest without it was saved.
      rw [heq] at hexchange
      rw [hfile]
      exact .saved ((hexchange rfl).1.discardFile id facts)

/-- **Lines are written** to a file of their own, which is entered. -/
theorem AtRest.install (h : s.AtRest path) {facts : List FactRecord} {ref : PartitionRef}
    (hok : (s.install id facts (contentHash facts)).1 = .ok ref) :
    AtRest path (s.install id facts (contentHash facts)).2 := by
  have hturns := (turns_writeFile h.kept.folder.tree id facts).1
  unfold PartitionStore.install at hok ⊢
  simp only at hok ⊢
  split
  · next heq =>
    rw [heq] at hok
    cases hok
  · next size d heq =>
    rw [heq] at hturns hok
    have hkept := h.kept.withFolder hturns
    have hplaced : Placed id
        { id, file := fileName id (contentHash facts), contentHash := contentHash facts
          rowCount := facts.length, fileSize := size, writtenAt := s.today.dayNumber * 86400
          summary := s.summaryOf facts } := ⟨rfl, ⟨facts, rfl⟩, ⟨s.today, rfl⟩⟩
    have hentered := hkept.saved_enter hplaced
    simp only at hok
    split
    · next heq' =>
      rw [heq'] at hok
      cases hok
    · next s' heq' =>
      rw [heq'] at hentered
      exact (AtRest.saved (hentered rfl)).counted _ _

theorem AtRest.replace (h : s.AtRest path) {facts : List FactRecord} {ref : PartitionRef}
    (hok : (s.replace id facts).1 = .ok ref) : AtRest path (s.replace id facts).2 := by
  obtain ⟨-, heq⟩ | ⟨-, ⟨_, _, -, -, heq⟩ | ⟨-, heq⟩⟩ := s.replace_cases id facts
  · rw [heq] at hok ⊢
    exact h.drop hok
  · -- The same lines are there already, and nothing is written.
    rw [heq]
    exact h.counted _ _
  · rw [heq] at hok ⊢
    exact h.install hok

theorem AtRest.writePartition (h : s.AtRest path) {facts : List FactRecord} {ref : PartitionRef}
    (hok : (s.writePartition id facts).1 = .ok ref) : AtRest path (s.writePartition id facts).2 := by
  obtain ⟨_, -, heq⟩ | ⟨-, heq⟩ := s.writePartition_cases id facts
  · rw [heq]
    exact h
  · rw [heq] at hok ⊢
    exact h.replace hok

theorem AtRest.appendOpen (h : s.AtRest path) {facts : List FactRecord} {ref : PartitionRef}
    (hok : (s.appendOpen id facts).1 = .ok ref) : AtRest path (s.appendOpen id facts).2 := by
  obtain ⟨_, -, heq⟩ | ⟨-, -, -, heq⟩ := s.appendOpen_cases id facts
  · rw [heq]
    exact h
  · rw [heq] at hok ⊢
    exact h.replace hok

theorem AtRest.removePartition (h : s.AtRest path) {existed : Bool}
    (hok : (s.removePartition id).1 = .ok existed) : AtRest path (s.removePartition id).2 := by
  rw [removePartition_eq] at hok ⊢
  obtain ⟨_, hreplaced, -⟩ := Except.map_eq_ok.1 hok
  exact h.replace hreplaced

/-- **A call that succeeds** leaves the store at rest. -/
theorem AtRest.perform (h : s.AtRest path) {c : PartitionCall} (hok : (c.perform s).1 = .ok ()) :
    AtRest path (c.perform s).2 := by
  obtain ⟨today, id, action⟩ := c
  cases action with
  | write facts =>
    obtain ⟨ref, hwrite, -⟩ := Except.map_eq_ok.1 hok
    exact (h.onDay today).writePartition hwrite
  | append facts =>
    obtain ⟨ref, happend, -⟩ := Except.map_eq_ok.1 hok
    exact (h.onDay today).appendOpen happend
  | remove =>
    obtain ⟨existed, hremove, -⟩ := Except.map_eq_ok.1 hok
    exact (h.onDay today).removePartition hremove

/-! ### Runs -/

variable {manifestFile : String} {today : Date} {plan : Option RebuildPlan}

theorem turns_withoutExtension_empty :
    ({} : Folder).Turns (fun _ => True) (({} : Folder).withoutExtension "tmp") := by
  refine ⟨Folder.tree_empty.withoutExtension _, fun place held hget _ => ?_⟩
  obtain rfl := Folder.eq_directory_of_empty hget
  rw [Folder.withoutExtension, SortedMap.get?_filter, hget]
  rfl

/-- In an empty folder a store is opened whose manifest has no file. -/
theorem atRest_start (hopen : open? {} manifestFile today plan = .ok s)
    (hname : ∀ name, (FolderPath.ofText manifestFile).getLast? = some name → ¬IsTableName name) :
    s.AtRest (FolderPath.ofText manifestFile) := by
  obtain ⟨hfree, rfl⟩ := MigrationWorld.open?_eq_ok hopen
  have hnone : ∀ id e, (SortedMap.empty : Manifest).get? id = some e → Placed id e := by
    intro id e hget
    cases hget
  have hsame : ({} : Folder).withoutExtension "tmp" = {} := rfl
  refine .new ⟨turns_withoutExtension_empty, rfl, hname, hnone⟩ rfl ?_
  rw [hsame]
  exact hfree

/-- **Every run of calls that succeed** leaves the store at rest. -/
theorem Reached.atRest (h : Reached s₀ s) (hstart : s₀.AtRest path) : s.AtRest path := by
  induction h with
  | start => exact hstart
  | call _ c hok ih => exact ih.perform hok

/-! ### Opening it again -/

/-- The home of a folder is there, and nothing needs to be created. -/
theorem makeDirs_home {d : Folder} {S : String → Prop} (h : ({} : Folder).Turns S d) :
    d.makeDirs FolderPath.home = (.ok (), d) := by
  have hlocate : d.locate FolderPath.home = .ok FolderPath.home := h.locate rfl
  have hget : d.nodes.get? FolderPath.home = some .directory := h.keeps _ _ rfl (.inl rfl)
  have hthere : d.ensureDir FolderPath.home = .ok d := Folder.ensureDir_of_isDirectory rfl
    (Folder.isDirectory_iff.2 (Folder.node_eq_ok.2 ⟨_, hlocate, hget⟩))
  have hancestors : FolderPath.ancestors FolderPath.home =
      FolderPath.home :: FolderPath.above FolderPath.home.reverse := rfl
  rw [Folder.makeDirs, hancestors, Folder.ensureDirs, hthere]

/-- **What is loaded** when the store is opened again: its manifest, if that is readable. -/
theorem AtRest.loadManifest_eq (h : s.AtRest path) (hfits : ∀ e ∈ s.manifest.values, e.Fits) :
    loadManifest s.folder path =
      if s.manifest.IsReadable then .ok s.manifest else .error .manifest := by
  cases h with
  | saved h =>
    -- The file holds the text of the manifest, so it is all about what that text says.
    have hkeyed : ∀ id e, s.manifest.get? id = some e → e.id = id := fun id e hget =>
      (h.entries id e hget).entryId
    have hread : s.folder.read path = .ok (.text s.manifest.text) :=
      Folder.read_eq_ok.2 ⟨h.text, nofun⟩
    have hcontains : s.folder.contains path = true := by
      rw [Folder.contains, h.text]
      rfl
    have hreading : ∀ m, Manifest.ofText? s.manifest.text = some m ↔
        s.manifest.IsReadable ∧ s.manifest = m := fun m => Manifest.ofText?_text hfits hkeyed
    rw [loadManifest, if_pos hcontains, hread]
    by_cases hreadable : s.manifest.IsReadable
    · have htext := (hreading s.manifest).2 ⟨hreadable, rfl⟩
      simp only [htext, if_pos hreadable]
    · have htext : Manifest.ofText? s.manifest.text = none :=
        Option.eq_none_iff_forall_ne_some.2 fun m hm => hreadable ((hreading m).1 hm).1
      simp only [htext, if_neg hreadable]
  | new h hempty hfile =>
    have hreadable : s.manifest.IsReadable := by
      rw [hempty]
      intro e he
      cases he
    rw [loadManifest, hfile, if_pos hreadable, hempty]
    rfl

/-- **What becomes of a store at rest** that is opened again. -/
theorem AtRest.open?_eq (h : s.AtRest (FolderPath.ofText manifestFile))
    (hfits : ∀ e ∈ s.manifest.values, e.Fits) (today : Date) (plan : Option RebuildPlan) :
    open? s.folder manifestFile today plan =
      if s.manifest.IsReadable then
        .ok { folder := s.folder.withoutExtension "tmp", today, summaryPlan := plan
              manifestPath := s.manifestPath, manifest := s.manifest }
      else .error .manifest := by
  rw [open?, makeDirs_home h.kept.folder, h.kept.manifestPath]
  simp only [h.loadManifest_eq hfits]
  split <;> rfl

/-- The moments of entries are of 64 bits. -/
theorem AtRest.fits (h : s.AtRest path)
    (hwords : ∀ e ∈ s.partitions, e.rowCount ≤ maxCount ∧ e.fileSize ≤ maxCount)
    (hexact : ∀ e ∈ s.partitions, ∀ r ∈ e.rows, r.IsExact) :
    ∀ e ∈ s.manifest.values, e.Fits := by
  intro e he
  obtain ⟨id, hget⟩ := SortedMap.mem_values.1 he
  obtain ⟨day, hday⟩ := (h.kept.entries id e hget).writtenAt
  have hbounds := day.dayNumber_bounds
  have hearly := day.valid.1
  have hlate := day.valid.2.1
  exact ⟨(hwords e he).1, (hwords e he).2, by omega, by omega, hexact e he⟩

/-- **A store opens again with the same manifest**, after any calls that have succeeded and on any
day, unless the least amount is in a summary; then its manifest cannot be read. -/
theorem Reached.reopens (hopen : open? {} manifestFile today plan = .ok s₀)
    (hname : ∀ name, (FolderPath.ofText manifestFile).getLast? = some name → ¬IsTableName name)
    (h : Reached s₀ s)
    (hwords : ∀ e ∈ s.partitions, e.rowCount ≤ maxCount ∧ e.fileSize ≤ maxCount)
    (hexact : ∀ e ∈ s.partitions, ∀ r ∈ e.rows, r.IsExact)
    (today' : Date) (plan' : Option RebuildPlan) :
    ((∀ e ∈ s.partitions, ∀ r ∈ e.rows, ∀ name,
        r.values.get? name ≠ some (.amount Amount.least)) →
      ∃ s', open? s.folder manifestFile today' plan' = .ok s' ∧ s'.manifest = s.manifest) ∧
    ((∃ e ∈ s.partitions, ∃ r ∈ e.rows, ∃ name,
        r.values.get? name = some (.amount Amount.least)) →
      open? s.folder manifestFile today' plan' = .error .manifest) := by
  have hrest := h.atRest (atRest_start hopen hname)
  -- A store at rest has its manifest saved, so opening it means reading that text back.
  rw [hrest.open?_eq (hrest.fits hwords hexact)]
  constructor
  · intro hnone
    have hreadable : s.manifest.IsReadable := fun e he r hr =>
      AggregateRow.isReadable_iff.2 (hnone e he r hr)
    rw [if_pos hreadable]
    exact ⟨_, rfl, rfl⟩
  · rintro ⟨e, he, r, hr, name, hget⟩
    have hnot : ¬s.manifest.IsReadable := fun hreadable =>
      AggregateRow.isReadable_iff.1 (hreadable e he r hr) name hget
    rw [if_neg hnot]

open MigrationWorld (opened isTableName_manifest)

/-- The rollup of the revenue of each store and day. -/
def revenuePerDay : RebuildPlan where
  schema := {
    name := "daily", groupBy := [.storeId, .date]
    fields := [{ name := "revenue", source := .field "revenue", agg := .sum }] }
  dimensions := [.storeId, .date]
  derived := []
  formulas := .empty

theorem compile_revenuePerDay :
    Compile.compile revenuePerDay.schema { itemFields := .ofList ["revenue"] } .empty =
      .ok revenuePerDay := rfl

/-- A store that was opened in an empty folder and keeps the revenue of each day. -/
def summing : PartitionStore := { opened with summaryPlan := some revenuePerDay }

theorem open?_summing :
    open? {} "manifest.json" opened.today (some revenuePerDay) = .ok summing := rfl

/-- A sale with some revenue. -/
def sale (recordId : String) (revenue : Amount) : FactRecord :=
  { sampleLine "S1" recordId with itemFields := .ofList [("revenue", revenue)] }

/-- The store with some sales of New Year's Day, whose hash is given. -/
def keeping (facts : List FactRecord) (hash : String) : PartitionStore :=
  (summing.install newYearsDay facts hash).2

/-- Such a store is what writing the sales gives. -/
theorem reached_keeping {facts : List FactRecord} {hash : String}
    (hcheck : checkFacts newYearsDay facts = .ok ()) (hstored : facts.isEmpty = false)
    (hsorted : canonicalSort facts = facts) (hhash : contentHash facts = hash)
    (hinstall : ∃ ref, (summing.install newYearsDay facts hash).1 = .ok ref ∧ ref.written = true) :
    Reached summing (keeping facts hash) := by
  obtain ⟨ref, hinstall, -⟩ := hinstall
  have hnew : summing.unchanged? newYearsDay hash = none := rfl
  have hwrite : summing.writePartition newYearsDay facts =
      summing.install newYearsDay facts hash := by
    simp only [writePartition, hcheck, replace, hsorted, hhash, hstored, hnew, Bool.false_eq_true,
      if_false]
  have hperform : PartitionCall.perform ⟨opened.today, newYearsDay, .write facts⟩ summing =
      (.ok (), keeping facts hash) := by
    show ((summing.writePartition newYearsDay facts).1.map fun _ => (),
      (summing.writePartition newYearsDay facts).2) = _
    rw [hwrite, hinstall]
    rfl
  have hcall := Reached.call (s := summing) .start ⟨opened.today, newYearsDay, .write facts⟩
  rw [hperform] at hcall
  exact hcall rfl

/-- One sale is stored. -/
def sold : PartitionStore := keeping [sale "r1" ⟨50000, by decide, by decide⟩] "4bd94b0e-1"

set_option maxRecDepth 20000 in
theorem reached_sold : Reached summing sold := by
  refine reached_keeping (by decide) rfl (List.mergeSort_singleton _) (by decide +kernel) ?_
  exact Except.exists_ok (by decide +kernel)

set_option maxRecDepth 20000 in
theorem partitions_sold :
    sold.partitions.length = 1 ∧
    (∀ e ∈ sold.partitions, e.rowCount ≤ maxCount ∧ e.fileSize ≤ maxCount) ∧
    (∀ e ∈ sold.partitions, ∀ r ∈ e.rows, r.IsExact) ∧
    ∀ e ∈ sold.partitions, ∀ r ∈ e.rows, r.IsReadable := by
  decide +kernel

/-- The store with the sale opens again on the next day. -/
theorem reopens_sold :
    open? {} "manifest.json" opened.today (some revenuePerDay) = .ok summing ∧
    Reached summing sold ∧ sold.partitions.length = 1 ∧
    ∃ s', open? sold.folder "manifest.json" opened.today (some revenuePerDay) = .ok s' ∧
      s'.manifest = sold.manifest := by
  obtain ⟨hlength, hwords, hexact, hreadable⟩ := partitions_sold
  have hreopens := Reached.reopens open?_summing isTableName_manifest reached_sold hwords hexact
    opened.today (some revenuePerDay)
  refine ⟨open?_summing, reached_sold, hlength, hreopens.1 fun e he r hr => ?_⟩
  exact AggregateRow.isReadable_iff.1 (hreadable e he r hr)

/-- Two sales are stored whose revenues add up to the least amount. -/
def ruined : PartitionStore :=
  keeping [sale "r1" ⟨-9223372036854775807, by decide, by decide⟩,
    sale "r2" ⟨-1, by decide, by decide⟩] "fbaacfd9-2"

set_option maxRecDepth 20000 in
theorem reached_ruined : Reached summing ruined := by
  refine reached_keeping (by decide) rfl (List.mergeSort_of_pairwise (by decide +kernel))
    (by decide +kernel) ?_
  exact Except.exists_ok (by decide +kernel)

set_option maxRecDepth 20000 in
theorem partitions_ruined :
    (∀ e ∈ ruined.partitions, e.rowCount ≤ maxCount ∧ e.fileSize ≤ maxCount) ∧
    (∀ e ∈ ruined.partitions, ∀ r ∈ e.rows, r.IsExact) ∧ ¬ruined.manifest.IsReadable := by
  decide +kernel

/-- **The store with the losses does not open again**, although both sales were stored and the
summary has exact values only. -/
theorem not_reopens_ruined :
    open? {} "manifest.json" opened.today (some revenuePerDay) = .ok summing ∧
    Compile.compile revenuePerDay.schema { itemFields := .ofList ["revenue"] } .empty =
      .ok revenuePerDay ∧
    Reached summing ruined ∧ (∀ e ∈ ruined.partitions, ∀ r ∈ e.rows, r.IsExact) ∧
    open? ruined.folder "manifest.json" opened.today (some revenuePerDay) = .error .manifest := by
  obtain ⟨hwords, hexact, hnot⟩ := partitions_ruined
  have hrest := reached_ruined.atRest (atRest_start open?_summing isTableName_manifest)
  refine ⟨open?_summing, compile_revenuePerDay, reached_ruined, hexact, ?_⟩
  rw [hrest.open?_eq (hrest.fits hwords hexact), if_neg hnot]

end RetailReport.PartitionStore
