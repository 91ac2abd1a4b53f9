import RetailReport.Proofs.Cache.Slices
import RetailReport.Proofs.Fact.Consistency
import RetailReport.Proofs.Query.RowFilter
import RetailReport.Proofs.Rollup.Projection
import RetailReport.Proofs.Rollup.Regroup
import RetailReport.Proofs.Rollup.Slices

/-!
# Answers from stored rollups

The rows that a request asks for stand for the lines that it asks for: the slices that the rollup
engine reads are cut so that no group is torn apart, and a row passes the filter exactly if the
lines of its group do.  Grouping these rows again gives the rows of the lines, as far as fields are
carried over.

## Main definitions

* `RollupStore.Current`: the slices of a rollup are right for the lines of a fact store.
* `Slicing`: how the lines that are asked for are cut into slices.

## Main results

* `RebuildPlan.cover_of_execute`: the rows of a slice stand for its lines.
* `Slicing.cover`: the rows that are asked for stand for the lines that are asked for.
* `RollupEngine.regroup_of_execute`: what the answer of the rollup engine is made from.
* `RollupEngine.answered_of_execute`: the rows that it shows.
-/

namespace RetailReport

open Regroup

/-! ### One slice -/

namespace RebuildPlan

/-- Rows as grouping takes them. -/
def keyed (rows : List RollupRow) : List (GroupKey × Values) := rows.map fun r => (r.key, r.values)

theorem fst_keyed (rows : List RollupRow) : (keyed rows).map Prod.fst = rows.map (·.key) := by
  rw [keyed, List.map_map]
  rfl

/-- **The rows of a slice stand for its lines.** -/
theorem cover_of_execute {p : RebuildPlan} (hp : p.WellFormed) {lines : List FactRecord}
    {rows : List RollupRow} (h : p.execute lines = .ok rows) :
    Cover p.groupBy p.fields lines (keyed rows) := by
  have hfst : (keyed rows).map Prod.fst = groupKeys p.groupBy lines := by
    rw [fst_keyed, keys_of_execute h, hp.dimensions]
  obtain ⟨finished, haggregate, hrows⟩ := Except.bind_eq_ok.1 h
  obtain ⟨base, hbase, hfinalize⟩ := Except.bind_eq_ok.1 haggregate
  obtain rfl := Except.ok.inj hrows
  have hof := Kernel.aggregate_rows hp.names hbase
  refine ⟨?_, fun key => ?_, fun row hrow field hfield => ?_⟩
  · rw [hfst]
    exact KeySet.nodup_members _
  · rw [hfst, mem_groupKeys]
  · simp only [keyed, List.map_map, List.mem_map, Function.comp_apply] at hrow
    obtain ⟨row', hrow', rfl⟩ := hrow
    obtain ⟨first, hfirst, hboth⟩ := List.exists_of_mem_mapM_eq_ok hfinalize hrow'
    obtain ⟨values, hvalues, hboth⟩ := Except.bind_eq_ok.1 hboth
    cases hboth
    obtain ⟨m, hm, hworth⟩ := (hof.values first hfirst).worth field hfield
    refine ⟨m, ?_, ?_⟩
    · rw [get?_finalize hp hvalues (List.mem_map_of_mem hfield), hm]
    · rwa [← hp.dimensions]

end RebuildPlan

/-! ### Several slices -/

/-- **How the lines that are wanted are cut into slices**: some of the lines are put into parts,
each of them with all lines of its group, and no wanted line is left out. -/
structure Slicing (groupBy : List Dimension) (facts : List FactRecord) (wanted : FactRecord → Bool)
    (scopes : List String) (part : String → List FactRecord) : Prop where
  /-- Each part is taken once. -/
  scopes_nodup : scopes.Nodup
  /-- No line is in a part twice. -/
  part_nodup : ∀ s ∈ scopes, (part s).Nodup
  /-- Parts are made of the lines. -/
  mem : ∀ s ∈ scopes, ∀ f ∈ part s, f ∈ facts
  /-- Groups are not torn apart. -/
  closed : ∀ s ∈ scopes, ∀ f ∈ part s, ∀ g ∈ facts,
    groupKey groupBy f = groupKey groupBy g → g ∈ part s
  /-- No line is in two parts. -/
  disjoint : ∀ s ∈ scopes, ∀ s' ∈ scopes, ∀ f ∈ part s, f ∈ part s' → s = s'
  /-- Every wanted line is in a part. -/
  covers : ∀ f ∈ facts, wanted f = true → ∃ s ∈ scopes, f ∈ part s

namespace Slicing

variable {p : RebuildPlan} {facts : List FactRecord} {wanted : FactRecord → Bool}
  {scopes : List String} {part : String → List FactRecord} {rows : String → List RollupRow}
  {asked : RollupRow → Bool}

/-- A row of a part is the row of a group of its lines. -/
theorem exists_line (hp : p.WellFormed) (hrows : ∀ s ∈ scopes, p.execute (part s) = .ok (rows s))
    {s : String} (hs : s ∈ scopes) {row : RollupRow} (hrow : row ∈ rows s) :
    ∃ f ∈ part s, groupKey p.groupBy f = row.key := by
  refine ((RebuildPlan.cover_of_execute hp (hrows s hs)).keys row.key).1 ?_
  rw [RebuildPlan.fst_keyed]
  exact List.mem_map_of_mem hrow

/-- Rows of one part have keys of their own, and rows of two parts stand for different groups. -/
theorem nodup_keys (hslicing : Slicing p.groupBy facts wanted scopes part) (hp : p.WellFormed)
    (hrows : ∀ s ∈ scopes, p.execute (part s) = .ok (rows s)) :
    ((scopes.flatMap rows).map (·.key)).Nodup := by
  rw [List.map_flatMap]
  refine List.nodup_flatMap.2 ⟨fun s hs => ?_, ?_⟩
  · rw [← RebuildPlan.fst_keyed]
    exact (RebuildPlan.cover_of_execute hp (hrows s hs)).nodup
  · refine hslicing.scopes_nodup.imp_of_mem fun {s s'} hs hs' hne key hkey hkey' => hne ?_
    obtain ⟨row, hrow, rfl⟩ := List.mem_map.1 hkey
    obtain ⟨row', hrow', e⟩ := List.mem_map.1 hkey'
    obtain ⟨f, hf, hfk⟩ := exists_line hp hrows hs hrow
    obtain ⟨g, hg, hgk⟩ := exists_line hp hrows hs' hrow'
    have hsame : groupKey p.groupBy g = groupKey p.groupBy f := hgk.trans (e.trans hfk.symm)
    exact hslicing.disjoint s hs s' hs' f hf
      (hslicing.closed s' hs' g hg f (hslicing.mem s hs f hf) hsame)

/-- The wanted lines of a group are all lines that a part has of it, if the group is wanted. -/
theorem ofGroup_perm (hslicing : Slicing p.groupBy facts wanted scopes part) (hfacts : facts.Nodup)
    {s : String} (hs : s ∈ scopes) {f : FactRecord} (hf : f ∈ part s)
    (hwanted : ∀ g ∈ facts, groupKey p.groupBy g = groupKey p.groupBy f → wanted g = true) :
    (ofGroup p.groupBy (part s) (groupKey p.groupBy f)).Perm
      (ofGroup p.groupBy (facts.filter wanted) (groupKey p.groupBy f)) := by
  refine (List.perm_ext_iff_of_nodup ((hslicing.part_nodup s hs).filter _)
    ((hfacts.filter _).filter _)).2 fun g => ?_
  simp only [List.mem_filter, decide_eq_true_eq]
  constructor
  · rintro ⟨hg, hgk⟩
    have hmem := hslicing.mem s hs g hg
    exact ⟨⟨hmem, hwanted g hmem hgk⟩, hgk⟩
  · rintro ⟨⟨hmem, -⟩, hgk⟩
    exact ⟨hslicing.closed s hs f hf g hmem hgk.symm, hgk⟩

/-- **The rows that are asked for stand for the lines that are asked for.** -/
theorem cover (hslicing : Slicing p.groupBy facts wanted scopes part) (hp : p.WellFormed)
    (hid : (facts.map (·.recordId)).Nodup)
    (hrows : ∀ s ∈ scopes, p.execute (part s) = .ok (rows s))
    (hasked : ∀ row f, f ∈ facts → row.key = groupKey p.groupBy f → asked row = wanted f) :
    Cover p.groupBy p.fields (facts.filter wanted)
      (RebuildPlan.keyed ((scopes.flatMap rows).filter asked)) := by
  have hcover : ∀ s ∈ scopes, Cover p.groupBy p.fields (part s) (RebuildPlan.keyed (rows s)) :=
    fun s hs => RebuildPlan.cover_of_execute hp (hrows s hs)
  refine ⟨?_, fun key => ?_, fun row hrow field hfield => ?_⟩
  · rw [RebuildPlan.fst_keyed]
    exact (hslicing.nodup_keys hp hrows).sublist (List.filter_sublist.map _)
  · rw [RebuildPlan.fst_keyed]
    simp only [List.mem_map, List.mem_filter, List.mem_flatMap]
    constructor
    · rintro ⟨row, ⟨⟨s, hs, hrow⟩, hask⟩, rfl⟩
      obtain ⟨f, hf, hfk⟩ := exists_line hp hrows hs hrow
      have hmem := hslicing.mem s hs f hf
      exact ⟨f, ⟨hmem, by rw [← hasked row f hmem hfk.symm, hask]⟩, hfk⟩
    · rintro ⟨f, ⟨hmem, hwanted⟩, rfl⟩
      obtain ⟨s, hs, hf⟩ := hslicing.covers f hmem hwanted
      have hkey := ((hcover s hs).keys (groupKey p.groupBy f)).2 ⟨f, hf, rfl⟩
      rw [RebuildPlan.fst_keyed] at hkey
      obtain ⟨row, hrow, e⟩ := List.mem_map.1 hkey
      exact ⟨row, ⟨⟨s, hs, hrow⟩, by rw [hasked row f hmem e, hwanted]⟩, e⟩
  · simp only [RebuildPlan.keyed, List.mem_map, List.mem_filter, List.mem_flatMap] at hrow
    obtain ⟨row, ⟨⟨s, hs, hrow⟩, hask⟩, rfl⟩ := hrow
    obtain ⟨m, hm, hworth⟩ := (hcover s hs).worth (row.key, row.values)
      (List.mem_map.2 ⟨row, hrow, rfl⟩) field hfield
    obtain ⟨f, hf, hfk⟩ := exists_line hp hrows hs hrow
    -- The lines behind the row are all of one slice, so the slice has as many of them.
    have hperm := hslicing.ofGroup_perm (.of_map _ hid) hs hf fun g hg hgk => by
      rw [← hasked row g hg (hfk.symm.trans hgk.symm), hask]
    rw [hfk] at hperm
    refine ⟨m, hm, hworth.perm hperm ((hperm.map _).nodup_iff.2 ?_)⟩
    exact hid.sublist ((List.filter_sublist.trans List.filter_sublist).map _)

end Slicing

/-! ### The slices of a rollup -/

/-- The lines that the slice of a scope is computed from. -/
def RebuildPlan.linesFor (p : RebuildPlan) (facts : FactStore) (scope : String) : List FactRecord :=
  if p.isStoreScoped then facts.linesOf scope else facts.lines

/-- **The slices of a rollup are right** for what a fact store holds: those of all stores, or the
one with the scope `*`. -/
def RollupStore.Current (store : RollupStore) (p : RebuildPlan) (facts : FactStore) : Prop :=
  ∀ scope, p.isStoreScoped = true ∨ scope = globalScope →
    store.Holds p scope (p.linesFor facts scope)

theorem RollupStore.mem_scopes {store : RollupStore} {schema scope : String} :
    scope ∈ store.scopes schema ↔ (store.get? ⟨schema, scope⟩).isSome := by
  rw [Option.isSome_iff_exists]
  simp only [scopes, ofSchema, List.mem_map, List.mem_filterMap, Prod.exists]
  constructor
  · rintro ⟨_, rows, ⟨id, rows', hmem, hid⟩, rfl⟩
    split at hid
    · next hschema =>
      obtain ⟨rfl, rfl⟩ := Prod.mk.inj (Option.some.inj hid)
      exact ⟨rows', hschema ▸ SortedMap.mem_toList.1 hmem⟩
    · cases hid
  · rintro ⟨rows, hget⟩
    exact ⟨scope, rows, ⟨⟨schema, scope⟩, rows, SortedMap.mem_toList.2 hget, if_pos rfl⟩, rfl⟩

theorem RollupStore.nodup_scopes (store : RollupStore) (schema : String) :
    (store.scopes schema).Nodup := by
  have hscopes : store.scopes schema =
      store.slices.keys.filterMap fun id => if id.schema = schema then some id.scope else none := by
    rw [scopes, ofSchema, List.map_filterMap, SortedMap.keys, List.filterMap_map]
    refine List.filterMap_congr fun e _ => ?_
    rw [Function.comp_apply, apply_ite (Option.map Prod.fst)]
    rfl
  have hid : ∀ (id : SliceId) (scope : String),
      scope ∈ (if id.schema = schema then some id.scope else none) → id = ⟨schema, scope⟩ := by
    intro id scope h
    split at h
    · next hschema => rw [← hschema, ← Option.some.inj h]
    · cases h
  rw [hscopes]
  exact List.Nodup.filterMap
    (fun id id' scope h h' => (hid id scope h).trans (hid id' scope h').symm)
    store.slices.nodup_keys

section Current

variable {p : RebuildPlan} {facts : FactStore} {store : RollupStore} {q : QueryFilter}

/-- Lines of an order belong to one group. -/
theorem FactStore.Consistent.whole (hfacts : facts.Consistent) (dimensions : List Dimension)
    (wanted : FactRecord → Bool) : Whole dimensions (facts.lines.filter wanted) := by
  intro f hf g hg horder
  have hheader := hfacts.header_eq (List.mem_filter.1 hf).1 (List.mem_filter.1 hg).1 horder
  exact groupKey_eq_of_sameHead (OrderHeader.mk.inj hheader)

theorem nodup_linesOf (hfacts : facts.Consistent) (id : String) : (facts.linesOf id).Nodup :=
  hfacts.nodup_lines.sublist (facts.linesOf_sublist id)

theorem storeId_mem_groupBy (h : p.isStoreScoped = true) : Dimension.storeId ∈ p.groupBy :=
  List.contains_iff_mem.1 h

/-- **The slices that the rollup engine reads** cut the lines that are asked for. -/
theorem slicing_of_current (hfacts : facts.Consistent) (hcurrent : store.Current p facts)
    (q : QueryFilter) :
    Slicing p.groupBy facts.lines q.matchesFact (RollupEngine.scopes p store q)
      (p.linesFor facts) := by
  unfold RollupEngine.scopes RebuildPlan.linesFor
  -- Slices by store are cut by the store of a line; otherwise one slice holds all of them.
  cases hscoped : p.isStoreScoped with
  | false =>
    simp only [Bool.false_eq_true, if_false]
    exact {
      scopes_nodup := List.nodup_singleton _
      part_nodup := fun _ _ => hfacts.nodup_lines
      mem := fun _ _ _ hf => hf
      closed := fun _ _ _ _ _ hg _ => hg
      disjoint := fun s hs s' hs' _ _ _ => by
        rw [List.mem_singleton.1 hs, List.mem_singleton.1 hs']
      covers := fun f hf _ => ⟨_, List.mem_singleton_self _, hf⟩ }
  | true =>
    simp only [if_true]
    refine {
      scopes_nodup := ?_
      part_nodup := fun s _ => nodup_linesOf hfacts s
      mem := fun s _ f hf => (hfacts.mem_linesOf.1 hf).1
      closed := fun s _ f hf g hg hkey => ?_
      disjoint := fun s _ s' _ f hf hf' =>
        (hfacts.storeId_of_mem hf).symm.trans (hfacts.storeId_of_mem hf')
      covers := fun f hf hwanted => ⟨f.storeId, ?_, hfacts.mem_linesOf.2 ⟨hf, rfl⟩⟩ }
    · cases q.stores with
      | some stores => exact KeySet.nodup_members stores
      | none => exact store.nodup_scopes p.name
    · have hstore : f.storeId = g.storeId :=
        groupKey_eq_iff.1 hkey .storeId (storeId_mem_groupBy hscoped)
      exact hfacts.mem_linesOf.2 ⟨hg, hstore ▸ hfacts.storeId_of_mem hf⟩
    · cases hstores : q.stores with
      | some stores =>
        simp only [QueryFilter.matchesFact, QueryFilter.matchesStore, hstores, Option.all_some,
          Bool.and_eq_true] at hwanted
        exact KeySet.contains_iff.1 hwanted.1.1
      | none =>
        have hholds := hcurrent f.storeId (.inl hscoped)
        rw [RebuildPlan.linesFor, if_pos hscoped] at hholds
        obtain ⟨rows, -, hget⟩ :=
          hholds.exists_rows (List.ne_nil_of_mem (hfacts.mem_linesOf.2 ⟨hf, rfl⟩))
        exact RollupStore.mem_scopes.2 (hget ▸ rfl)

end Current

/-! ### The answer -/

theorem PlanTable.checkedPlan_eq_ok {plans : PlanTable} {r : MetricRequest} {p : RebuildPlan}
    (h : plans.checkedPlan r = .ok p) : plans.get? r.schema = some p ∧ r.Accepted p := by
  unfold checkedPlan at h
  cases hget : plans.get? r.schema with
  | none => rw [hget] at h; cases h
  | some plan =>
    simp only [hget] at h
    cases hcheck : r.check plan with
    | error fault => rw [hcheck] at h; cases h
    | ok u =>
      rw [hcheck] at h
      obtain rfl := Except.ok.inj h
      exact ⟨rfl, MetricRequest.accepted_of_check hcheck⟩

/-- **What an answer is made from**: rows of some lines, for the fields that are carried over, which
are finished and shown. -/
structure Answered (p : RebuildPlan) (r : MetricRequest) (fields : List FieldSpec)
    (facts : List FactRecord) (rows : List AggregateRow) : Prop where
  /-- The rows before derived fields are computed. -/
  shown : ∃ base finished, Kernel.Rows r.dimensions fields facts base ∧
    p.finalizeRows base = .ok finished ∧ rows = RebuildPlan.projectRows finished r.fields

namespace RollupEngine

variable {p : RebuildPlan} {plans : PlanTable} {facts : FactStore} {store : RollupStore}
  {cache : SliceCache} {r : MetricRequest} {cancelled : Bool} {a : AggregateResult}

/-- The answer is made from the rows of the slices that are asked for. -/
theorem regroup_of_execute (hplan : plans.get? r.schema = some p)
    (hcache : cache.Faithful store p.name)
    (h : (execute plans store cache r cancelled).1 = .ok a) :
    r.Accepted p ∧ ∃ finished, p.regroup
      (((scopes p store r.filter).flatMap fun scope => (store.get? ⟨p.name, scope⟩).getD []).filter
        (RowFilter.asksFor p.groupBy r.filter)) r.dimensions r.fields = .ok finished ∧
      a.rows = RebuildPlan.projectRows finished r.fields := by
  unfold execute at h
  cases hchecked : plans.checkedPlan r with
  | error e => rw [hchecked] at h; cases h
  | ok plan =>
    simp only [hchecked] at h
    obtain ⟨hget, haccepted⟩ := PlanTable.checkedPlan_eq_ok hchecked
    obtain rfl : plan = p := Option.some.inj (hget.symm.trans hplan)
    refine ⟨haccepted, ?_⟩
    obtain ⟨rows, hrows, hanswer⟩ := Except.bind_eq_ok.1 h
    rw [← slices_eq hcache hrows]
    unfold answer at hanswer
    simp only at hanswer
    split at hanswer
    · next finished hregroup =>
      refine ⟨finished, hregroup, ?_⟩
      rw [← Except.ok.inj hanswer]
      rfl
    · cases hanswer

/-- A slice that is read holds the rows of its lines; one that is missing, those of none. -/
theorem execute_of_scope (hcurrent : store.Current p facts) {q : QueryFilter} {scope : String}
    (hscope : scope ∈ scopes p store q) :
    p.execute (p.linesFor facts scope) = .ok ((store.get? ⟨p.name, scope⟩).getD []) := by
  have hright : p.isStoreScoped = true ∨ scope = globalScope := by
    cases hscoped : p.isStoreScoped with
    | true => exact .inl rfl
    | false =>
      unfold scopes at hscope
      rw [hscoped] at hscope
      exact .inr (List.mem_singleton.1 hscope)
  obtain ⟨rows, hexecute, hget⟩ := hcurrent scope hright
  rw [hexecute, hget, RollupStore.content]
  split
  · next hempty =>
    rw [List.isEmpty_iff] at hempty
    rw [hempty]
    rfl
  · rfl

/-- **The answer of the rollup engine** shows the rows of the lines that are asked for, with the
fields that are carried over, unless the request reaches beyond the year 9999. -/
theorem answered_of_execute (hp : p.WellFormed) (hplan : plans.get? r.schema = some p)
    (hfacts : facts.Consistent) (hdates : ∀ f ∈ facts.lines, f.date.IsPlain)
    (hcurrent : store.Current p facts) (hcache : cache.Faithful store p.name)
    (hend : r.filter.EndsPlain) (h : (execute plans store cache r cancelled).1 = .ok a) :
    ∃ kept, carried p.fields (sameDimensions p.groupBy r.dimensions) (p.requiredFields r.fields) =
      .ok kept ∧ Answered p r kept (facts.lines.filter r.filter.matchesFact) a.rows := by
  obtain ⟨haccepted, finished, hregroup, hshown⟩ := regroup_of_execute hplan hcache h
  obtain ⟨base, hbase, hfinished⟩ := Except.bind_eq_ok.1 hregroup
  have hslicing := slicing_of_current hfacts hcurrent r.filter
  have hcover := hslicing.cover hp hfacts.nodup (fun s hs => execute_of_scope hcurrent hs)
    fun row f hf hkey => RowFilter.asksFor_groupKey haccepted hend (hdates f hf) hkey
  obtain ⟨kept, hkept, hof⟩ := regroup_rows hcover hp.names
    (hfacts.nodup.sublist (List.filter_sublist.map _)) (hfacts.whole p.groupBy _) hbase
  exact ⟨kept, hkept, base, finished, hof, hfinished, hshown⟩

/-- **No row is shown** for a request that reaches beyond the year 9999. -/
theorem rows_eq_nil_of_execute (hp : p.WellFormed) (hplan : plans.get? r.schema = some p)
    (hfacts : facts.Consistent) (hdates : ∀ f ∈ facts.lines, f.date.IsPlain)
    (hcurrent : store.Current p facts) (hcache : cache.Faithful store p.name)
    (hend : ¬r.filter.EndsPlain) (h : (execute plans store cache r cancelled).1 = .ok a) :
    a.rows = [] := by
  obtain ⟨haccepted, finished, hregroup, hshown⟩ := regroup_of_execute hplan hcache h
  have hslicing := slicing_of_current hfacts hcurrent r.filter
  have hexecute : ∀ s ∈ scopes p store r.filter,
      p.execute (p.linesFor facts s) = .ok ((store.get? ⟨p.name, s⟩).getD []) :=
    fun s hs => execute_of_scope hcurrent hs
  have hnone : ((scopes p store r.filter).flatMap fun scope =>
      (store.get? ⟨p.name, scope⟩).getD []).filter (RowFilter.asksFor p.groupBy r.filter) = [] := by
    refine List.filter_eq_nil_iff.2 fun row hrow => ?_
    obtain ⟨s, hs, hrow⟩ := List.mem_flatMap.1 hrow
    obtain ⟨f, hf, hkey⟩ := Slicing.exists_line hp hexecute hs hrow
    have hmem := hslicing.mem s hs f hf
    rw [RowFilter.asksFor_eq_false haccepted hend (hdates f hmem) hkey.symm]
    exact Bool.false_ne_true
  rw [hnone] at hregroup
  obtain ⟨base, hbase, hfinished⟩ := Except.bind_eq_ok.1 hregroup
  obtain ⟨_, -, hbase⟩ := Except.bind_eq_ok.1 hbase
  obtain ⟨_, -, hbase⟩ := Except.bind_eq_ok.1 hbase
  obtain rfl := Except.ok.inj hbase
  rw [hshown, ← Except.ok.inj hfinished]
  rfl

end RollupEngine

end RetailReport
