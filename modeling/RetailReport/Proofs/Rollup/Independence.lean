import RetailReport.Proofs.Rollup.Compile
import RetailReport.Proofs.Rollup.FeedOrder
import RetailReport.Proofs.Rollup.Slices

/-!
# Groups do not depend on each other

Lines are taken in one after the other, whichever group they belong to, and the first sum that does
not fit stops everything.  Still the lines of one group have no influence on another one: each sum on
the way is a sum of lines of one group, in the order in which these come.  So a plan computes a row for
a group exactly if it computes it from the lines of that group alone, and it succeeds if it does for
each group.

It follows that groups may be left out, and that a rollup that is grouped by stores may be computed
store by store.

## Main definitions

* `RebuildPlan.finish`: the row of a rollup for an aggregated row.
* `storeOf`, `ofStore`: the store of a group, and the lines of a store.

## Main results

* `RebuildPlan.execute_ofGroup`, `RebuildPlan.exists_execute_iff`: the rows, and whether there are
  any, group by group.
* `RebuildPlan.execute_filter`: groups may be left out.
* `RebuildPlan.execute_parts`: groups that are asked for, and rollups store by store.
-/

namespace RetailReport

/-! ### Lines of a group -/

section Groups

variable {dimensions : List Dimension} {fields : List FieldSpec} {facts : List FactRecord}
  {key key' : GroupKey}

theorem ofGroup_eq_nil (h : key ∉ groupKeys dimensions facts) : ofGroup dimensions facts key = [] :=
  List.filter_eq_nil_iff.2 fun f hf hkey =>
    h (mem_groupKeys.2 ⟨f, hf, of_decide_eq_true hkey⟩)

/-- The lines of a group, among the lines of all groups of some kind. -/
theorem ofGroup_filter (P : GroupKey → Bool) :
    ofGroup dimensions (facts.filter fun f => P (groupKey dimensions f)) key =
      if P key then ofGroup dimensions facts key else [] := by
  unfold ofGroup
  rw [List.filter_filter]
  split
  · next h =>
    refine List.filter_congr fun f _ => ?_
    by_cases hf : groupKey dimensions f = key
    · simp [hf, h]
    · simp [hf]
  · next h =>
    refine List.filter_eq_nil_iff.2 fun f _ hf => h ?_
    obtain ⟨hkey, hP⟩ := Bool.and_eq_true_iff.1 hf
    rwa [← of_decide_eq_true hkey]

theorem ofGroup_ofGroup : ofGroup dimensions (ofGroup dimensions facts key) key' =
    if key' = key then ofGroup dimensions facts key' else [] := by
  have h := @ofGroup_filter dimensions facts key' fun k => decide (k = key)
  simp only [decide_eq_true_eq] at h
  exact h

/-- The groups of some kind. -/
theorem groupKeys_filter (P : GroupKey → Bool) :
    groupKeys dimensions (facts.filter fun f => P (groupKey dimensions f)) =
      (groupKeys dimensions facts).filter P := by
  refine KeyOrder.eq_of_ascending (SortedMap.pairwise_keys _)
    ((SortedMap.pairwise_keys _).filter _) fun k => ?_
  rw [mem_groupKeys, List.mem_filter]
  constructor
  · rintro ⟨f, hf, rfl⟩
    obtain ⟨hf, hP⟩ := List.mem_filter.1 hf
    exact ⟨mem_groupKeys.2 ⟨f, hf, rfl⟩, hP⟩
  · rintro ⟨hk, hP⟩
    obtain ⟨f, hf, rfl⟩ := mem_groupKeys.1 hk
    exact ⟨f, List.mem_filter.2 ⟨hf, hP⟩, rfl⟩

theorem groupKeys_ofGroup (h : key ∈ groupKeys dimensions facts) :
    groupKeys dimensions (ofGroup dimensions facts key) = [key] := by
  refine KeyOrder.eq_of_ascending (SortedMap.pairwise_keys _) (List.pairwise_singleton _ _)
    fun k => ?_
  rw [mem_groupKeys, List.mem_singleton]
  constructor
  · rintro ⟨f, hf, rfl⟩
    exact of_decide_eq_true (List.mem_filter.1 hf).2
  · rintro rfl
    obtain ⟨f, hf, rfl⟩ := mem_groupKeys.1 h
    exact ⟨f, List.mem_filter.2 ⟨hf, decide_eq_true rfl⟩, rfl⟩

end Groups

/-! ### Aggregation group by group -/

theorem FieldSpec.orderFits_nil (field : FieldSpec) : field.OrderFits [] := nofun

namespace Kernel

variable {dimensions : List Dimension} {fields : List FieldSpec} {facts : List FactRecord}

/-- The sums of orders that come up on the way are those of each group. -/
theorem sumsFit_iff : SumsFit dimensions fields facts ↔
    ∀ key, SumsFit dimensions fields (ofGroup dimensions facts key) := by
  constructor
  · intro h key taken htaken key' id field hfield
    -- What has been taken in of a group is what the lines taken in so far have of it.
    obtain ⟨taken', htaken', rfl⟩ := List.prefix_filter_iff.1 htaken
    change field.OrderFits (ofOrder (ofGroup dimensions (ofGroup dimensions taken' key) key') id)
    rw [ofGroup_ofGroup]
    split
    · exact h taken' htaken' key' id field hfield
    · exact field.orderFits_nil
  · intro h taken htaken key id field hfield
    have hgroup := h key (ofGroup dimensions taken key) (htaken.filter _) key id field hfield
    rwa [ofGroup_ofGroup, if_pos rfl] at hgroup

/-- The sums of groups that come up on the way are those of each group. -/
theorem totalsFit_iff : TotalsFit dimensions fields facts ↔
    ∀ key, TotalsFit dimensions fields (ofGroup dimensions facts key) := by
  constructor
  · intro h key key' hkey'
    obtain ⟨f, hf, rfl⟩ := mem_groupKeys.1 hkey'
    obtain ⟨hf, hkey⟩ := List.mem_filter.1 hf
    rw [ofGroup_ofGroup, if_pos (of_decide_eq_true hkey)]
    exact h _ (mem_groupKeys.2 ⟨f, hf, rfl⟩)
  · intro h key hkey
    have hgroup := h key key (by simp [groupKeys_ofGroup hkey])
    rwa [ofGroup_ofGroup, if_pos rfl] at hgroup

/-- **Aggregation succeeds** exactly if it does for the lines of each group. -/
theorem exists_aggregate_iff_ofGroup :
    (∃ rows, aggregate dimensions fields facts none = .ok rows) ↔
      ∀ key, ∃ rows, aggregate dimensions fields (ofGroup dimensions facts key) none = .ok rows := by
  simp only [exists_aggregate_iff]
  rw [sumsFit_iff, totalsFit_iff, forall_and]

/-- **Each row comes from the lines of its group** alone. -/
theorem aggregate_ofGroup (hnames : (fields.map (·.name)).Nodup) {rows : List AggregateRow}
    (h : aggregate dimensions fields facts none = .ok rows) {row : AggregateRow} (hrow : row ∈ rows) :
    aggregate dimensions fields (ofGroup dimensions facts row.key) none = .ok [row] := by
  have hrows := aggregate_rows hnames h
  have hkey : row.key ∈ groupKeys dimensions facts := hrows.keys ▸ List.mem_map_of_mem hrow
  have hsingle : Rows dimensions fields (ofGroup dimensions facts row.key) [row] := by
    refine ⟨(groupKeys_ofGroup hkey).symm, fun row' hrow' => ?_⟩
    obtain rfl := List.mem_singleton.1 hrow'
    rw [ofGroup_ofGroup, if_pos rfl]
    exact hrows.values row' hrow
  obtain ⟨rows', hrows'⟩ := exists_aggregate_iff_ofGroup.1 ⟨rows, h⟩ row.key
  rw [hrows', (aggregate_rows hnames hrows').unique hsingle]

end Kernel

/-! ### Plans group by group -/

namespace RebuildPlan

variable {p : RebuildPlan} {facts : List FactRecord} {rows : List RollupRow}

/-- The row of the rollup for an aggregated row. -/
def finish (p : RebuildPlan) (row : AggregateRow) : Except AggregationError RollupRow :=
  (p.finalize row.values).map fun values => { schema := p.name, key := row.key, values }

theorem key_of_finish {row : AggregateRow} {r : RollupRow} (h : p.finish row = .ok r) :
    r.key = row.key := by
  obtain ⟨values, -, rfl⟩ := Except.map_eq_ok.1 h
  rfl

theorem finalizeRows_map (base : List AggregateRow) :
    (do let finished ← p.finalizeRows base
        return finished.map fun (row : AggregateRow) =>
          ({ schema := p.name, key := row.key, values := row.values } : RollupRow)) =
      base.mapM p.finish := by
  induction base with
  | nil => rfl
  | cons row base ih =>
    rw [List.mapM_cons, ← ih, finish, finalizeRows, List.mapM_cons]
    cases p.finalize row.values with
    | error e => rfl
    | ok values =>
      change (do
        let finished ← (do
          let rest ← p.finalizeRows base
          return ({ row with values } : AggregateRow) :: rest)
        return finished.map fun (row : AggregateRow) =>
          ({ schema := p.name, key := row.key, values := row.values } : RollupRow)) = _
      cases p.finalizeRows base with
      | error e => rfl
      | ok rest => rfl

/-- Rows are aggregated first and finished one by one. -/
theorem execute_eq (keys : Option (KeySet GroupKey)) :
    p.execute facts keys =
      Kernel.aggregate p.dimensions p.fields facts keys >>= fun base => base.mapM p.finish := by
  simp only [← finalizeRows_map]
  unfold execute aggregate
  cases Kernel.aggregate p.dimensions p.fields facts keys <;> rfl

/-- **Each row comes from the lines of its group** alone. -/
theorem execute_ofGroup (hp : p.WellFormed) (h : p.execute facts = .ok rows) {r : RollupRow}
    (hr : r ∈ rows) : p.execute (ofGroup p.dimensions facts r.key) = .ok [r] := by
  rw [execute_eq] at h ⊢
  obtain ⟨base, hbase, h⟩ := Except.bind_eq_ok.1 h
  obtain ⟨row, hrow, hfinish⟩ := List.exists_of_mem_mapM_eq_ok h hr
  refine Except.bind_eq_ok.2 ⟨[row], ?_, List.mapM_eq_ok.2 (.cons hfinish .nil)⟩
  rw [key_of_finish hfinish]
  exact Kernel.aggregate_ofGroup hp.names hbase hrow

/-- **A plan succeeds** exactly if it does for the lines of each group. -/
theorem exists_execute_iff (hp : p.WellFormed) : (∃ rows, p.execute facts = .ok rows) ↔
    ∀ key, ∃ rows, p.execute (ofGroup p.dimensions facts key) = .ok rows := by
  constructor
  · rintro ⟨rows, h⟩ key
    by_cases hkey : key ∈ groupKeys p.dimensions facts
    · rw [← keys_of_execute h] at hkey
      obtain ⟨r, hr, rfl⟩ := List.mem_map.1 hkey
      exact ⟨[r], execute_ofGroup hp h hr⟩
    · rw [ofGroup_eq_nil hkey]
      exact ⟨[], p.execute_nil⟩
  · intro h
    simp only [execute_eq, Except.exists_bind_eq_ok] at h ⊢
    obtain ⟨base, hbase⟩ := Kernel.exists_aggregate_iff_ofGroup.2 fun key =>
      (h key).imp fun _ hk => hk.1
    refine ⟨base, hbase, List.exists_mapM_eq_ok_iff.2 fun row hrow => ?_⟩
    obtain ⟨base', hbase', hfinished⟩ := h row.key
    obtain rfl := Except.ok.inj ((Kernel.aggregate_ofGroup hp.names hbase hrow).symm.trans hbase')
    exact List.exists_mapM_eq_ok_iff.1 hfinished row (List.mem_singleton_self row)

/-- Rows are told apart by their keys if each of them comes from the lines of its group. -/
theorem rows_eq_of_keys {rows' : List RollupRow} (group : GroupKey → List FactRecord)
    (hkeys : rows.map (·.key) = rows'.map (·.key))
    (h : ∀ r ∈ rows, p.execute (group r.key) = .ok [r])
    (h' : ∀ r ∈ rows', p.execute (group r.key) = .ok [r]) : rows = rows' := by
  have hmap {l : List RollupRow} (hl : ∀ r ∈ l, p.execute (group r.key) = .ok [r]) :
      l.map (fun r => (.ok [r] : Except AggregationError (List RollupRow))) =
        (l.map (·.key)).map fun key => p.execute (group key) := by
    rw [List.map_map]
    exact List.map_congr_left fun r hr => (hl r hr).symm
  refine List.map_injective_iff.2 (fun r r' hr => ?_) ((hmap h).trans (hkeys ▸ (hmap h').symm))
  exact List.singleton_inj.1 (Except.ok.inj hr)

/-- **Groups may be left out**: the lines of the groups of some kind give the rows of these. -/
theorem execute_filter (hp : p.WellFormed) (h : p.execute facts = .ok rows) (P : GroupKey → Bool) :
    p.execute (facts.filter fun f => P (groupKey p.dimensions f)) =
      .ok (rows.filter fun r => P r.key) := by
  obtain ⟨rows', hrows'⟩ : ∃ rows',
      p.execute (facts.filter fun f => P (groupKey p.dimensions f)) = .ok rows' := by
    refine (exists_execute_iff hp).2 fun key => ?_
    rw [ofGroup_filter]
    split
    · exact (exists_execute_iff hp).1 ⟨rows, h⟩ key
    · exact ⟨[], p.execute_nil⟩
  have hkeys : rows'.map (·.key) = (rows.filter fun r => P r.key).map (·.key) := by
    rw [keys_of_execute hrows', groupKeys_filter, ← keys_of_execute h, List.filter_map]
    rfl
  have hsame : rows' = rows.filter fun r => P r.key := by
    refine rows_eq_of_keys (p := p) (ofGroup p.dimensions facts) hkeys (fun r hr => ?_)
      fun r hr => execute_ofGroup hp h (List.mem_filter.1 hr).1
    have hP : P r.key = true := by
      have hkey : r.key ∈ rows'.map (·.key) := List.mem_map_of_mem hr
      rw [hkeys] at hkey
      obtain ⟨r', hr', hkey⟩ := List.mem_map.1 hkey
      exact hkey ▸ (List.mem_filter.1 hr').2
    have hgroup := execute_ofGroup hp hrows' hr
    rwa [ofGroup_filter, if_pos hP] at hgroup
  rw [hrows', hsame]

/-- The groups that are asked for. -/
theorem execute_keys (hp : p.WellFormed) (h : p.execute facts = .ok rows) (keys : KeySet GroupKey) :
    p.execute facts (some keys) = .ok (rows.filter fun r => keys.contains r.key) := by
  rw [← execute_filter hp h, execute_eq, execute_eq, Kernel.aggregate_eq_wantedLines]
  rfl

end RebuildPlan

/-! ### Stores -/

/-- The store of a group, if lines are grouped by stores. -/
def storeOf (dimensions : List Dimension) (key : GroupKey) : Option String :=
  key[dimensions.idxOf .storeId]?

theorem storeOf_groupKey {dimensions : List Dimension} (h : .storeId ∈ dimensions) (f : FactRecord) :
    storeOf dimensions (groupKey dimensions f) = some f.storeId := by
  rw [storeOf, groupKey, List.getElem?_map, List.getElem?_eq_getElem (List.idxOf_lt_length_iff.2 h),
    List.getElem_idxOf]
  rfl

/-- The lines of a store. -/
def ofStore (facts : List FactRecord) (storeId : String) : List FactRecord :=
  facts.filter fun f => f.storeId = storeId

/-- The stores of some lines, ascending. -/
def storeIds (facts : List FactRecord) : List String :=
  (KeySet.ofList (facts.map (·.storeId))).members

theorem mem_storeIds {facts : List FactRecord} {storeId : String} :
    storeId ∈ storeIds facts ↔ ∃ f ∈ facts, f.storeId = storeId := by
  rw [storeIds, KeySet.mem_ofList, List.mem_map]

namespace RebuildPlan

variable {p : RebuildPlan} {facts : List FactRecord} {rows : List RollupRow}

/-- If lines are grouped by stores, the lines of a store are those of some groups. -/
theorem ofStore_eq (hstore : .storeId ∈ p.dimensions) (storeId : String) :
    ofStore facts storeId = facts.filter fun f =>
      decide (storeOf p.dimensions (groupKey p.dimensions f) = some storeId) := by
  simp only [storeOf_groupKey hstore, Option.some.injEq]
  rfl

/-- The rows of a store. -/
theorem execute_ofStore (hp : p.WellFormed) (hstore : .storeId ∈ p.dimensions)
    (h : p.execute facts = .ok rows) (storeId : String) :
    p.execute (ofStore facts storeId) =
      .ok (rows.filter fun r => decide (storeOf p.dimensions r.key = some storeId)) := by
  rw [ofStore_eq hstore]
  exact execute_filter hp h fun key => decide (storeOf p.dimensions key = some storeId)

/-- **A plan succeeds** exactly if it does for the lines of each store. -/
theorem exists_execute_iff_ofStore (hp : p.WellFormed) (hstore : .storeId ∈ p.dimensions) :
    (∃ rows, p.execute facts = .ok rows) ↔
      ∀ storeId ∈ storeIds facts, ∃ rows, p.execute (ofStore facts storeId) = .ok rows := by
  constructor
  · rintro ⟨rows, h⟩ storeId -
    exact ⟨_, execute_ofStore hp hstore h storeId⟩
  · intro h
    refine (exists_execute_iff hp).2 fun key => ?_
    by_cases hkey : key ∈ groupKeys p.dimensions facts
    · obtain ⟨f, hf, rfl⟩ := mem_groupKeys.1 hkey
      -- The group of a line lies within the store of the line.
      have hgroup := (exists_execute_iff hp).1 (h f.storeId (mem_storeIds.2 ⟨f, hf, rfl⟩))
        (groupKey p.dimensions f)
      rw [ofStore_eq hstore, ofGroup_filter (fun key =>
        decide (storeOf p.dimensions key = some f.storeId)),
        if_pos (decide_eq_true (storeOf_groupKey hstore f))] at hgroup
      exact hgroup
    · rw [ofGroup_eq_nil hkey]
      exact ⟨[], p.execute_nil⟩

/-- The rows are in the order of their keys. -/
theorem pairwise_of_execute (h : p.execute facts = .ok rows) :
    rows.Pairwise fun r r' => r.key < r'.key := by
  have hkeys : (rows.map (·.key)).Pairwise (· < ·) := by
    rw [keys_of_execute h]
    exact SortedMap.pairwise_keys _
  exact List.pairwise_map.1 hkeys

/-- **The rows of all stores together** are the rows. -/
theorem perm_flatMap_ofStore (hp : p.WellFormed) (hstore : .storeId ∈ p.dimensions)
    (h : p.execute facts = .ok rows) {part : String → List RollupRow}
    (hpart : ∀ storeId ∈ storeIds facts, p.execute (ofStore facts storeId) = .ok (part storeId)) :
    rows.Perm ((storeIds facts).flatMap part) := by
  have hmem {storeId : String} (hs : storeId ∈ storeIds facts) {r : RollupRow} :
      r ∈ part storeId ↔ r ∈ rows ∧ storeOf p.dimensions r.key = some storeId := by
    have he := (hpart storeId hs).symm.trans (execute_ofStore hp hstore h storeId)
    rw [Except.ok.inj he, List.mem_filter, decide_eq_true_eq]
  have hrows : rows.Nodup := .of_map (·.key) (keys_of_execute h ▸ KeySet.nodup_members _)
  have hparts : ((storeIds facts).flatMap part).Nodup := by
    refine List.nodup_flatMap.2 ⟨fun storeId hs => ?_, ?_⟩
    · rw [Except.ok.inj ((hpart storeId hs).symm.trans (execute_ofStore hp hstore h storeId))]
      exact hrows.filter _
    · refine (KeySet.nodup_members _).imp_of_mem fun hs hs' hne r hr hr' => hne ?_
      exact Option.some.inj (((hmem hs).1 hr).2.symm.trans ((hmem hs').1 hr').2)
  refine (List.perm_ext_iff_of_nodup hrows hparts).2 fun r => ?_
  rw [List.mem_flatMap]
  constructor
  · intro hr
    have hkey : r.key ∈ groupKeys p.dimensions facts :=
      keys_of_execute h ▸ List.mem_map_of_mem hr
    obtain ⟨f, hf, hkey⟩ := mem_groupKeys.1 hkey
    have hs : f.storeId ∈ storeIds facts := mem_storeIds.2 ⟨f, hf, rfl⟩
    exact ⟨f.storeId, hs, (hmem hs).2 ⟨hr, hkey ▸ storeOf_groupKey hstore f⟩⟩
  · rintro ⟨storeId, hs, hr⟩
    exact ((hmem hs).1 hr).1

/-- **A plan computes its groups on their own.**  If only some groups are asked for, it gives the rows
of these.  If it is grouped by stores, it succeeds exactly if it does for the lines of each store, and
its rows are those of all stores together, in the order of their keys; no two stores share a key. -/
theorem execute_parts {schema : RollupSchema} {catalog : Catalog} {formulas : FormulaTable}
    (h : Compile.compile schema catalog formulas = .ok p) (facts : List FactRecord) :
    (∀ rows, p.execute facts = .ok rows → ∀ keys : KeySet GroupKey,
      p.execute facts (some keys) = .ok (rows.filter fun r => keys.contains r.key)) ∧
    (p.isStoreScoped = true →
      ((∃ rows, p.execute facts = .ok rows) ↔
        ∀ storeId ∈ storeIds facts, ∃ rows, p.execute (ofStore facts storeId) = .ok rows) ∧
      ∀ (rows : List RollupRow) (part : String → List RollupRow), p.execute facts = .ok rows →
        (∀ storeId ∈ storeIds facts, p.execute (ofStore facts storeId) = .ok (part storeId)) →
        rows.Perm ((storeIds facts).flatMap part) ∧
        rows.Pairwise (fun r r' => r.key < r'.key) ∧
        ∀ storeId ∈ storeIds facts, ∀ storeId' ∈ storeIds facts, storeId ≠ storeId' →
          ∀ r ∈ part storeId, ∀ r' ∈ part storeId', r.key ≠ r'.key) := by
  have hp := wellFormed_of_compile h
  refine ⟨fun rows hrows => execute_keys hp hrows, fun hscope => ?_⟩
  have hstore : .storeId ∈ p.dimensions := hp.dimensions ▸ List.contains_iff_mem.1 hscope
  refine ⟨exists_execute_iff_ofStore hp hstore, fun rows part hrows hpart =>
    ⟨perm_flatMap_ofStore hp hstore hrows hpart, pairwise_of_execute hrows, ?_⟩⟩
  intro storeId hs storeId' hs' hne r hr r' hr' hkey
  -- The key of a row tells the store of its lines.
  have hof {storeId : String} (hs : storeId ∈ storeIds facts) {r : RollupRow}
      (hr : r ∈ part storeId) : storeOf p.dimensions r.key = some storeId := by
    have he := (hpart storeId hs).symm.trans (execute_ofStore hp hstore hrows storeId)
    rw [Except.ok.inj he] at hr
    exact of_decide_eq_true (List.mem_filter.1 hr).2
  exact hne (Option.some.inj ((hof hs hr).symm.trans (hkey ▸ hof hs' hr')))

/-- Revenue by channel and store. -/
def channelRevenue : RollupSchema :=
  { Compile.revenueSchema [] with groupBy := [.channel, .storeId] }

/-- A line of one store, and two lines of another one in two channels. -/
def channelLines : List FactRecord :=
  [{ Kernel.pricedLine "r1" 5 with storeId := "S2" }, Kernel.pricedLine "r2" 7,
    { Kernel.pricedLine "r3" 1 with channel := "POS" }]

/-- Three groups, of which two are of one store. -/
theorem execute_parts_channelRevenue : ∃ p rows,
    Compile.compile channelRevenue Compile.priceCatalog .builtins = .ok p ∧
    p.isStoreScoped = true ∧ storeIds channelLines = ["S1", "S2"] ∧
    p.execute channelLines = .ok rows ∧
    rows.map (·.key) = [["APP", "S1"], ["APP", "S2"], ["POS", "S1"]] ∧
    p.execute channelLines (some (.ofList [["POS", "S1"]])) =
      .ok (rows.filter fun r => (KeySet.ofList [["POS", "S1"]]).contains r.key) ∧
    ∃ first second, p.execute (ofStore channelLines "S1") = .ok first ∧
      p.execute (ofStore channelLines "S2") = .ok second ∧ rows.Perm (first ++ second) := by
  obtain ⟨p, hp, hscope, hkeys⟩ : ∃ p,
      Compile.compile channelRevenue Compile.priceCatalog .builtins = .ok p ∧
      p.isStoreScoped = true ∧ (p.execute channelLines).toOption.map (fun rows => rows.map (·.key)) =
        some [["APP", "S1"], ["APP", "S2"], ["POS", "S1"]] := Except.exists_ok (by decide +kernel)
  obtain ⟨hasked, hparts⟩ := execute_parts hp channelLines
  obtain ⟨hiff, hall⟩ := hparts hscope
  have hids : storeIds channelLines = ["S1", "S2"] := by decide +kernel
  cases hrows : p.execute channelLines with
  | error e => rw [hrows] at hkeys; cases hkeys
  | ok rows =>
    rw [hrows] at hkeys
    obtain ⟨first, hfirst⟩ := hiff.1 ⟨rows, hrows⟩ "S1" (by simp [hids])
    obtain ⟨second, hsecond⟩ := hiff.1 ⟨rows, hrows⟩ "S2" (by simp [hids])
    have hperm := (hall rows (fun storeId => if storeId = "S1" then first else second) hrows
      (by simp [hids, hfirst, hsecond])).1
    rw [hids] at hperm
    exact ⟨p, rows, hp, hscope, hids, hrows, Option.some.inj hkeys, hasked rows hrows _, first,
      second, hfirst, hsecond, by simpa using hperm⟩

end RebuildPlan

end RetailReport
