import RetailReport.Proofs.Rollup.Kernel
import RetailReport.Rollup.Regroup

/-!
# Grouping again

Rows that stand for some lines are grouped again: the rows of a new group stand for the lines of
that group.  The fields that are carried over can be merged, since the groups of a rollup never tear
an order apart; when all dimensions stay, no two rows meet and nothing has to be merged.

## Main definitions

* `Regroup.Cover`: rows that stand for some lines, one row for each group.
* `Regroup.Whole`: no order of some lines is torn apart by a grouping.

## Main results

* `FieldSpec.Worth.merge`: merged values are the values of the lines together.
* `Regroup.regroup_rows`: grouping rows again gives the rows of their lines.
-/

namespace RetailReport

/-! ### Merged values -/

namespace FieldSpec

variable {field : FieldSpec} {orders orders' : List (List FactRecord)} {m m' merged : Metric}

theorem amountOver_append (field : FieldSpec) (orders orders' : List (List FactRecord)) :
    field.amountOver (orders ++ orders') =
      (field.amountOver orders).merge field.orderOp (field.amountOver orders') := by
  unfold amountOver
  rw [List.filterMap_append, reduce_append]

theorem amountOver_perm (h : orders.Perm orders') :
    field.amountOver orders = field.amountOver orders' := reduce_perm (h.filterMap _)

/-- Where no order comes first, the orders may come in any order. -/
theorem Over.perm (hagg : field.agg.isMergeable = true) (hm : field.Over orders m)
    (h : orders.Perm orders') : field.Over orders' m := by
  unfold Over at hm ⊢
  cases hfield : field.agg with
  | sum | max | min =>
    simp only [hfield] at hm ⊢
    rwa [← amountOver_perm h]
  | count =>
    simp only [hfield] at hm ⊢
    rw [hm, (h.map _).sum_nat]
  | countDistinct | first => simp [hfield, AggFunc.isMergeable] at hagg

theorem over_of_merge_sum (hagg : field.agg = .sum) (hm : field.Over orders m)
    (hm' : field.Over orders' m') (h : Regroup.mergeValue field m m' = .ok merged) :
    field.Over (orders ++ orders') merged := by
  simp only [Regroup.mergeValue, hagg] at h
  simp only [Over, hagg] at hm hm' ⊢
  obtain ⟨a, rfl, ha⟩ := hm
  obtain ⟨b, rfl, hb⟩ := hm'
  obtain ⟨total, htotal, rfl⟩ := Except.map_eq_ok.1 h
  refine ⟨total, rfl, ?_⟩
  have hadd : total.raw = a.raw + b.raw := by
    beta_reduce at htotal
    cases hsum : a.add? b with
    | none => rw [hsum] at htotal; cases htotal
    | some t =>
      rw [hsum] at htotal
      rw [← Except.ok.inj htotal, Amount.add?_eq_some.1 hsum]
  rw [hadd, ha, hb, amountOver_append, orderOp, hagg]
  cases field.amountOver orders <;> cases field.amountOver orders' <;> simp

theorem over_of_merge_extreme {both : Amount → Amount → Amount}
    (hover : ∀ orders m, field.Over orders m ↔ m.Is (field.amountOver orders))
    (hboth : ∀ a b, (both a b).raw = field.orderOp a.raw b.raw) (hm : field.Over orders m)
    (hm' : field.Over orders' m')
    (h : Regroup.mergeAmounts (fun x y => .ok (both x y)) m m' = .ok merged) :
    field.Over (orders ++ orders') merged := by
  rw [hover] at hm hm' ⊢
  rw [amountOver_append]
  cases ha : field.amountOver orders with
  | none =>
    rw [ha] at hm
    subst hm
    cases hb : field.amountOver orders' with
    | none =>
      rw [hb] at hm'
      subst hm'
      exact (Except.ok.inj h).symm
    | some y =>
      rw [hb] at hm'
      obtain ⟨b, rfl, hraw⟩ := hm'
      exact ⟨b, (Except.ok.inj h).symm, hraw⟩
  | some x =>
    rw [ha] at hm
    obtain ⟨a, rfl, hraw⟩ := hm
    cases hb : field.amountOver orders' with
    | none =>
      rw [hb] at hm'
      subst hm'
      exact ⟨a, (Except.ok.inj h).symm, hraw⟩
    | some y =>
      rw [hb] at hm'
      obtain ⟨b, rfl, hraw'⟩ := hm'
      refine ⟨both a b, (Except.ok.inj h).symm, ?_⟩
      rw [hboth, hraw, hraw']

/-- The values of two sets of orders make the value of both together. -/
theorem Over.merge (hagg : field.agg.isMergeable = true) (hm : field.Over orders m)
    (hm' : field.Over orders' m') (h : Regroup.mergeValue field m m' = .ok merged) :
    field.Over (orders ++ orders') merged := by
  cases hfield : field.agg with
  | sum => exact over_of_merge_sum hfield hm hm' h
  | count =>
    simp only [Regroup.mergeValue, hfield] at h
    simp only [Over, hfield] at hm hm' ⊢
    subst hm hm'
    split at h
    · rw [← Except.ok.inj h]
      simp [Metric.count?]
    · cases h
  | max =>
    simp only [Regroup.mergeValue, hfield] at h
    refine over_of_merge_extreme (fun _ _ => ?_) (fun a b => ?_) hm hm' h
    · simp only [Over, hfield]
    · rw [orderOp, hfield, Amount.raw_max]
  | min =>
    simp only [Regroup.mergeValue, hfield] at h
    refine over_of_merge_extreme (fun _ _ => ?_) (fun a b => ?_) hm hm' h
    · simp only [Over, hfield]
    · rw [orderOp, hfield, Amount.raw_min]
  | countDistinct | first => simp [hfield, AggFunc.isMergeable] at hagg

/-- **Merged values are the values of the lines together**, if these share no order. -/
theorem Worth.merge {l l' : List FactRecord} (hagg : field.agg.isMergeable = true)
    (hm : field.Worth l m) (hm' : field.Worth l' m') (horders : NoSharedOrder l l')
    (h : Regroup.mergeValue field m m' = .ok merged) : field.Worth (l ++ l') merged :=
  (Over.merge hagg hm hm' h).perm hagg (perOrder_append horders).symm

end FieldSpec

/-! ### Keys of both groupings -/

theorem groupKey_eq_iff {dimensions : List Dimension} {f g : FactRecord} :
    groupKey dimensions f = groupKey dimensions g ↔
      ∀ d ∈ dimensions, d.extract f = d.extract g := List.map_inj_left

namespace Regroup

variable {source target : List Dimension} {fields : List FieldSpec} {facts : List FactRecord}
  {at_ : List Nat}

/-- The key of a line for fewer dimensions is part of its key. -/
theorem project_groupKey (h : positions source target = .ok at_) (f : FactRecord) :
    GroupKey.project (groupKey source f) at_ = groupKey target f := by
  unfold positions at h
  rw [List.mapM_eq_ok] at h
  unfold GroupKey.project groupKey
  induction h with
  | nil => rfl
  | @cons d i target at_ hd _ ih =>
    rw [List.map_cons, List.map_cons, ih]
    congr 1
    cases hi : source.idxOf? d with
    | none => rw [hi] at hd; cases hd
    | some j =>
      rw [hi] at hd
      obtain rfl : j = i := Except.ok.inj hd
      obtain ⟨hj, hget, -⟩ := List.idxOf?_eq_some_iff.1 hi
      rw [List.getD_eq_getElem?_getD, List.getElem?_map, List.getElem?_eq_getElem hj, hget]
      rfl

/-- When all dimensions stay, no two keys become one. -/
theorem groupKey_inj_of_sameDimensions (h : sameDimensions source target = true) {f g : FactRecord}
    (e : groupKey target f = groupKey target g) : groupKey source f = groupKey source g := by
  rw [groupKey_eq_iff] at e ⊢
  intro d hd
  have hall := (Bool.and_eq_true_iff.1 h).1
  exact e d (List.contains_iff_mem.1 (List.all_eq_true.1 hall d hd))

/-- No order is torn apart by a grouping. -/
def Whole (dimensions : List Dimension) (facts : List FactRecord) : Prop :=
  ∀ f ∈ facts, ∀ g ∈ facts, f.orderId = g.orderId → groupKey dimensions f = groupKey dimensions g

/-- Lines that agree on where, how and when their order was placed are in one group. -/
theorem groupKey_eq_of_sameHead {dimensions : List Dimension} {f g : FactRecord}
    (h : f.storeId = g.storeId ∧ f.channel = g.channel ∧ f.timestamp = g.timestamp) :
    groupKey dimensions f = groupKey dimensions g := by
  obtain ⟨hstore, hchannel, htime⟩ := h
  rw [groupKey_eq_iff]
  intro d _
  cases d <;> simp only [Dimension.extract, hstore, hchannel, htime]

/-- **Rows that stand for some lines**: one for each group, with the values of its lines. -/
structure Cover (dimensions : List Dimension) (fields : List FieldSpec) (facts : List FactRecord)
    (rows : List (GroupKey × Values)) : Prop where
  /-- Each group has one row. -/
  nodup : (rows.map Prod.fst).Nodup
  /-- The groups are those of the lines. -/
  keys : ∀ key, key ∈ rows.map Prod.fst ↔ ∃ f ∈ facts, groupKey dimensions f = key
  /-- The values of a group are those of its lines. -/
  worth : ∀ row ∈ rows, ∀ field ∈ fields, ∃ m, row.2.get? field.name = some m ∧
    field.Worth (ofGroup dimensions facts row.1) m

/-- The lines that some rows stand for, of those that make up a new group. -/
def linesInto (source : List Dimension) (at_ : List Nat) (facts : List FactRecord)
    (rows : List (GroupKey × Values)) (key : GroupKey) : List FactRecord :=
  (rows.filter fun row => GroupKey.project row.1 at_ = key).flatMap fun row =>
    ofGroup source facts row.1

/-! ### One more row -/

theorem valueOf_of_get? {values : Values} {field : FieldSpec} {m : Metric}
    (h : values.get? field.name = some m) : valueOf values field = m := by
  rw [valueOf, SortedMap.getD, h, Option.getD_some]

theorem initial_of {row : GroupKey × Values} {l : List FactRecord}
    (hnames : (fields.map (·.name)).Nodup)
    (hworth : ∀ field ∈ fields, ∃ m, row.2.get? field.name = some m ∧ field.Worth l m) :
    (initial fields row.2).Of fields l := by
  have hkeys : (fields.map fun f => (f.name, valueOf row.2 f)).map Prod.fst =
      fields.map (·.name) := by
    rw [List.map_map]
    rfl
  refine ⟨fun field hfield => ?_, fun name hname => ?_⟩
  · obtain ⟨m, hm, hw⟩ := hworth field hfield
    refine ⟨m, ?_, hw⟩
    rw [← valueOf_of_get? hm]
    exact SortedMap.get?_ofList_of_mem (hkeys ▸ hnames)
      (List.mem_map.2 ⟨field, hfield, rfl⟩)
  · exact SortedMap.get?_ofList_of_notMem (hkeys ▸ hname)

/-- The fields of two rows are merged one by one. -/
theorem mergeRow_spec {group values out : Values} (hnames : (fields.map (·.name)).Nodup)
    (h : mergeRow fields group values = .ok out) :
    (∀ field ∈ fields, ∃ m, mergeValue field (valueOf group field) (valueOf values field) = .ok m ∧
      out.get? field.name = some m) ∧
    ∀ name, name ∉ fields.map (·.name) → out.get? name = group.get? name := by
  induction fields generalizing group with
  | nil =>
    cases h
    exact ⟨fun _ hfield => absurd hfield List.not_mem_nil, fun _ _ => rfl⟩
  | cons field fields ih =>
    rw [List.map_cons, List.nodup_cons] at hnames
    rw [mergeRow, List.foldlM_cons] at h
    obtain ⟨next, hnext, h⟩ := Except.bind_eq_ok.1 h
    obtain ⟨m, hm, hnext⟩ := Except.bind_eq_ok.1 hnext
    cases hnext
    obtain ⟨hfields, hother⟩ := ih hnames.2 h
    refine ⟨fun g hg => ?_, fun name hname => ?_⟩
    · rcases List.mem_cons.1 hg with rfl | hg
      · exact ⟨m, hm, by rw [hother _ hnames.1, SortedMap.get?_insert_self]⟩
      · obtain ⟨m', hm', hout⟩ := hfields g hg
        have hne : g.name ≠ field.name := fun e =>
          hnames.1 (List.mem_map.2 ⟨g, hg, e⟩)
        rw [valueOf, SortedMap.getD_insert, if_neg hne] at hm'
        exact ⟨m', hm', hout⟩
    · rw [List.map_cons, List.mem_cons, not_or] at hname
      rw [hother _ hname.2, SortedMap.get?_insert, if_neg hname.1]

/-- A row that is merged into a group adds its lines. -/
theorem mergeRow_of {group values out : Values} {l l' : List FactRecord}
    (hnames : (fields.map (·.name)).Nodup) (hmergeable : ∀ field ∈ fields, field.agg.isMergeable)
    (hgroup : group.Of fields l)
    (hworth : ∀ field ∈ fields, ∃ m, values.get? field.name = some m ∧ field.Worth l' m)
    (horders : NoSharedOrder l l') (h : mergeRow fields group values = .ok out) :
    out.Of fields (l ++ l') := by
  obtain ⟨hfields, hother⟩ := mergeRow_spec hnames h
  refine ⟨fun field hfield => ?_, fun name hname => ?_⟩
  · obtain ⟨merged, hmerged, hout⟩ := hfields field hfield
    obtain ⟨m, hm, hw⟩ := hgroup.worth field hfield
    obtain ⟨m', hm', hw'⟩ := hworth field hfield
    rw [valueOf_of_get? hm, valueOf_of_get? hm'] at hmerged
    exact ⟨merged, hout, hw.merge (hmergeable field hfield) hw' horders hmerged⟩
  · rw [hother name hname, hgroup.only name hname]

/-! ### All rows -/

/-- **What has been grouped again** stands for the lines of the rows so far. -/
structure Groups (source : List Dimension) (at_ : List Nat) (fields : List FieldSpec)
    (facts : List FactRecord) (rows : List (GroupKey × Values))
    (groups : SortedMap GroupKey Values) : Prop where
  /-- The groups are those of the rows. -/
  keys : ∀ key, key ∈ groups.keys ↔ ∃ row ∈ rows, GroupKey.project row.1 at_ = key
  /-- The values of a group are those of its lines. -/
  values : ∀ key values, groups.get? key = some values →
    values.Of fields (linesInto source at_ facts rows key)

theorem Groups.empty : Groups source at_ fields facts [] .empty where
  keys key := by simp [SortedMap.keys]
  values key values h := by cases h

theorem linesInto_concat (rows : List (GroupKey × Values)) (row : GroupKey × Values)
    (key : GroupKey) :
    linesInto source at_ facts (rows ++ [row]) key = linesInto source at_ facts rows key ++
      if GroupKey.project row.1 at_ = key then ofGroup source facts row.1 else [] := by
  unfold linesInto
  rw [List.filter_append, List.flatMap_append]
  by_cases h : GroupKey.project row.1 at_ = key
  · simp [h]
  · simp [h]

theorem mem_linesInto {rows : List (GroupKey × Values)} {key : GroupKey} {f : FactRecord} :
    f ∈ linesInto source at_ facts rows key ↔ f ∈ facts ∧ groupKey source f ∈ rows.map Prod.fst ∧
      GroupKey.project (groupKey source f) at_ = key := by
  unfold linesInto ofGroup
  simp only [List.mem_flatMap, List.mem_filter, decide_eq_true_eq, List.mem_map]
  constructor
  · rintro ⟨row, ⟨hrow, hkey⟩, hf, e⟩
    exact ⟨hf, ⟨row, hrow, e.symm⟩, e ▸ hkey⟩
  · rintro ⟨hf, ⟨row, hrow, e⟩, hkey⟩
    exact ⟨row, ⟨hrow, e ▸ hkey⟩, hf, e.symm⟩

/-- Rows of different groups stand for lines that share no order. -/
theorem noSharedOrder (hwhole : Whole source facts) {rows : List (GroupKey × Values)}
    {row : GroupKey × Values} (hrow : row.1 ∉ rows.map Prod.fst) (key : GroupKey) :
    NoSharedOrder (linesInto source at_ facts rows key) (ofGroup source facts row.1) := by
  intro f hf g hg horder
  obtain ⟨hf, hmem, -⟩ := mem_linesInto.1 hf
  obtain ⟨hg, hkey⟩ := List.mem_filter.1 hg
  rw [hwhole f hf g hg horder, of_decide_eq_true hkey] at hmem
  exact hrow hmem

/-- **One more row**: it opens a new group, or its lines join those of a group.  The latter happens
only if the fields can be merged. -/
theorem Groups.addRow {rows : List (GroupKey × Values)} {row : GroupKey × Values}
    {groups groups' : SortedMap GroupKey Values}
    (hgroups : Groups source at_ fields facts rows groups) (hnames : (fields.map (·.name)).Nodup)
    (hwhole : Whole source facts) (hrow : row.1 ∉ rows.map Prod.fst)
    (hmeet : (∃ other ∈ rows, GroupKey.project other.1 at_ = GroupKey.project row.1 at_) →
      ∀ field ∈ fields, field.agg.isMergeable)
    (hworth : ∀ field ∈ fields, ∃ m, row.2.get? field.name = some m ∧
      field.Worth (ofGroup source facts row.1) m)
    (h : addRow fields at_ groups row = .ok groups') :
    Groups source at_ fields facts (rows ++ [row]) groups' := by
  -- What the row is worth to its group decides everything; other groups stay as they are.
  suffices ∃ values, groups' = groups.insert (GroupKey.project row.1 at_) values ∧
      values.Of fields (linesInto source at_ facts (rows ++ [row]) (GroupKey.project row.1 at_)) by
    obtain ⟨values, rfl, hvalues⟩ := this
    refine ⟨fun key => ?_, fun key values' hget => ?_⟩
    · rw [SortedMap.mem_keys_insert, hgroups.keys]
      simp only [List.mem_append, List.mem_singleton, or_and_right, exists_or, exists_eq_left]
      rw [or_comm, eq_comm]
    · rw [SortedMap.get?_insert] at hget
      split at hget
      · next e => rwa [e, ← Option.some.inj hget]
      · next e =>
        rw [linesInto_concat, if_neg (Ne.symm e), List.append_nil]
        exact hgroups.values key values' hget
  rw [linesInto_concat, if_pos rfl]
  unfold Regroup.addRow at h
  cases hget : groups.get? (GroupKey.project row.1 at_) with
  | none =>
    simp only [hget] at h
    have hnone : linesInto source at_ facts rows (GroupKey.project row.1 at_) = [] := by
      refine List.flatMap_eq_nil_iff.2 fun other hother => ?_
      obtain ⟨hother, hkey⟩ := List.mem_filter.1 hother
      exact absurd ((hgroups.keys _).2 ⟨other, hother, of_decide_eq_true hkey⟩)
        (SortedMap.get?_eq_none_iff.1 hget)
    refine ⟨_, (Except.ok.inj h).symm, ?_⟩
    rw [hnone, List.nil_append]
    exact initial_of hnames hworth
  | some group =>
    simp only [hget] at h
    obtain ⟨values, hvalues, rfl⟩ := Except.map_eq_ok.1 h
    have hmeets := (hgroups.keys _).1 (SortedMap.mem_keys.2 ⟨group, hget⟩)
    exact ⟨values, rfl, mergeRow_of hnames (hmeet hmeets) (hgroups.values _ _ hget) hworth
      (noSharedOrder hwhole hrow _) hvalues⟩

/-- The lines of all rows of a new group are the lines of that group. -/
theorem linesInto_perm {rows : List (GroupKey × Values)} (hcover : Cover source fields facts rows)
    (hat : positions source target = .ok at_) (hid : (facts.map (·.recordId)).Nodup)
    (key : GroupKey) : (linesInto source at_ facts rows key).Perm (ofGroup target facts key) := by
  have hfacts : facts.Nodup := List.Nodup.of_map _ hid
  refine (List.perm_ext_iff_of_nodup ?_ (hfacts.filter _)).2 fun f => ?_
  · refine List.nodup_flatMap.2 ⟨fun row _ => hfacts.filter _, ?_⟩
    refine (List.pairwise_map.1 hcover.nodup).filter _ |>.imp fun hne f hf hf' => hne ?_
    exact (of_decide_eq_true (List.mem_filter.1 hf).2).symm.trans
      (of_decide_eq_true (List.mem_filter.1 hf').2)
  · rw [mem_linesInto, List.mem_filter, decide_eq_true_eq, project_groupKey hat]
    exact ⟨fun h => ⟨h.1, h.2.2⟩, fun h => ⟨h.1, (hcover.keys _).2 ⟨f, h.1, rfl⟩, h.2⟩⟩

theorem groups_of_foldlM {rows : List (GroupKey × Values)} {groups : SortedMap GroupKey Values}
    (hcover : Cover source fields facts rows) (hnames : (fields.map (·.name)).Nodup)
    (hwhole : Whole source facts) (hat : positions source target = .ok at_)
    (hsame : sameDimensions source target = true ∨ ∀ field ∈ fields, field.agg.isMergeable)
    (h : rows.foldlM (addRow fields at_) .empty = .ok groups) :
    Groups source at_ fields facts rows groups := by
  -- The rows before come first in the list, so the key of a row is none of theirs.
  suffices ∀ (todo done : List (GroupKey × Values)) (groups' : SortedMap GroupKey Values),
      done ++ todo = rows → Groups source at_ fields facts done groups' →
      todo.foldlM (addRow fields at_) groups' = .ok groups →
      Groups source at_ fields facts rows groups from this rows [] .empty rfl .empty h
  intro todo
  induction todo with
  | nil =>
    rintro done groups' hrows hgroups h
    cases h
    rwa [← hrows, List.append_nil]
  | cons row todo ih =>
    intro done groups' hrows hgroups h
    obtain ⟨next, hnext, h⟩ := Except.bind_eq_ok.1 h
    have hmem : row ∈ rows := hrows ▸ List.mem_append_right _ List.mem_cons_self
    have hfresh : row.1 ∉ done.map Prod.fst := by
      have hnodup := hcover.nodup
      rw [← hrows, List.map_append, List.map_cons] at hnodup
      exact fun hin => (List.nodup_append'.1 hnodup).2.2 hin List.mem_cons_self
    refine ih (done ++ [row]) next (by rw [← hrows, List.append_assoc]; rfl) ?_ h
    refine hgroups.addRow hnames hwhole hfresh ?_ (hcover.worth row hmem) hnext
    rintro ⟨other, hother, e⟩
    refine hsame.resolve_left fun hsame => hfresh ?_
    -- With all dimensions kept, rows that meet have the same key.
    have hkey : ∀ row ∈ rows, ∃ f ∈ facts, groupKey source f = row.1 := fun row hrow =>
      (hcover.keys _).1 (List.mem_map_of_mem hrow)
    obtain ⟨f, -, hf⟩ := hkey other (hrows ▸ List.mem_append_left _ hother)
    obtain ⟨g, -, hg⟩ := hkey row hmem
    rw [← hf, ← hg, project_groupKey hat, project_groupKey hat] at e
    rw [← hg, ← groupKey_inj_of_sameDimensions hsame e, hf]
    exact List.mem_map_of_mem hother

/-- What is carried over is kept whole, or can be merged. -/
theorem carried_spec {identity : Bool} {required : KeySet String} {kept : List FieldSpec}
    (h : carried fields identity required = .ok kept) :
    kept = (if identity then fields else fields.filter fun f => f.agg.isMergeable) ∧
      (identity = true ∨ ∀ field ∈ kept, field.agg.isMergeable) ∧
      ∀ field ∈ fields, field.name ∈ required.members → field ∈ kept := by
  unfold carried at h
  cases identity with
  | true =>
    obtain rfl := Except.ok.inj h
    exact ⟨rfl, .inl rfl, fun _ hfield _ => hfield⟩
  | false =>
    simp only [Bool.false_eq_true, if_false] at h ⊢
    split at h
    · cases h
    · next hnone =>
      obtain rfl := Except.ok.inj h
      refine ⟨rfl, .inr fun field hfield => (List.mem_filter.1 hfield).2,
        fun field hfield hreq => ?_⟩
      have hnot := List.find?_eq_none.1 hnone field hfield
      rw [KeySet.contains_iff.2 hreq] at hnot
      exact List.mem_filter.2 ⟨hfield, by simpa using hnot⟩

theorem Cover.sublist {rows : List (GroupKey × Values)} {kept : List FieldSpec}
    (h : Cover source fields facts rows) (hkept : ∀ field ∈ kept, field ∈ fields) :
    Cover source kept facts rows where
  nodup := h.nodup
  keys := h.keys
  worth row hrow field hfield := h.worth row hrow field (hkept field hfield)

/-- **Grouping rows again gives the rows of their lines**, with the fields that are carried over. -/
theorem regroup_rows {rows : List (GroupKey × Values)} {required : KeySet String}
    {out : List AggregateRow} (hcover : Cover source fields facts rows)
    (hnames : (fields.map (·.name)).Nodup) (hid : (facts.map (·.recordId)).Nodup)
    (hwhole : Whole source facts) (h : regroup fields source target rows required = .ok out) :
    ∃ kept, carried fields (sameDimensions source target) required = .ok kept ∧
      Kernel.Rows target kept facts out := by
  obtain ⟨at_, hat, h⟩ := Except.bind_eq_ok.1 h
  obtain ⟨kept, hkept, h⟩ := Except.bind_eq_ok.1 h
  obtain ⟨groups, hgroups, h⟩ := Except.bind_eq_ok.1 h
  obtain rfl := Except.ok.inj h
  obtain ⟨hlist, hmeet, -⟩ := carried_spec hkept
  have hsublist : kept.Sublist fields := by
    rw [hlist]
    split
    · exact .refl _
    · exact List.filter_sublist
  -- Taking in the rows one by one collects what they stand for by the coarser key.
  have hof := groups_of_foldlM (hcover.sublist fun _ => hsublist.mem)
    (hnames.sublist (hsublist.map _)) hwhole hat hmeet hgroups
  refine ⟨kept, hkept, ?_, fun row hrow => ?_⟩
  · rw [List.map_map]
    refine KeySet.keys_eq_members fun key => ?_
    rw [hof.keys, KeySet.mem_ofList, List.mem_map]
    constructor
    · rintro ⟨row, hrow, rfl⟩
      obtain ⟨f, hf, e⟩ := (hcover.keys _).1 (List.mem_map_of_mem hrow)
      exact ⟨f, hf, by rw [← e, project_groupKey hat]⟩
    · rintro ⟨f, hf, rfl⟩
      obtain ⟨row, hrow, e⟩ := List.mem_map.1 ((hcover.keys _).2 ⟨f, hf, rfl⟩)
      exact ⟨row, hrow, by rw [e, project_groupKey hat]⟩
  · obtain ⟨⟨key, values⟩, he, rfl⟩ := List.mem_map.1 hrow
    have hperm := linesInto_perm hcover hat hid key
    refine (hof.values key values (SortedMap.mem_toList.1 he)).perm hperm ?_
    exact ((hperm.map _).nodup_iff).2 (hid.sublist (List.filter_sublist.map _))

end Regroup

end RetailReport
