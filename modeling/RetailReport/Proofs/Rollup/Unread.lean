import RetailReport.Proofs.Rollup.Closure
import RetailReport.Rollup.Regroup

/-!
# Values that a projection does not read

Grouping rows again merges them field by field, and derived fields are computed from their inputs
alone.  So what is shown in the end depends on the fields that the projection rests on and on no other
value, whichever fields are carried over, and whether a derived value of a row is outdated or missing.

The two runs are put side by side: at any moment both have the same groups, which agree on the fields
that are needed.

## Main definitions

* `RollupRow.LooksLike`: rows of one group that agree on some fields.
* `Regroup.Alike`: groups that agree on some fields.

## Main results

* `Regroup.addRow_alike`, `Regroup.regroup_agree`: **one more row** on either side, and all rows.
* `RebuildPlan.projection_closure_sound`: **rows that agree on the required fields show the same.**
-/

namespace RetailReport

variable {needed : KeySet String} {v v' w w' : Values}

theorem Values.Agree.insert (h : Values.Agree needed v v') {name : String} {x x' : Metric}
    (hx : name ∈ needed.members → x = x') : Values.Agree needed (v.insert name x) (v'.insert name x') := by
  intro other hother
  rw [SortedMap.get?_insert, SortedMap.get?_insert]
  split
  · next heq =>
    subst heq
    rw [hx hother]
  · exact h other hother

/-- Values that agree on some fields when a missing value is null. -/
def Values.SameWorth (needed : KeySet String) (v v' : Values) : Prop :=
  ∀ name ∈ needed.members, v.getD name .null = v'.getD name .null

theorem Values.Agree.sameWorth (h : Values.Agree needed v v') : Values.SameWorth needed v v' :=
  fun name hname => by rw [SortedMap.getD, SortedMap.getD, h name hname]

/-- **Rows of one group that agree on some fields**; a missing value is like null. -/
def RollupRow.LooksLike (needed : KeySet String) (row row' : RollupRow) : Prop :=
  row.key = row'.key ∧ Values.SameWorth needed row.values row'.values

namespace Regroup

variable {fields : List FieldSpec} {source target : List Dimension} {at_ : List Nat}
  {required : KeySet String} {groups groups' out out' : SortedMap GroupKey Values}
  {row row' : GroupKey × Values} {rows rows' : List (GroupKey × Values)}

/-! ### One row -/

/-- The first rows of a group. -/
theorem initial_agree (h : Values.SameWorth needed v v') (fields : List FieldSpec) :
    Values.Agree needed (initial fields v) (initial fields v') := by
  unfold initial SortedMap.ofList
  rw [List.foldl_map, List.foldl_map]
  -- The induction is on the fields that are still to be written, into any two maps that agree.
  suffices ∀ m m' : Values, Values.Agree needed m m' →
      Values.Agree needed (fields.foldl (fun m f => m.insert f.name (valueOf v f)) m)
        (fields.foldl (fun m f => m.insert f.name (valueOf v' f)) m') from
    this _ _ fun _ _ => rfl
  induction fields with
  | nil => exact fun _ _ hm => hm
  | cons f fields ih => exact fun m m' hm => ih _ _ (hm.insert (h f.name))

/-- A further row of a group is merged field by field. -/
theorem mergeRow_agree (hgroup : Values.Agree needed v v') (hrow : Values.SameWorth needed w w')
    {merged merged' : Values} (h : mergeRow fields v w = .ok merged)
    (h' : mergeRow fields v' w' = .ok merged') : Values.Agree needed merged merged' := by
  induction fields generalizing v v' with
  | nil =>
    cases h
    cases h'
    exact hgroup
  | cons f fields ih =>
    obtain ⟨next, hnext, h⟩ := Except.bind_eq_ok.1 h
    obtain ⟨next', hnext', h'⟩ := Except.bind_eq_ok.1 h'
    obtain ⟨x, hx, hnext⟩ := Except.bind_eq_ok.1 hnext
    obtain ⟨x', hx', hnext'⟩ := Except.bind_eq_ok.1 hnext'
    cases hnext
    cases hnext'
    -- Other fields may come out differently, since no needed field is merged from them.
    refine ih (hgroup.insert fun hf => ?_) h h'
    rw [valueOf, valueOf, hgroup.sameWorth _ hf, hrow _ hf] at hx
    exact Except.ok.inj (hx.symm.trans hx')

/-! ### All rows -/

/-- **Groups that agree on some fields.** -/
def Alike (needed : KeySet String) (groups groups' : SortedMap GroupKey Values) : Prop :=
  ∀ key, Option.Rel (Values.Agree needed) (groups.get? key) (groups'.get? key)

theorem Alike.insert (h : Alike needed groups groups') (key : GroupKey)
    (hv : Values.Agree needed v v') : Alike needed (groups.insert key v) (groups'.insert key v') := by
  intro other
  rw [SortedMap.get?_insert, SortedMap.get?_insert]
  split
  · exact .some hv
  · exact h other

/-- **One more row** on either side keeps the groups alike. -/
theorem addRow_alike (hgroups : Alike needed groups groups')
    (hrow : row.1 = row'.1 ∧ Values.SameWorth needed row.2 row'.2)
    (h : addRow fields at_ groups row = .ok out) (h' : addRow fields at_ groups' row' = .ok out') :
    Alike needed out out' := by
  obtain ⟨hkey, hvalues⟩ := hrow
  simp only [addRow, hkey] at h h'
  -- The row falls into one group on either side, which is there on both sides or on neither.
  rcases Option.rel_iff.1 (hgroups (GroupKey.project row'.1 at_)) with
    ⟨hget, hget'⟩ | ⟨v, v', hget, hget', hv⟩
  · simp only [hget] at h
    simp only [hget'] at h'
    cases h
    cases h'
    exact hgroups.insert _ (initial_agree hvalues fields)
  · simp only [hget] at h
    simp only [hget'] at h'
    obtain ⟨merged, hmerged, rfl⟩ := Except.map_eq_ok.1 h
    obtain ⟨merged', hmerged', rfl⟩ := Except.map_eq_ok.1 h'
    exact hgroups.insert _ (mergeRow_agree hv hvalues hmerged hmerged')

/-- So do all rows. -/
theorem foldlM_addRow_alike (hgroups : Alike needed groups groups')
    (hrows : rows.Forall₂ (fun row row' => row.1 = row'.1 ∧ Values.SameWorth needed row.2 row'.2)
      rows')
    (h : rows.foldlM (addRow fields at_) groups = .ok out)
    (h' : rows'.foldlM (addRow fields at_) groups' = .ok out') : Alike needed out out' := by
  induction hrows generalizing groups groups' with
  | nil =>
    cases h
    cases h'
    exact hgroups
  | cons hrow _ ih =>
    obtain ⟨next, hnext, h⟩ := Except.bind_eq_ok.1 h
    obtain ⟨next', hnext', h'⟩ := Except.bind_eq_ok.1 h'
    exact ih (addRow_alike hgroups hrow hnext hnext') h h'

/-- **Rows that agree on some fields are grouped into rows that do.** -/
theorem regroup_agree {merged merged' : List AggregateRow}
    (hrows : rows.Forall₂ (fun row row' => row.1 = row'.1 ∧ Values.SameWorth needed row.2 row'.2)
      rows')
    (h : regroup fields source target rows required = .ok merged)
    (h' : regroup fields source target rows' required = .ok merged') :
    merged.Forall₂ (fun row row' => row.key = row'.key ∧ Values.Agree needed row.values row'.values)
      merged' := by
  obtain ⟨at_, hat, h⟩ := Except.bind_eq_ok.1 h
  obtain ⟨at_', hat', h'⟩ := Except.bind_eq_ok.1 h'
  obtain rfl := Except.ok.inj (hat.symm.trans hat')
  obtain ⟨kept, hkept, h⟩ := Except.bind_eq_ok.1 h
  obtain ⟨kept', hkept', h'⟩ := Except.bind_eq_ok.1 h'
  obtain rfl := Except.ok.inj (hkept.symm.trans hkept')
  obtain ⟨groups, hgroups, h⟩ := Except.bind_eq_ok.1 h
  obtain ⟨groups', hgroups', h'⟩ := Except.bind_eq_ok.1 h'
  cases h
  cases h'
  have halike : Alike needed groups groups' :=
    foldlM_addRow_alike (fun _ => .none) hrows hgroups hgroups'
  rw [List.forall₂_map_left_iff, List.forall₂_map_right_iff]
  exact SortedMap.forall₂_toList halike

end Regroup

/-! ### What a projection shows -/

namespace RebuildPlan

variable {p : RebuildPlan} {schema : RollupSchema} {catalog : Catalog} {formulas : FormulaTable}
  {projection : List String} {name : String}

/-- The fields of a compiled plan are those of its schema. -/
theorem mem_outputNames_iff (hp : Compile.compile schema catalog formulas = .ok p) :
    name ∈ p.outputNames ↔ name ∈ schema.names := by
  have hperm := (compiledFrom_of_compile hp).perm
  obtain ⟨-, derived, -, rfl⟩ := Compile.compile_eq_ok_iff.1 hp
  exact ((hperm.map _).append_left _).mem_iff

/-- **What is required is aggregated**, if only fields of the plan are shown. -/
theorem mem_fields_of_mem_requiredFields (hp : Compile.compile schema catalog formulas = .ok p)
    (hshown : projection ≠ []) (houtputs : ∀ shown ∈ projection, shown ∈ p.outputNames)
    (hname : name ∈ (p.requiredFields projection).members) : name ∈ p.fields.map (·.name) := by
  have h := compiledFrom_of_compile hp
  obtain ⟨shown, hmem, hrests⟩ := (mem_requiredFields_iff h hshown).1 hname
  have hclosed : ∀ d ∈ p.derived, ∀ i ∈ d.inputs, i ∈ p.outputNames := fun d hd i hi =>
    (mem_outputNames_iff hp).2 (h.sense.inputs d (h.perm.mem_iff.1 hd) i hi)
  have houtput : name ∈ p.outputNames := hrests.mem_of_closed hclosed (houtputs shown hmem)
  exact (List.mem_append.1 houtput).resolve_right hrests.notMem

/-- **Rows that agree on the required fields show the same**, however they are grouped again. -/
theorem projectRows_regroup_eq {rows rows' : List RollupRow} {target : List Dimension}
    {out out' : List AggregateRow} (hshown : projection ≠ [])
    (hrows : rows.Forall₂ (RollupRow.LooksLike (p.requiredFields projection)) rows')
    (h : p.regroup rows target projection = .ok out)
    (h' : p.regroup rows' target projection = .ok out') :
    projectRows out projection = projectRows out' projection := by
  obtain ⟨merged, hmerged, hout⟩ := Except.bind_eq_ok.1 h
  obtain ⟨merged', hmerged', hout'⟩ := Except.bind_eq_ok.1 h'
  have hpairs : (rows.map fun r => (r.key, r.values)).Forall₂
      (fun row row' => row.1 = row'.1 ∧
        Values.SameWorth (p.requiredFields projection) row.2 row'.2)
      (rows'.map fun r => (r.key, r.values)) := by
    rw [List.forall₂_map_left_iff, List.forall₂_map_right_iff]
    exact hrows
  refine projectRows_eq ((Regroup.regroup_agree hpairs hmerged hmerged').imp ?_) hout hout'
  rintro row row' ⟨hkey, hvalues⟩
  refine ⟨hkey, ?_⟩
  rwa [Alike, List.isEmpty_eq_false_iff.2 hshown, if_neg Bool.false_ne_true]

/-- **The required fields of a compiled plan.**  Whatever rows show depends on them alone: rows of the
same groups that agree on them, in whatever other values they differ, show the same when they are
grouped again.  They are exactly the aggregated fields that the projection rests on, at any depth, and
a search through the derived fields comes to an end with them. -/
theorem projection_closure_sound (hp : Compile.compile schema catalog formulas = .ok p)
    (hshown : projection ≠ []) (houtputs : ∀ shown ∈ projection, shown ∈ p.outputNames) :
    (∀ (target : List Dimension) (rows rows' : List RollupRow) (out out' : List AggregateRow),
      rows.Forall₂ (RollupRow.LooksLike (p.requiredFields projection)) rows' →
      p.regroup rows target projection = .ok out → p.regroup rows' target projection = .ok out' →
        projectRows out projection = projectRows out' projection) ∧
    (∀ name, name ∈ (p.requiredFields projection).members ↔
      name ∈ p.fields.map (·.name) ∧ SomeRestsOn p.derived projection name) ∧
    Closure.search p.derived projection.reverse .empty .empty = p.requiredFields projection := by
  have h := compiledFrom_of_compile hp
  refine ⟨fun target rows rows' out out' => projectRows_regroup_eq hshown, fun name => ?_,
    search_eq_requiredFields h hshown⟩
  rw [← mem_requiredFields_iff h hshown]
  exact (and_iff_right_of_imp (mem_fields_of_mem_requiredFields hp hshown houtputs)).symm

/-- A rollup with a margin, which is the difference of a derived field and an aggregated one. -/
def marginSchema : RollupSchema where
  name := "channels"
  groupBy := [.storeId, .channel]
  fields := [
    { name := "revenue", source := .field "price", agg := .sum },
    { name := "cost", source := .field "cost", agg := .sum },
    { name := "dearest", source := .field "price", agg := .max }]
  derivedFields := [⟨"margin", "difference", ["gross", "cost"]⟩,
    ⟨"gross", "sum", ["revenue", "revenue"]⟩]

/-- The row of a channel, with the greatest price and the margin as it was stored. -/
def channelRow (channel : String) (revenue cost dearest margin : Nat) : RollupRow where
  schema := "channels"
  key := ["S1", channel]
  values := .ofList [("revenue", .amount (.ofCents revenue)), ("cost", .amount (.ofCents cost)),
    ("dearest", .amount (.ofCents dearest)), ("margin", .amount (.ofCents margin))]

/-- The rows of a store. -/
def channelRows : List RollupRow := [channelRow "APP" 50 20 9 80, channelRow "POS" 30 10 7 50]

/-- The same but for the greatest prices and the stored margins. -/
def outdatedRows : List RollupRow := [channelRow "APP" 50 20 4 1, channelRow "POS" 30 10 3 0]

/-- The margin of the store rests on revenue and cost through two formulas, and is the same for both
lists of rows, which differ in the greatest price of the store. -/
theorem projection_closure_sound_channelRows : ∃ p out out',
    Compile.compile marginSchema { itemFields := .ofList ["cost", "price"] } .builtins = .ok p ∧
    (p.requiredFields ["margin"]).members = ["cost", "revenue"] ∧
    p.regroup channelRows [.storeId] ["margin"] = .ok out ∧
    p.regroup outdatedRows [.storeId] ["margin"] = .ok out' ∧
    projectRows out ["margin"] = projectRows out' ["margin"] ∧
    (out.map fun row => row.values.get? "dearest") = [some (.amount (.ofCents 9))] ∧
    (out'.map fun row => row.values.get? "dearest") = [some (.amount (.ofCents 4))] := by
  obtain ⟨p, hp, hrequired, houtputs, hout, hout'⟩ : ∃ p,
      Compile.compile marginSchema { itemFields := .ofList ["cost", "price"] } .builtins = .ok p ∧
      (p.requiredFields ["margin"]).members = ["cost", "revenue"] ∧ "margin" ∈ p.outputNames ∧
      ((p.regroup channelRows [.storeId] ["margin"]).toOption.any fun out => decide
        ((out.map fun row => row.values.get? "dearest") = [some (.amount (.ofCents 9))])) = true ∧
      ((p.regroup outdatedRows [.storeId] ["margin"]).toOption.any fun out => decide
        ((out.map fun row => row.values.get? "dearest") = [some (.amount (.ofCents 4))])) = true :=
    Except.exists_ok (by decide +kernel)
  obtain ⟨hsame, -⟩ := projection_closure_sound hp (List.cons_ne_nil "margin" [])
    (List.forall_mem_singleton.2 houtputs)
  have hrows : channelRows.Forall₂ (RollupRow.LooksLike (p.requiredFields ["margin"]))
      outdatedRows := by
    unfold channelRows outdatedRows RollupRow.LooksLike Values.SameWorth
    rw [hrequired]
    exact .cons ⟨rfl, by decide +kernel⟩ (.cons ⟨rfl, by decide +kernel⟩ .nil)
  obtain ⟨out, h, hout⟩ := Except.exists_ok hout
  obtain ⟨out', h', hout'⟩ := Except.exists_ok hout'
  exact ⟨p, out, out', hp, hrequired, h, h', hsame _ _ _ _ _ hrows h h', hout, hout'⟩

end RebuildPlan

end RetailReport
