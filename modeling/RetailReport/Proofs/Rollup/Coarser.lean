import RetailReport.Proofs.Rollup.Measures
import RetailReport.Proofs.Rollup.Regroup

/-!
# Coarser groups of an aggregation

The rows of an aggregation are rows that stand for their lines, so they can be grouped again: by
fewer dimensions if all fields can be merged, and by the same dimensions in another order in any case.
Either way the result is what aggregating the lines by the new dimensions gives.

## Main results

* `Kernel.Rows.cover`: the rows of an aggregation stand for its lines.
* `Regroup.regroup_aggregate`: grouping again after aggregating is aggregating.
-/

namespace RetailReport

/-- The rows of an aggregation stand for its lines, in whatever order they are taken. -/
theorem Kernel.Rows.cover {dimensions : List Dimension} {fields : List FieldSpec}
    {facts : List FactRecord} {fine : List AggregateRow} {rows : List (GroupKey × Values)}
    (h : Kernel.Rows dimensions fields facts fine)
    (hperm : rows.Perm (fine.map fun row => (row.key, row.values))) :
    Regroup.Cover dimensions fields facts rows := by
  have hkeys : (rows.map Prod.fst).Perm (groupKeys dimensions facts) := by
    rw [← h.keys]
    simpa [Function.comp_def] using hperm.map Prod.fst
  refine ⟨hkeys.nodup_iff.2 (KeySet.nodup_members _), fun key => ?_, fun row hrow => ?_⟩
  · rw [hkeys.mem_iff, mem_groupKeys]
  · obtain ⟨first, hfirst, rfl⟩ := List.mem_map.1 (hperm.mem_iff.1 hrow)
    exact (h.values first hfirst).worth

namespace Regroup

variable {source target : List Dimension} {fields : List FieldSpec} {facts : List FactRecord}

theorem sameDimensions_of_perm (h : target.Perm source) : sameDimensions source target = true := by
  unfold sameDimensions
  simp [List.all_eq_true, h.mem_iff]

/-- No field is left behind if all of them can be merged, or if all dimensions stay. -/
theorem carried_eq_self {required : KeySet String} {kept : List FieldSpec}
    (hfields : target.Perm source ∨ ∀ field ∈ fields, field.agg.isMergeable = true)
    (h : carried fields (sameDimensions source target) required = .ok kept) : kept = fields := by
  rw [(carried_spec h).1]
  split
  · rfl
  · next hsame =>
    exact List.filter_eq_self.2 (hfields.resolve_left fun hperm =>
      hsame (sameDimensions_of_perm hperm))

/-- **Grouping again after aggregating is aggregating.** If the lines of an order agree on where,
how and when it was placed, and all fields can be merged or all dimensions stay, then the rows of a
finer aggregation, fed in any order, are grouped again to the rows of the coarser one. -/
theorem regroup_aggregate {required : KeySet String} {rows : List (GroupKey × Values)}
    {fine coarse direct : List AggregateRow} (hnames : (fields.map (·.name)).Nodup)
    (hid : (facts.map (·.recordId)).Nodup)
    (hheads : ∀ f ∈ facts, ∀ g ∈ facts, f.orderId = g.orderId →
      f.storeId = g.storeId ∧ f.channel = g.channel ∧ f.timestamp = g.timestamp)
    (hfields : target.Perm source ∨ ∀ field ∈ fields, field.agg.isMergeable = true)
    (hfine : Kernel.aggregate source fields facts none = .ok fine)
    (hfed : rows.Perm (fine.map fun row => (row.key, row.values)))
    (hcoarse : regroup fields source target rows required = .ok coarse)
    (hdirect : Kernel.aggregate target fields facts none = .ok direct) : coarse = direct := by
  have hwhole : Whole source facts := fun f hf g hg horder =>
    groupKey_eq_of_sameHead (hheads f hf g hg horder)
  -- The rows stand for whole orders, so grouped again they are worth what the lines are worth.
  have hcover := (Kernel.aggregate_rows hnames hfine).cover hfed
  obtain ⟨kept, hkept, hrows⟩ := regroup_rows hcover hnames hid hwhole hcoarse
  rw [carried_eq_self hfields hkept] at hrows
  exact hrows.unique (Kernel.aggregate_rows hnames hdirect)

/-- The two orders, one more of another store, and one without amounts that came another way. -/
def twoStores : List FactRecord :=
  Kernel.mixedOrders ++
    [{ Kernel.feeLine "r6" "o3" (some { raw := 10000 }) (some { raw := 40000 }) with
        storeId := "S2" },
      { Kernel.feeLine "r7" "o4" none none with storeId := "S2", channel := "POS" }]

/-- The fields that can be merged. -/
def mergeableFields : List FieldSpec := Kernel.feeFields.filter fun field => field.agg.isMergeable

/-- The rows of both stores, last one first, merge into those of the two channels. -/
theorem regroup_aggregate_twoStores : (mergeableFields.map (·.name)).Nodup ∧
    (twoStores.map (·.recordId)).Nodup ∧
    (∀ f ∈ twoStores, ∀ g ∈ twoStores, f.orderId = g.orderId →
      f.storeId = g.storeId ∧ f.channel = g.channel ∧ f.timestamp = g.timestamp) ∧
    (∀ field ∈ mergeableFields, field.agg.isMergeable = true) ∧
    ∃ fine coarse, Kernel.aggregate [.storeId, .channel] mergeableFields twoStores none = .ok fine ∧
      regroup mergeableFields [.storeId, .channel] [.channel]
        (fine.map fun row => (row.key, row.values)).reverse .empty = .ok coarse ∧
      fine.length = 3 ∧ coarse.length = 2 ∧
      Kernel.aggregate [.channel] mergeableFields twoStores none = .ok coarse := by
  have hnames : (mergeableFields.map (·.name)).Nodup := by decide
  have hid : (twoStores.map (·.recordId)).Nodup := by decide
  have hheads : ∀ f ∈ twoStores, ∀ g ∈ twoStores, f.orderId = g.orderId →
      f.storeId = g.storeId ∧ f.channel = g.channel ∧ f.timestamp = g.timestamp := by
    decide +kernel
  have hfields : ∀ field ∈ mergeableFields, field.agg.isMergeable = true := by decide
  obtain ⟨⟨fine, coarse⟩, hboth, hlengths⟩ : ∃ both : List AggregateRow × List AggregateRow,
      (do let fine ← Kernel.aggregate [.storeId, .channel] mergeableFields twoStores none
          let coarse ← regroup mergeableFields [.storeId, .channel] [.channel]
            (fine.map fun (row : AggregateRow) => (row.key, row.values)).reverse .empty
          return (fine, coarse)) = .ok both ∧ both.1.length = 3 ∧ both.2.length = 2 :=
    Except.exists_ok (by decide +kernel)
  obtain ⟨fine', hfine, hboth⟩ := Except.bind_eq_ok.1 hboth
  obtain ⟨coarse', hcoarse, hboth⟩ := Except.bind_eq_ok.1 hboth
  cases hboth
  obtain ⟨direct, hdirect, -⟩ : ∃ direct,
      Kernel.aggregate [.channel] mergeableFields twoStores none = .ok direct ∧ True :=
    Except.exists_ok (by decide +kernel)
  have he := regroup_aggregate hnames hid hheads (.inr hfields) hfine (List.reverse_perm _) hcoarse
    hdirect
  exact ⟨hnames, hid, hheads, hfields, fine, coarse, hfine, hcoarse, hlengths.1, hlengths.2,
    he ▸ hdirect⟩

end Regroup

end RetailReport
