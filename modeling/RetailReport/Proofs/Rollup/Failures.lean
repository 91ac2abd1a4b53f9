import RetailReport.Proofs.Rollup.Kernel
import RetailReport.Rollup.Plan

/-!
# Why aggregation fails

Lines and rows fail to be aggregated because of their values: a sum is out of range, or a formula has
no value.  That a dimension is not there or a field cannot be merged is found out before the first row
is looked at, and only when rows are grouped again; so what a request asks for can be told from its plan
alone.

## Main definitions

* `AggregationError.OfValues`: the values are to blame.

## Main results

* `RebuildPlan.failsOnly_aggregate`, `RebuildPlan.failsOnly_regroup`: nothing else is, once the
  dimensions and fields are known to be there.
* `Regroup.exists_positions`: when the dimensions are there.
* `RebuildPlan.length_key_of_execute`: a row has a value for each dimension.
-/

namespace RetailReport

/-- **The values are to blame**: a sum is out of range, or a formula has no value. -/
def AggregationError.OfValues : AggregationError → Prop
  | .overflow _ | .formula _ _ _ => True
  | .notMergeable _ _ | .unsupportedDimension _ => False

open AggregationError (OfValues)

/-! ### Lines -/

namespace OrderPartial

theorem failsOnly_combine (field : FieldSpec) (current next : Amount) :
    FailsOnly OfValues (combine field current next) := by
  unfold combine
  split
  · exact .ok _
  · split
    · split
      · exact .ok _
      · exact .error trivial
    · exact .ok _
    · exact .ok _

theorem failsOnly_accumulate (field : FieldSpec) (p : OrderPartial) (f : FactRecord) :
    FailsOnly OfValues (p.accumulate field f) := by
  unfold accumulate
  dsimp only
  split
  · exact .ok _
  · split <;> exact .ok _
  · exact .ok _
  · split
    · exact .ok _
    · exact .ok _
    · exact (failsOnly_combine field _ _).map _

end OrderPartial

theorem GroupTotal.failsOnly_absorb (field : FieldSpec) (t : GroupTotal) (p : OrderPartial) :
    FailsOnly OfValues (t.absorb field p) := by
  unfold absorb
  split
  · split
    · exact .ok _
    · split
      · exact .ok _
      · exact .error trivial
  · split
    · split
      · exact .ok _
      · exact .error trivial
    · exact .ok _
  · split <;> exact .ok _
  · split <;> exact .ok _
  · exact .ok _

namespace Kernel

variable {dimensions : List Dimension} {fields : List FieldSpec} {facts : List FactRecord}
  {keys : Option (KeySet GroupKey)}

theorem failsOnly_accumulateAll (fields : List FieldSpec) (ps : OrderPartials) (f : FactRecord) :
    FailsOnly OfValues (accumulateAll fields ps f) := by
  induction fields generalizing ps with
  | nil => exact .ok _
  | cons field fields ih =>
    cases ps with
    | nil => exact .ok _
    | cons p ps =>
      exact (p.failsOnly_accumulate field f).bind fun p => (ih ps).bind fun ps => .ok _

theorem failsOnly_absorbAll (fields : List FieldSpec) (ts : List GroupTotal) (ps : OrderPartials) :
    FailsOnly OfValues (absorbAll fields ts ps) := by
  induction fields generalizing ts ps with
  | nil => exact .ok _
  | cons field fields ih =>
    cases ts with
    | nil => exact .ok _
    | cons t ts =>
      cases ps with
      | nil => exact .ok _
      | cons p ps =>
        exact (t.failsOnly_absorb field p).bind fun t => (ih ts ps).bind fun ts => .ok _

theorem failsOnly_gatherLine (g : Gathered) (f : FactRecord) :
    FailsOnly OfValues (gatherLine dimensions fields keys g f) := by
  unfold gatherLine
  dsimp only
  split
  · exact .ok _
  · exact (failsOnly_accumulateAll fields _ f).bind fun ps => .ok _

/-- **Only the values of lines are to blame.** -/
theorem failsOnly_aggregate : FailsOnly OfValues (aggregate dimensions fields facts keys) := by
  refine .bind (.foldlM failsOnly_gatherLine _ _) fun g => .mapM fun e _ => ?_
  exact .bind (.bind (.foldlM (failsOnly_absorbAll fields) _ _) fun ts => .ok _) fun values => .ok _

/-! ### The keys of rows -/

theorem length_key_of_gather {g : Gathered} (h : gather dimensions fields facts keys = .ok g) :
    ∀ key ∈ g.keys, key.length = dimensions.length := by
  refine List.foldlM_ok_induction
    (P := fun _ (g : Gathered) => ∀ key ∈ g.keys, key.length = dimensions.length) h
    (fun key hkey => by cases hkey) fun _ f g g' _ hg hstep => ?_
  unfold gatherLine at hstep
  dsimp only at hstep
  split at hstep
  · cases hstep
    exact hg
  · obtain ⟨ps, -, hstep⟩ := Except.bind_eq_ok.1 hstep
    cases hstep
    intro key hkey
    rcases SortedMap.mem_keys_insert.1 hkey with rfl | hkey
    · exact List.length_map _
    · exact hg key hkey

/-- A row has a value for each dimension. -/
theorem length_key_of_aggregate {rows : List AggregateRow}
    (h : aggregate dimensions fields facts keys = .ok rows) :
    ∀ row ∈ rows, row.key.length = dimensions.length := by
  obtain ⟨g, hg, h⟩ := Except.bind_eq_ok.1 h
  intro row hrow
  obtain ⟨e, he, h⟩ := List.exists_of_mem_mapM_eq_ok h hrow
  obtain ⟨hkey, -⟩ := summarize_of_row h
  rw [hkey]
  exact length_key_of_gather hg e.1 (List.mem_map_of_mem he)

end Kernel

/-! ### Rows -/

namespace Regroup

variable {source target : List Dimension} {fields kept : List FieldSpec} {at_ : List Nat}
  {rows : List (GroupKey × Values)} {required : KeySet String}

theorem failsOnly_mergeAmounts {both : Amount → Amount → Except AggregationError Amount}
    (h : ∀ x y, FailsOnly OfValues (both x y)) (a b : Metric) :
    FailsOnly OfValues (mergeAmounts both a b) := by
  unfold mergeAmounts
  split
  · exact (h _ _).map _
  · exact .ok _
  · exact .ok _
  · exact .ok _

theorem failsOnly_mergeValue (field : FieldSpec) (current next : Metric) :
    FailsOnly OfValues (mergeValue field current next) := by
  unfold mergeValue
  split
  · refine failsOnly_mergeAmounts (fun x y => ?_) current next
    split
    · exact .ok _
    · exact .error trivial
  · dsimp only
    split
    · exact .ok _
    · exact .error trivial
  · dsimp only
    split
    · exact .ok _
    · exact .error trivial
  · exact failsOnly_mergeAmounts (fun x y => .ok _) current next
  · exact failsOnly_mergeAmounts (fun x y => .ok _) current next
  · exact .ok _

theorem failsOnly_addRow (groups : SortedMap GroupKey Values) (row : GroupKey × Values) :
    FailsOnly OfValues (addRow kept at_ groups row) := by
  unfold addRow
  dsimp only
  split
  · refine .map (.foldlM (fun acc field => ?_) _ _) _
    exact (failsOnly_mergeValue field _ _).bind fun merged => .ok _
  · exact .ok _

/-- The dimensions that are asked for have positions if they are there. -/
theorem exists_positions (h : ∀ d ∈ target, d ∈ source) : ∃ at_, positions source target = .ok at_ := by
  refine List.exists_mapM_eq_ok_iff.2 fun d hd => ?_
  cases hindex : source.idxOf? d with
  | none => exact absurd (h d hd) (List.idxOf?_eq_none_iff.1 hindex)
  | some i => exact ⟨i, rfl⟩

/-- The positions are those of dimensions. -/
theorem lt_of_mem_positions (h : positions source target = .ok at_) : ∀ i ∈ at_, i < source.length := by
  intro i hi
  obtain ⟨d, -, hd⟩ := List.exists_of_mem_mapM_eq_ok h hi
  cases hindex : source.idxOf? d with
  | none =>
    rw [hindex] at hd
    cases hd
  | some j =>
    rw [hindex] at hd
    obtain rfl : j = i := Except.ok.inj hd
    exact (List.idxOf?_eq_some_iff.1 hindex).1

/-- All fields are carried over if the dimensions stay, and otherwise those that can be merged, if no
other one is needed. -/
theorem exists_carried {identity : Bool} (h : identity = false →
    ∀ f ∈ fields, f.name ∈ required.members → f.agg.isMergeable = true) :
    ∃ kept, carried fields identity required = .ok kept := by
  cases identity with
  | true => exact ⟨fields, rfl⟩
  | false =>
    have hnone : (fields.find? fun f => !f.agg.isMergeable && required.contains f.name) = none := by
      refine List.find?_eq_none.2 fun f hf hbad => ?_
      rw [Bool.and_eq_true, Bool.not_eq_true', KeySet.contains_iff] at hbad
      rw [h rfl f hf hbad.2] at hbad
      cases hbad.1
    refine ⟨fields.filter fun f => f.agg.isMergeable, ?_⟩
    unfold carried
    rw [hnone]
    rfl

/-- **Only the values of rows are to blame**, if the dimensions and the fields are there. -/
theorem failsOnly_regroup (hat : positions source target = .ok at_)
    (hkept : carried fields (sameDimensions source target) required = .ok kept) :
    FailsOnly OfValues (regroup fields source target rows required) := by
  refine .bind (.of_eq_ok hat) fun at_ => .bind (.of_eq_ok hkept) fun kept => ?_
  exact .bind (.foldlM failsOnly_addRow _ _) fun groups => .ok _

end Regroup

/-! ### Plans -/

namespace RebuildPlan

variable {p : RebuildPlan} {facts : List FactRecord} {keys : Option (KeySet GroupKey)}

theorem failsOnly_derive (p : RebuildPlan) (values : Values) (d : DerivedField) :
    FailsOnly OfValues (p.derive values d) := by
  unfold derive
  dsimp only
  split
  · exact .error trivial
  · split
    · exact .ok _
    · exact .error trivial

theorem failsOnly_finalizeRows (p : RebuildPlan) (rows : List AggregateRow) :
    FailsOnly OfValues (p.finalizeRows rows) := by
  refine .mapM fun row _ => .bind ?_ fun values => .ok _
  exact .foldlM p.failsOnly_derive _ _

/-- **Only the values of lines are to blame.** -/
theorem failsOnly_aggregate : FailsOnly OfValues (p.aggregate facts keys) :=
  Kernel.failsOnly_aggregate.bind p.failsOnly_finalizeRows

/-- **Only the values of rows are to blame**, if the dimensions and the fields are there. -/
theorem failsOnly_regroup {dimensions : List Dimension} {projection : List String} {at_ : List Nat}
    {kept : List FieldSpec} (hat : Regroup.positions p.groupBy dimensions = .ok at_)
    (hkept : Regroup.carried p.fields (Regroup.sameDimensions p.groupBy dimensions)
      (p.requiredFields projection) = .ok kept) (rows : List RollupRow) :
    FailsOnly OfValues (p.regroup rows dimensions projection) :=
  (Regroup.failsOnly_regroup hat hkept).bind p.failsOnly_finalizeRows

/-- **A row of a plan has a value for each of its dimensions.** -/
theorem length_key_of_execute {rows : List RollupRow} (h : p.execute facts keys = .ok rows) :
    ∀ row ∈ rows, row.key.length = p.dimensions.length := by
  obtain ⟨finished, haggregate, hrows⟩ := Except.bind_eq_ok.1 h
  obtain ⟨base, hbase, hfinalize⟩ := Except.bind_eq_ok.1 haggregate
  obtain rfl := Except.ok.inj hrows
  intro row hrow
  obtain ⟨row', hrow', rfl⟩ := List.mem_map.1 hrow
  obtain ⟨first, hfirst, hfinal⟩ := List.exists_of_mem_mapM_eq_ok hfinalize hrow'
  obtain ⟨values, -, hfinal⟩ := Except.bind_eq_ok.1 hfinal
  cases hfinal
  exact Kernel.length_key_of_aggregate hbase first hfirst

end RebuildPlan

end RetailReport
