import RetailReport.Proofs.Outcomes
import RetailReport.Proofs.Rollup.Worth

/-!
# What the two phases compute

Partial results are related to the lines that they stand for: an `OrderPartial` to the lines of an
order, a `GroupTotal` to the orders of a group, and the gathered map to all lines.  Each step keeps
the relation, so when aggregation succeeds, the value of a field for a group is what the lines of
the group are worth for it.

## Main definitions

* `OrderPartial.Of`, `GroupTotal.Of`: what a partial result stands for.
* `Kernel.Gathered.Of`: the same for the gathered lines.
* `Values.Of`: the values of fields over some lines.
* `Kernel.Rows`: the rows of some lines.

## Main results

* `Kernel.aggregate_rows`: aggregation gives the rows of its lines.
* `Kernel.Rows.unique`: lines have only one list of rows, in whatever order they come.
-/

namespace RetailReport

-- The zero of a sum is that of its numerals.
attribute [local instance (high)] Zero.ofOfNat0

/-! ### Amounts -/

/-- An amount that may be missing, in ten-thousandths. -/
def rawOf (a : Option Amount) : Option Int := a.map (·.raw)

namespace Amount

theorem raw_max (a b : Amount) : (a.max b).raw = max a.raw b.raw := by
  unfold Amount.max
  split
  · next h => exact (Int.max_eq_right h).symm
  · next h => exact (Int.max_eq_left (Int.le_of_lt (Int.not_le.1 h))).symm

theorem raw_min (a b : Amount) : (a.min b).raw = min a.raw b.raw := by
  unfold Amount.min
  split
  · next h => exact (Int.min_eq_left h).symm
  · next h => exact (Int.min_eq_right (Int.le_of_lt (Int.not_le.1 h))).symm

end Amount

/-! ### One order -/

namespace FieldSpec

variable (field : FieldSpec)

theorem orderAmount_concat (l : List FactRecord) (f : FactRecord) :
    field.orderAmount (l ++ [f]) = (field.orderAmount l).merge field.lineOp (field.raw? f) := by
  unfold orderAmount
  rw [List.filterMap_append]
  cases h : field.raw? f with
  | none => simp [h]
  | some x => simp [h, reduce_concat]

theorem orderCount_concat (l : List FactRecord) (f : FactRecord) :
    field.orderCount (l ++ [f]) =
      if (lineValue? field f).isNone then field.orderCount l
      else if field.isOrderLevel then 1 else field.orderCount l + 1 := by
  unfold orderCount
  rw [List.countP_append]
  cases hv : lineValue? field f with
  | none => simp [hv]
  | some v =>
    by_cases h : field.isOrderLevel
    · simp [h, hv]
    · simp [h, hv]

theorem distinctKeys_concat (l : List FactRecord) (f : FactRecord) :
    field.distinctKeys (l ++ [f]) =
      field.distinctKeys l ++ ((lineValue? field f).map LineValue.distinctKey).toList := by
  unfold distinctKeys
  rw [List.filterMap_append]
  cases h : lineValue? field f <;> simp [h]

/-- Whether the amount of an order is kept as one, and not with the line that it comes from. -/
def KeepsAmount : Prop :=
  field.agg ≠ .count ∧ field.agg ≠ .countDistinct ∧ (field.agg = .first → field.isOrderLevel = true)

end FieldSpec

namespace OrderPartial

/-- **A partial result of an order** is what some lines of the order give for a field. -/
def Of (field : FieldSpec) (l : List FactRecord) (p : OrderPartial) : Prop :=
  match field.agg, field.isOrderLevel with
  | .count, _ => p = .count (field.orderCount l)
  | .countDistinct, _ => p = .distinct (KeySet.ofList (field.distinctKeys l))
  | .first, false =>
    p = .first ((FieldSpec.leastLine l).map fun f =>
      (f.recordId, (lineValue? field f).bind LineValue.amount?))
  | _, _ => ∃ a, p = .amount a ∧ rawOf a = field.orderAmount l

variable {field : FieldSpec} {l : List FactRecord} {p p' : OrderPartial}

theorem of_amount_iff (h : field.KeepsAmount) :
    Of field l p ↔ ∃ a, p = .amount a ∧ rawOf a = field.orderAmount l := by
  obtain ⟨hcount, hdistinct, hfirst⟩ := h
  unfold Of
  split
  · contradiction
  · contradiction
  · next hagg hlevel =>
    rw [hfirst hagg] at hlevel
    cases hlevel
  · exact Iff.rfl

theorem of_empty (field : FieldSpec) : Of field [] (empty field) := by
  unfold Of empty
  cases field.agg with
  | count => simp [FieldSpec.orderCount]
  | countDistinct => rfl
  | first =>
    cases field.isOrderLevel with
    | true => exact ⟨none, rfl, rfl⟩
    | false => rfl
  | sum | max | min => exact ⟨none, rfl, rfl⟩

/-- Amounts of lines of an order are put together exactly. -/
theorem raw_combine {current next total : Amount} (h : combine field current next = .ok total) :
    total.raw = field.lineOp current.raw next.raw := by
  unfold combine at h
  unfold FieldSpec.lineOp
  by_cases hlevel : field.isOrderLevel
  · rw [if_pos hlevel] at h ⊢
    rw [← Except.ok.inj h, Amount.raw_max]
  · rw [if_neg hlevel] at h ⊢
    cases hagg : field.agg with
    | sum =>
      simp only [hagg] at h ⊢
      cases hadd : current.add? next with
      | none => rw [hadd] at h; cases h
      | some t =>
        rw [hadd] at h
        rw [← Except.ok.inj h, Amount.add?_eq_some.1 hadd]
    | min =>
      simp only [hagg] at h ⊢
      rw [← Except.ok.inj h, Amount.raw_min]
    | max | count | countDistinct | first =>
      simp only [hagg] at h ⊢
      rw [← Except.ok.inj h, Amount.raw_max]

/-- One more amount of a line beside those of its order. -/
theorem of_accumulate_amount {current : Option Amount} {f : FactRecord}
    (hraw : rawOf current = field.orderAmount l)
    (h : accumulate field (.amount current) f = .ok p') :
    ∃ a, p' = .amount a ∧ rawOf a = field.orderAmount (l ++ [f]) := by
  rw [field.orderAmount_concat, ← hraw, FieldSpec.raw?]
  unfold accumulate at h
  cases hv : (lineValue? field f).bind LineValue.amount? with
  | none =>
    simp only [hv] at h
    exact ⟨current, (Except.ok.inj h).symm, (Option.merge_none_right).symm⟩
  | some a =>
    cases current with
    | none =>
      simp only [hv] at h
      exact ⟨some a, (Except.ok.inj h).symm, rfl⟩
    | some c =>
      simp only [hv] at h
      obtain ⟨total, htotal, rfl⟩ := Except.map_eq_ok.1 h
      exact ⟨some total, rfl, congrArg some (raw_combine htotal)⟩

/-- **Taking one more line in** gives the partial result of the lines with that line. -/
theorem Of.accumulate {f : FactRecord} (hp : Of field l p)
    (h : p.accumulate field f = .ok p') : Of field (l ++ [f]) p' := by
  -- Fields that keep an amount have one argument in common; the others go case by case.
  by_cases hamount : field.KeepsAmount
  · obtain ⟨a, rfl, hraw⟩ := (of_amount_iff hamount).1 hp
    exact (of_amount_iff hamount).2 (of_accumulate_amount hraw h)
  · unfold Of at hp ⊢
    cases hagg : field.agg with
    | count =>
      simp only [hagg] at hp ⊢
      subst hp
      rw [field.orderCount_concat]
      exact (Except.ok.inj h).symm
    | countDistinct =>
      simp only [hagg] at hp ⊢
      subst hp
      rw [field.distinctKeys_concat]
      cases hv : lineValue? field f with
      | none =>
        simp only [OrderPartial.accumulate, hv] at h
        rw [← Except.ok.inj h]
        simp
      | some v =>
        simp only [OrderPartial.accumulate, hv] at h
        rw [← Except.ok.inj h, Option.map_some, Option.toList_some, KeySet.ofList_concat]
    | first =>
      cases hlevel : field.isOrderLevel with
      | true => exact absurd ⟨by simp [hagg], by simp [hagg], fun _ => hlevel⟩ hamount
      | false =>
        simp only [hagg, hlevel] at hp ⊢
        subst hp
        rw [FieldSpec.leastLine_concat]
        cases hl : FieldSpec.leastLine l with
        | none =>
          simp only [OrderPartial.accumulate, hl, Option.map_none, if_true] at h
          rw [← Except.ok.inj h]
          rfl
        | some g =>
          simp only [OrderPartial.accumulate, hl, Option.map_some, decide_eq_true_eq] at h
          rw [← Except.ok.inj h]
          by_cases hlt : f.recordId < g.recordId
          · simp [hlt]
          · simp [hlt]
    | sum | max | min => exact absurd ⟨by simp [hagg], by simp [hagg], by simp [hagg]⟩ hamount

/-- The amount of an order for the fields that need one. -/
theorem Of.rawOf_amount? (hp : Of field l p) (hcount : field.agg ≠ .count)
    (hdistinct : field.agg ≠ .countDistinct) :
    rawOf p.amount? = if field.agg = .first then field.firstAmount l else field.orderAmount l := by
  by_cases hamount : field.KeepsAmount
  · obtain ⟨a, rfl, hraw⟩ := (of_amount_iff hamount).1 hp
    rw [amount?, hraw]
    split
    · next hfirst => rw [FieldSpec.firstAmount, if_pos (hamount.2.2 hfirst)]
    · rfl
  · have hfirst : field.agg = .first :=
      Classical.byContradiction fun hne => hamount ⟨hcount, hdistinct, fun e => absurd e hne⟩
    have hlevel : field.isOrderLevel = false :=
      Bool.eq_false_iff.2 fun hl => hamount ⟨hcount, hdistinct, fun _ => hl⟩
    unfold Of at hp
    simp only [hfirst, hlevel] at hp
    subst hp
    rw [if_pos hfirst, FieldSpec.firstAmount, hlevel, if_neg Bool.false_ne_true]
    cases hl : FieldSpec.leastLine l with
    | none => rfl
    | some f => rfl

end OrderPartial

/-! ### One group -/

namespace FieldSpec

variable (field : FieldSpec)

theorem amountOver_concat (orders : List (List FactRecord)) (l : List FactRecord) :
    field.amountOver (orders ++ [l]) =
      (field.amountOver orders).merge field.orderOp (field.orderAmount l) := by
  unfold amountOver
  rw [List.filterMap_append]
  cases h : field.orderAmount l with
  | none => simp [h]
  | some x => simp [h, reduce_concat]

end FieldSpec

namespace GroupTotal

/-- **A total of a group** is what some orders of the group give for a field. -/
def Of (field : FieldSpec) (orders : List (List FactRecord)) (t : GroupTotal) : Prop :=
  match field.agg with
  | .sum => ∃ a, t = .sum a ∧ a.raw = (field.amountOver orders).getD 0
  | .count => t = .count (orders.map field.orderCount).sum
  | .countDistinct => t = .distinct (KeySet.ofList (orders.flatMap field.distinctKeys))
  | .max | .min => ∃ a, t = .extreme a ∧ rawOf a = field.amountOver orders
  | .first => ∃ a, t = .first a ∧ a.map rawOf = orders.head?.map field.firstAmount

variable {field : FieldSpec} {orders : List (List FactRecord)} {l : List FactRecord}
  {t t' : GroupTotal} {p : OrderPartial}

theorem of_empty (field : FieldSpec) : Of field [] (empty field) := by
  unfold Of empty
  cases field.agg with
  | sum => exact ⟨Amount.zero, rfl, rfl⟩
  | count => rfl
  | countDistinct => rfl
  | max | min | first => exact ⟨none, rfl, rfl⟩

theorem of_absorb_sum (hagg : field.agg = .sum) (ht : Of field orders t)
    (hp : OrderPartial.Of field l p) (h : t.absorb field p = .ok t') :
    Of field (orders ++ [l]) t' := by
  have hraw := hp.rawOf_amount? (by simp [hagg]) (by simp [hagg])
  simp only [hagg, reduceCtorEq, if_false] at hraw
  unfold Of at ht ⊢
  simp only [hagg] at ht ⊢
  obtain ⟨total, rfl, htotal⟩ := ht
  rw [field.amountOver_concat, ← hraw]
  unfold absorb at h
  cases ha : p.amount? with
  | none =>
    simp only [ha] at h
    refine ⟨total, (Except.ok.inj h).symm, ?_⟩
    rw [rawOf, Option.map_none, Option.merge_none_right, htotal]
  | some a =>
    simp only [ha] at h
    cases hadd : total.add? a with
    | none => rw [hadd] at h; cases h
    | some total' =>
      rw [hadd] at h
      refine ⟨total', (Except.ok.inj h).symm, ?_⟩
      rw [Amount.add?_eq_some.1 hadd, htotal, FieldSpec.orderOp, hagg]
      cases field.amountOver orders with
      | none => simp [rawOf]
      | some x => simp [rawOf]

theorem of_absorb_extreme (hagg : field.agg = .max ∨ field.agg = .min) (ht : Of field orders t)
    (hp : OrderPartial.Of field l p) (h : t.absorb field p = .ok t') :
    Of field (orders ++ [l]) t' := by
  have hraw : rawOf p.amount? = field.orderAmount l := by
    rcases hagg with hagg | hagg <;>
      simpa [hagg] using hp.rawOf_amount? (by simp [hagg]) (by simp [hagg])
  -- The greatest and the least value are kept alike.
  have hof : ∀ (orders : List (List FactRecord)) (t : GroupTotal), Of field orders t ↔
      ∃ a, t = .extreme a ∧ rawOf a = field.amountOver orders := by
    intro orders t
    unfold Of
    rcases hagg with hagg | hagg <;> simp only [hagg]
  obtain ⟨current, rfl, hcurrent⟩ := (hof _ _).1 ht
  rw [hof, field.amountOver_concat, ← hraw, ← hcurrent]
  unfold absorb at h
  cases ha : p.amount? with
  | none =>
    simp only [ha] at h
    exact ⟨current, (Except.ok.inj h).symm, (Option.merge_none_right).symm⟩
  | some a =>
    cases current with
    | none =>
      simp only [ha] at h
      exact ⟨some a, (Except.ok.inj h).symm, rfl⟩
    | some c =>
      simp only [ha] at h
      refine ⟨_, (Except.ok.inj h).symm, congrArg some ?_⟩
      rcases hagg with hagg | hagg
      · rw [FieldSpec.orderOp, hagg]
        exact Amount.raw_max c a
      · rw [FieldSpec.orderOp, hagg]
        exact Amount.raw_min c a

/-- **Taking one more order in** gives the total of the orders with that order. -/
theorem Of.absorb (ht : Of field orders t) (hp : OrderPartial.Of field l p)
    (h : t.absorb field p = .ok t') : Of field (orders ++ [l]) t' := by
  cases hagg : field.agg with
  | sum => exact of_absorb_sum hagg ht hp h
  | max => exact of_absorb_extreme (.inl hagg) ht hp h
  | min => exact of_absorb_extreme (.inr hagg) ht hp h
  | count =>
    unfold Of at ht ⊢
    unfold OrderPartial.Of at hp
    simp only [hagg] at ht hp ⊢
    subst ht hp
    unfold GroupTotal.absorb at h
    simp only at h
    split at h
    · rw [← Except.ok.inj h]
      simp
    · cases h
  | countDistinct =>
    unfold Of at ht ⊢
    unfold OrderPartial.Of at hp
    simp only [hagg] at ht hp ⊢
    subst ht hp
    rw [← Except.ok.inj h]
    congr 1
    exact KeySet.ext_mem fun k => by simp
  | first =>
    -- Only the first order counts, and it stays the first one.
    have hraw := hp.rawOf_amount? (by simp [hagg]) (by simp [hagg])
    unfold Of at ht ⊢
    simp only [hagg, if_true] at ht hraw ⊢
    obtain ⟨current, rfl, hcurrent⟩ := ht
    refine ⟨_, (Except.ok.inj h).symm, ?_⟩
    cases orders with
    | nil =>
      rw [List.head?_nil, Option.map_none, Option.map_eq_none_iff] at hcurrent
      subst hcurrent
      simp [hraw]
    | cons order orders =>
      cases current with
      | none => simp at hcurrent
      | some a => simpa using hcurrent

/-- The value of a group is the value of the field over its orders. -/
theorem Of.finish (ht : Of field orders t) : field.Over orders t.finish := by
  unfold Of at ht
  unfold FieldSpec.Over
  cases hagg : field.agg with
  | sum =>
    simp only [hagg] at ht ⊢
    obtain ⟨a, rfl, ha⟩ := ht
    exact ⟨a, rfl, ha⟩
  | count | countDistinct =>
    simp only [hagg] at ht ⊢
    subst ht
    rfl
  | max | min =>
    simp only [hagg] at ht ⊢
    obtain ⟨a, rfl, ha⟩ := ht
    rw [← ha]
    cases a with
    | none => rfl
    | some a => exact ⟨a, rfl, rfl⟩
  | first =>
    simp only [hagg] at ht ⊢
    obtain ⟨a, rfl, ha⟩ := ht
    -- The amount of the first order, which may have none.
    cases hhead : orders.head? with
    | none =>
      rw [hhead] at ha
      obtain rfl := Option.map_eq_none_iff.1 ha
      rfl
    | some order =>
      rw [hhead] at ha
      obtain ⟨b, rfl, hb⟩ := Option.map_eq_some_iff.1 ha
      rw [Option.bind_some, ← hb]
      cases b with
      | none => rfl
      | some b => exact ⟨b, rfl, rfl⟩

end GroupTotal

/-! ### All groups -/

/-- The lines of a group. -/
def ofGroup (dimensions : List Dimension) (facts : List FactRecord) (key : GroupKey) :
    List FactRecord :=
  facts.filter fun f => groupKey dimensions f = key

/-- The keys of the groups of some lines, ascending. -/
def groupKeys (dimensions : List Dimension) (facts : List FactRecord) : List GroupKey :=
  (KeySet.ofList (facts.map (groupKey dimensions))).members

theorem mem_groupKeys {dimensions : List Dimension} {facts : List FactRecord} {key : GroupKey} :
    key ∈ groupKeys dimensions facts ↔ ∃ f ∈ facts, groupKey dimensions f = key := by
  rw [groupKeys, KeySet.mem_ofList, List.mem_map]

theorem groupKeys_perm {dimensions : List Dimension} {facts facts' : List FactRecord}
    (h : facts.Perm facts') : groupKeys dimensions facts = groupKeys dimensions facts' := by
  unfold groupKeys
  congr 1
  exact KeySet.ext_mem fun k => by
    rw [KeySet.mem_ofList, KeySet.mem_ofList, (h.map _).mem_iff]

/-- **The values of some fields over some lines**, and no others. -/
structure Values.Of (fields : List FieldSpec) (facts : List FactRecord) (values : Values) :
    Prop where
  /-- The value of each field. -/
  worth : ∀ field ∈ fields, ∃ m, values.get? field.name = some m ∧ field.Worth facts m
  /-- No other value. -/
  only : ∀ name, name ∉ fields.map (·.name) → values.get? name = none

theorem Values.Of.unique {fields : List FieldSpec} {facts : List FactRecord} {v v' : Values}
    (h : v.Of fields facts) (h' : v'.Of fields facts) : v = v' := by
  refine SortedMap.ext_get? fun name => ?_
  by_cases hname : name ∈ fields.map (·.name)
  · obtain ⟨field, hfield, rfl⟩ := List.mem_map.1 hname
    obtain ⟨m, hm, hw⟩ := h.worth field hfield
    obtain ⟨m', hm', hw'⟩ := h'.worth field hfield
    rw [hm, hm', hw.unique hw']
  · rw [h.only name hname, h'.only name hname]

theorem Values.Of.perm {fields : List FieldSpec} {facts facts' : List FactRecord} {v : Values}
    (h : v.Of fields facts) (hperm : facts.Perm facts')
    (hid : (facts.map (·.recordId)).Nodup) : v.Of fields facts' where
  worth field hfield := by
    obtain ⟨m, hm, hw⟩ := h.worth field hfield
    exact ⟨m, hm, hw.perm hperm hid⟩
  only := h.only

namespace Kernel

variable {dimensions : List Dimension} {fields : List FieldSpec} {facts l : List FactRecord}

theorem of_accumulateAll {f : FactRecord} {ps ps' : OrderPartials}
    (hps : List.Forall₂ (fun field p => OrderPartial.Of field l p) fields ps)
    (h : accumulateAll fields ps f = .ok ps') :
    List.Forall₂ (fun field p => OrderPartial.Of field (l ++ [f]) p) fields ps' := by
  induction hps generalizing ps' with
  | nil =>
    cases h
    exact .nil
  | cons hp _ ih =>
    obtain ⟨p', hp', h⟩ := Except.bind_eq_ok.1 h
    obtain ⟨rest, hrest, h⟩ := Except.bind_eq_ok.1 h
    cases h
    exact .cons (hp.accumulate hp') (ih hrest)

theorem of_absorbAll {orders : List (List FactRecord)} {ts ts' : List GroupTotal}
    {ps : OrderPartials}
    (hts : List.Forall₂ (fun field t => GroupTotal.Of field orders t) fields ts)
    (hps : List.Forall₂ (fun field p => OrderPartial.Of field l p) fields ps)
    (h : absorbAll fields ts ps = .ok ts') :
    List.Forall₂ (fun field t => GroupTotal.Of field (orders ++ [l]) t) fields ts' := by
  induction hts generalizing ps ts' with
  | nil =>
    cases h
    exact .nil
  | cons ht _ ih =>
    obtain _ | ⟨hp, hps⟩ := hps
    obtain ⟨t', ht', h⟩ := Except.bind_eq_ok.1 h
    obtain ⟨rest, hrest, h⟩ := Except.bind_eq_ok.1 h
    cases h
    exact .cons (ht.absorb hp ht') (ih hps hrest)

/-! ### The first phase -/

/-- The orders of a group; none if the group is missing. -/
def Gathered.orders (g : Gathered) (key : GroupKey) : SortedMap String OrderPartials :=
  g.getD key .empty

/-- The partial results of an order of a group; those of no line if the order is missing. -/
def Gathered.partials (fields : List FieldSpec) (g : Gathered) (key : GroupKey) (id : String) :
    OrderPartials :=
  (g.orders key).getD id (fields.map .empty)

/-- **What has been gathered** stands for some lines. -/
structure Gathered.Of (dimensions : List Dimension) (fields : List FieldSpec)
    (facts : List FactRecord) (g : Gathered) : Prop where
  /-- The groups are those of the lines. -/
  keys : ∀ key, key ∈ g.keys ↔ ∃ f ∈ facts, groupKey dimensions f = key
  /-- The orders of a group are those of its lines. -/
  ids : ∀ key id, id ∈ (g.orders key).keys ↔ ∃ f ∈ ofGroup dimensions facts key, f.orderId = id
  /-- The partial results of an order stand for its lines in the group. -/
  partials : ∀ key id, List.Forall₂
    (fun field p => OrderPartial.Of field (ofOrder (ofGroup dimensions facts key) id) p) fields
    (g.partials fields key id)

theorem forall₂_empty (fields : List FieldSpec) :
    List.Forall₂ (fun field p => OrderPartial.Of field [] p) fields (fields.map .empty) :=
  List.forall₂_map_right_iff.2 (List.forall₂_same.2 fun field _ => OrderPartial.of_empty field)

theorem forall₂_empty_total (fields : List FieldSpec) :
    List.Forall₂ (fun field t => GroupTotal.Of field [] t) fields (fields.map .empty) :=
  List.forall₂_map_right_iff.2 (List.forall₂_same.2 fun field _ => GroupTotal.of_empty field)

namespace Gathered

theorem of_empty : Of dimensions fields [] .empty where
  keys key := by simp [SortedMap.keys]
  ids key id := by simp [orders, SortedMap.getD, SortedMap.keys, ofGroup]
  partials _ _ := forall₂_empty fields

theorem orders_insert (g : Gathered) (key key' : GroupKey) (m : SortedMap String OrderPartials) :
    orders (SortedMap.insert g key m) key' = if key' = key then m else g.orders key' :=
  SortedMap.getD_insert g key key' m .empty

theorem exists_mem_concat {l : List FactRecord} {f : FactRecord} {P : FactRecord → Prop} :
    (∃ x ∈ l ++ [f], P x) ↔ (∃ x ∈ l, P x) ∨ P f := by
  simp [or_and_right, exists_or]

theorem ofGroup_concat_self (facts : List FactRecord) (f : FactRecord) :
    ofGroup dimensions (facts ++ [f]) (groupKey dimensions f) =
      ofGroup dimensions facts (groupKey dimensions f) ++ [f] := by
  simp [ofGroup]

theorem ofGroup_concat_other (facts : List FactRecord) {f : FactRecord} {key : GroupKey}
    (h : key ≠ groupKey dimensions f) :
    ofGroup dimensions (facts ++ [f]) key = ofGroup dimensions facts key := by
  simp [ofGroup, Ne.symm h]

/-- **Taking one more line in.** -/
theorem Of.gatherLine {g g' : Gathered} {f : FactRecord} (hg : Of dimensions fields facts g)
    (h : gatherLine dimensions fields none g f = .ok g') :
    Of dimensions fields (facts ++ [f]) g' := by
  simp only [Kernel.gatherLine, Option.any_none, Bool.false_eq_true, if_false] at h
  obtain ⟨ps, hps, h⟩ := Except.bind_eq_ok.1 h
  cases h
  have hps' := of_accumulateAll (hg.partials (groupKey dimensions f) f.orderId) hps
  -- Only the group of the line changes, and in it only the order of the line.
  refine ⟨fun key => ?_, fun key id => ?_, fun key id => ?_⟩
  · rw [SortedMap.mem_keys_insert, hg.keys, exists_mem_concat, or_comm, eq_comm]
  · rw [orders_insert]
    by_cases hkey : key = groupKey dimensions f
    · subst hkey
      rw [if_pos rfl, SortedMap.mem_keys_insert, ofGroup_concat_self]
      change id = f.orderId ∨ id ∈ (g.orders _).keys ↔ _
      rw [hg.ids, exists_mem_concat, or_comm, eq_comm]
    · rw [if_neg hkey, hg.ids, ofGroup_concat_other facts hkey]
  · unfold Gathered.partials
    rw [orders_insert]
    by_cases hkey : key = groupKey dimensions f
    · subst hkey
      rw [if_pos rfl, SortedMap.getD_insert, ofGroup_concat_self, ofOrder_append]
      by_cases hid : id = f.orderId
      · subst hid
        rw [if_pos rfl]
        simpa [ofOrder] using hps'
      · rw [if_neg hid]
        have hother : ofOrder [f] id = [] := by simp [ofOrder, Ne.symm hid]
        rw [hother, List.append_nil]
        exact hg.partials (groupKey dimensions f) id
    · rw [if_neg hkey, ofGroup_concat_other facts hkey]
      exact hg.partials key id

end Gathered

/-- The first phase gathers its lines. -/
theorem of_gather {g : Gathered} (h : gather dimensions fields facts none = .ok g) :
    g.Of dimensions fields facts :=
  List.foldlM_ok_induction (P := fun l g => Gathered.Of dimensions fields l g) h
    Gathered.of_empty fun _ _ _ _ _ hg hstep => hg.gatherLine hstep

/-! ### The second phase -/

/-- The values of a map, key by key. -/
theorem values_eq_map_getD {κ α : Type} [LT κ] [KeyOrder κ] (m : SortedMap κ α) (fallback : α) :
    m.values = m.keys.map fun k => m.getD k fallback := by
  rw [SortedMap.values, SortedMap.keys, List.map_map]
  refine List.map_congr_left fun e he => ?_
  rw [Function.comp_apply, SortedMap.getD, SortedMap.mem_toList.1 (show (e.1, e.2) ∈ _ from he)]
  rfl

/-- The orders of a group that is an entry. -/
theorem Gathered.orders_of_mem {g : Gathered} {e : GroupKey × SortedMap String OrderPartials}
    (he : e ∈ SortedMap.toList g) : g.orders e.1 = e.2 := by
  rw [Gathered.orders, SortedMap.getD, SortedMap.mem_toList.1 (show (e.1, e.2) ∈ _ from he)]
  rfl

/-- The partial results of a group, order by order. -/
theorem Gathered.Of.values_orders {g : Gathered} (hg : g.Of dimensions fields facts) (key : GroupKey) :
    (g.orders key).values =
      (orderIds (ofGroup dimensions facts key)).map (g.partials fields key) := by
  have hids : (g.orders key).keys = orderIds (ofGroup dimensions facts key) :=
    KeySet.keys_eq_members fun id => by rw [hg.ids, KeySet.mem_ofList, List.mem_map]
  rw [values_eq_map_getD _ (fields.map .empty), hids]
  rfl

/-- Taking in the orders of a group, one after the other, gives their totals. -/
theorem Gathered.Of.totals {g : Gathered} (hg : g.Of dimensions fields facts) {key : GroupKey}
    {totals : List GroupTotal}
    (h : (g.orders key).values.foldlM (absorbAll fields) (fields.map .empty) = .ok totals) :
    List.Forall₂ (fun field t => GroupTotal.Of field (perOrder (ofGroup dimensions facts key)) t)
      fields totals := by
  rw [hg.values_orders, List.foldlM_map] at h
  refine List.foldlM_ok_induction (P := fun ids ts => List.Forall₂
    (fun field t => GroupTotal.Of field (ids.map (ofOrder (ofGroup dimensions facts key))) t)
    fields ts) h (forall₂_empty_total fields) fun done id ts ts' _ hts hstep => ?_
  rw [List.map_append]
  exact of_absorbAll hts (hg.partials key id) hstep

/-- **The second phase** gives the values of a group over its lines. -/
theorem Gathered.Of.summarize {g : Gathered} (hg : g.Of dimensions fields facts) {key : GroupKey}
    {values : Values} (hnames : (fields.map (·.name)).Nodup)
    (h : summarize fields (g.orders key) = .ok values) :
    values.Of fields (ofGroup dimensions facts key) := by
  obtain ⟨totals, htotals, h⟩ := Except.bind_eq_ok.1 h
  cases h
  have hof := hg.totals htotals
  have hlength := hof.length_eq
  have hkeys : ((fields.zip totals).map fun (x : FieldSpec × GroupTotal) =>
      (x.1.name, x.2.finish)).map Prod.fst = fields.map (·.name) := by
    calc _ = ((fields.zip totals).map Prod.fst).map (·.name) := by simp [Function.comp_def]
      _ = fields.map (·.name) := by rw [List.map_fst_zip (Nat.le_of_eq hlength)]
  refine ⟨fun field hfield => ?_, fun name hname => ?_⟩
  · obtain ⟨i, hi, rfl⟩ := List.mem_iff_getElem.1 hfield
    have hi' : i < totals.length := hlength ▸ hi
    refine ⟨totals[i].finish, ?_, (List.forall₂_iff_get.1 hof).2 i hi hi' |>.finish⟩
    have hzip : (fields[i], totals[i]) ∈ fields.zip totals :=
      List.mem_iff_getElem.2 ⟨i, by rw [List.length_zip]; omega, List.getElem_zip⟩
    exact SortedMap.get?_ofList_of_mem (hkeys ▸ hnames) (List.mem_map.2 ⟨_, hzip, rfl⟩)
  · exact SortedMap.get?_ofList_of_notMem (hkeys ▸ hname)

/-! ### Rows -/

/-- **The rows of some lines**: one for each group, with the values of its lines. -/
structure Rows (dimensions : List Dimension) (fields : List FieldSpec) (facts : List FactRecord)
    (rows : List AggregateRow) : Prop where
  /-- The groups are those of the lines, in ascending order. -/
  keys : rows.map (·.key) = groupKeys dimensions facts
  /-- The values of a group are those of its lines. -/
  values : ∀ row ∈ rows, row.values.Of fields (ofGroup dimensions facts row.key)

/-- The second phase for one group gives its row. -/
theorem summarize_of_row {e : GroupKey × SortedMap String OrderPartials} {row : AggregateRow}
    (h : (do let values ← summarize fields e.2
             return { key := e.1, values } : Except AggregationError AggregateRow) = .ok row) :
    row.key = e.1 ∧ summarize fields e.2 = .ok row.values := by
  obtain ⟨values, hvalues, h⟩ := Except.bind_eq_ok.1 h
  cases h
  exact ⟨rfl, hvalues⟩

/-- There is one row for each group of the lines. -/
theorem keys_of_aggregate {rows : List AggregateRow}
    (h : aggregate dimensions fields facts none = .ok rows) :
    rows.map (·.key) = groupKeys dimensions facts := by
  obtain ⟨g, hg, h⟩ := Except.bind_eq_ok.1 h
  rw [List.map_eq_of_mapM_eq_ok (g := AggregateRow.key) h fun e row h => (summarize_of_row h).1]
  exact KeySet.keys_eq_members fun key => by
    rw [(of_gather hg).keys, KeySet.mem_ofList, List.mem_map]

/-- The values of each row come from the second phase. -/
theorem summarize_of_aggregate {rows : List AggregateRow}
    (h : aggregate dimensions fields facts none = .ok rows) : ∃ g : Gathered,
    g.Of dimensions fields facts ∧ ∀ row ∈ rows, summarize fields (g.orders row.key) = .ok row.values := by
  obtain ⟨g, hg, h⟩ := Except.bind_eq_ok.1 h
  refine ⟨g, of_gather hg, fun row hmem => ?_⟩
  obtain ⟨e, he, h⟩ := List.exists_of_mem_mapM_eq_ok h hmem
  obtain ⟨hkey, hvalues⟩ := summarize_of_row h
  rw [hkey, Gathered.orders_of_mem he]
  exact hvalues

/-- **Aggregation gives the rows of its lines.** -/
theorem aggregate_rows {rows : List AggregateRow} (hnames : (fields.map (·.name)).Nodup)
    (h : aggregate dimensions fields facts none = .ok rows) :
    Rows dimensions fields facts rows := by
  obtain ⟨g, hg, hvalues⟩ := summarize_of_aggregate h
  exact ⟨keys_of_aggregate h, fun row hmem => hg.summarize hnames (hvalues row hmem)⟩

namespace Rows

/-- The rows of the same lines for different fields, one by one. -/
theorem forall₂ {fields' : List FieldSpec} {rows rows' : List AggregateRow}
    (h : Rows dimensions fields facts rows) (h' : Rows dimensions fields' facts rows') :
    rows.Forall₂ (fun row row' => row.key = row'.key ∧
      row.values.Of fields (ofGroup dimensions facts row.key) ∧
      row'.values.Of fields' (ofGroup dimensions facts row.key)) rows' := by
  have hkeys := h.keys.trans h'.keys.symm
  have hlength : rows.length = rows'.length := by simpa using congrArg List.length hkeys
  refine List.forall₂_iff_get.2 ⟨hlength, fun i hi hi' => ?_⟩
  have hkey : rows[i].key = rows'[i].key := by
    simpa [hi, hi'] using congrArg (·[i]?) hkeys
  exact ⟨hkey, h.values _ (List.getElem_mem hi), by
    rw [List.get_eq_getElem, List.get_eq_getElem, hkey]
    exact h'.values _ (List.getElem_mem hi')⟩

/-- Lines have only one list of rows. -/
theorem unique {rows rows' : List AggregateRow} (h : Rows dimensions fields facts rows)
    (h' : Rows dimensions fields facts rows') : rows = rows' := by
  refine List.forall₂_eq_eq_eq ▸ (h.forall₂ h').imp fun row row' hrow => ?_
  calc row = ⟨row.key, row.values⟩ := rfl
    _ = ⟨row'.key, row'.values⟩ := by rw [hrow.1, hrow.2.1.unique hrow.2.2]

/-- The rows of lines that come in another order. -/
theorem perm {facts' : List FactRecord} {rows : List AggregateRow}
    (h : Rows dimensions fields facts rows) (hperm : facts.Perm facts')
    (hid : (facts.map (·.recordId)).Nodup) : Rows dimensions fields facts' rows where
  keys := h.keys.trans (groupKeys_perm hperm)
  values row hrow := (h.values row hrow).perm (hperm.filter _)
    (hid.sublist (List.filter_sublist.map _))

end Rows

end Kernel

end RetailReport
