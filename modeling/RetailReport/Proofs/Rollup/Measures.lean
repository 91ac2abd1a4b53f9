import Mathlib.Data.Finset.Card
import RetailReport.Proofs.Rollup.Slices

/-!
# What a report says about its groups

The value of a field for a group, in the words of a report: a sum of amounts, a number of lines or of
orders, an extreme amount, the first amount.  A field of orders is measured by the greatest amount of
each order, however many lines repeat it.  Nothing here is taken order by order unless the measure
itself speaks of orders, so this is not how the value is computed.

## Main definitions

* `FieldSpec.figures`: the amounts that a field is measured by.
* `IsFirst`: the first line of the first order.
* `FieldSpec.Measures`: the value of a field for some lines.

## Main results

* `reduce_flatten`: numbers may be put together in portions.
* `FieldSpec.Worth.measures`: what lines are worth is what a report says about them.
* `Kernel.aggregate_measures`: the rows of an aggregation and their values.
-/

namespace RetailReport

-- The zero of a sum is that of its numerals.
attribute [local instance (high)] Zero.ofOfNat0

/-! ### Numbers in portions -/

section Reduce

variable {op : Int → Int → Int}

theorem reduce_cons (x : Int) (l : List Int) : reduce op (x :: l) = some (l.foldl op x) := by
  induction l using List.reverseRecOn with
  | nil => rfl
  | append_singleton l y ih =>
    rw [← List.cons_append, reduce_concat, ih, List.foldl_append]
    rfl

/-- **Numbers may be put together in portions**, first within each and then over all of them. -/
theorem reduce_flatten [Std.Associative op] (ls : List (List Int)) :
    reduce op (ls.filterMap (reduce op)) = reduce op ls.flatten := by
  induction ls with
  | nil => rfl
  | cons l ls ih =>
    rw [List.flatten_cons, reduce_append, ← ih]
    cases h : reduce op l with
    | none => rw [List.filterMap_cons_none h, Option.merge_none_left]
    | some x =>
      rw [List.filterMap_cons_some h, ← List.singleton_append, reduce_append]
      rfl

theorem reduce_max (l : List Int) : reduce max l = l.max? := by
  cases l with
  | nil => rfl
  | cons x l => rw [reduce_cons, List.max?_cons']

theorem reduce_min (l : List Int) : reduce min l = l.min? := by
  cases l with
  | nil => rfl
  | cons x l => rw [reduce_cons, List.min?_cons']

theorem reduce_add (l : List Int) : (reduce (· + ·) l).getD 0 = l.sum := by
  induction l using List.reverseRecOn with
  | nil => rfl
  | append_singleton l x ih =>
    rw [reduce_concat, List.sum_append, List.sum_singleton, ← ih]
    cases reduce (· + ·) l <;> simp

end Reduce

/-! ### Orders of lines -/

/-- The orders of some lines hold each line once. -/
theorem perOrder_flatten_perm {l : List FactRecord} (hl : l.Nodup) :
    (perOrder l).flatten.Perm l := by
  unfold perOrder
  rw [← List.flatMap_def]
  refine (List.perm_ext_iff_of_nodup ?_ hl).2 fun f => ?_
  · refine List.nodup_flatMap.2 ⟨fun id _ => hl.filter _, ?_⟩
    refine (nodup_orderIds l).imp fun hne f hf hf' => hne ?_
    exact (of_decide_eq_true (List.mem_filter.1 hf).2).symm.trans
      (of_decide_eq_true (List.mem_filter.1 hf').2)
  · simp only [List.mem_flatMap, ofOrder, List.mem_filter, decide_eq_true_eq]
    constructor
    · rintro ⟨_, _, hf, _⟩
      exact hf
    · intro hf
      exact ⟨f.orderId, mem_orderIds.2 ⟨f, hf, rfl⟩, hf, rfl⟩

/-- **The first line of the first order** of some lines: that with the least id, among those of the
order with the least id. -/
structure IsFirst (l : List FactRecord) (f : FactRecord) : Prop where
  /-- The line is one of them. -/
  mem : f ∈ l
  /-- All others come after it. -/
  least : ∀ g ∈ l, g ≠ f →
    f.orderId < g.orderId ∨ f.orderId = g.orderId ∧ f.recordId < g.recordId

/-- The line with the least id of the first order is the first line. -/
theorem isFirst_of_leastLine {l : List FactRecord} {f : FactRecord} {id : String}
    {ids : List String} (hid : (l.map (·.recordId)).Nodup) (hids : orderIds l = id :: ids)
    (hf : FieldSpec.leastLine (ofOrder l id) = some f) : IsFirst l f ∧ f.orderId = id := by
  have hspec := FieldSpec.leastLine_spec (ofOrder l id)
  rw [hf] at hspec
  obtain ⟨hmem, hleast⟩ := hspec
  obtain ⟨hfl, horder⟩ := List.mem_filter.1 hmem
  have horder : f.orderId = id := of_decide_eq_true horder
  have hsorted : (id :: ids).Pairwise (· < ·) := hids ▸ SortedMap.pairwise_keys _
  refine ⟨⟨hfl, fun g hg hne => ?_⟩, horder⟩
  have hg' : g.orderId ∈ id :: ids := hids ▸ mem_orderIds.2 ⟨g, hg, rfl⟩
  rw [horder]
  rcases List.mem_cons.1 hg' with e | hin
  · refine .inr ⟨e.symm, ?_⟩
    have hnot := hleast g (List.mem_filter.2 ⟨hg, decide_eq_true e⟩)
    refine Classical.byContradiction fun hnot' => hne ?_
    exact List.inj_on_of_nodup_map hid hg hfl (KeyOrder.eq_of_not_lt hnot hnot')
  · exact .inl ((List.pairwise_cons.1 hsorted).1 _ hin)

/-! ### Measures of lines -/

namespace FieldSpec

variable (field : FieldSpec)

/-- The amounts that some lines have for a field. -/
def amounts (l : List FactRecord) : List Int := l.filterMap field.raw?

/-- The greatest amount of each order that has one. -/
def orderMaxima (l : List FactRecord) : List Int :=
  (perOrder l).filterMap fun order => (field.amounts order).max?

/-- The amounts that a field is measured by: those of the lines, or one for each order. -/
def figures (l : List FactRecord) : List Int :=
  if field.isOrderLevel then field.orderMaxima l else field.amounts l

/-- Whether a line has a value. -/
def hasValue (f : FactRecord) : Bool := (lineValue? field f).isSome

/-- The number of lines with a value, or of orders with one. -/
def number (l : List FactRecord) : Nat :=
  if field.isOrderLevel then (perOrder l).countP fun order => order.any field.hasValue
  else l.countP field.hasValue

/-- The values of some lines. -/
def lineValues (l : List FactRecord) : List LineValue := l.filterMap (lineValue? field)

/-- **What a report says about some lines**: the value of a field in exact arithmetic. -/
def Measures (l : List FactRecord) (m : Metric) : Prop :=
  match field.agg with
  | .sum => m.Is (some (field.figures l).sum)
  | .count => m = .count (field.number l)
  | .countDistinct => m = .count (field.lineValues l).dedup.length
  | .max => m.Is (field.figures l).max?
  | .min => m.Is (field.figures l).min?
  | .first => ∃ f, IsFirst l f ∧
    m.Is (if field.isOrderLevel then (field.amounts (ofOrder l f.orderId)).max? else field.raw? f)

variable {field : FieldSpec} {l : List FactRecord}

/-! ### Amounts -/

theorem orderAmount_of_isOrderLevel (hlevel : field.isOrderLevel = true) (l : List FactRecord) :
    field.orderAmount l = (field.amounts l).max? := by
  rw [orderAmount, lineOp, if_pos hlevel, reduce_max, amounts]

theorem orderOp_of_item (hlevel : field.isOrderLevel = false) : field.orderOp = field.lineOp := by
  rw [lineOp, hlevel, if_neg Bool.false_ne_true, orderOp]

/-- The amounts of all orders come down to the amounts that the field is measured by. -/
theorem amountOver_perOrder (hl : l.Nodup) :
    field.amountOver (perOrder l) = reduce field.orderOp (field.figures l) := by
  unfold amountOver figures
  cases hlevel : field.isOrderLevel with
  | true =>
    rw [if_pos rfl, orderMaxima]
    congr 1
    exact List.filterMap_congr fun order _ => orderAmount_of_isOrderLevel hlevel order
  | false =>
    rw [if_neg Bool.false_ne_true, orderOp_of_item hlevel]
    calc reduce field.lineOp ((perOrder l).filterMap field.orderAmount)
        = reduce field.lineOp (((perOrder l).map field.amounts).filterMap
            (reduce field.lineOp)) := by rw [List.filterMap_map]; rfl
      _ = reduce field.lineOp (field.amounts (perOrder l).flatten) := by
          rw [reduce_flatten, amounts, List.filterMap_flatten]; rfl
      _ = reduce field.lineOp (field.amounts l) :=
          reduce_perm ((perOrder_flatten_perm hl).filterMap _)

/-! ### Numbers of values -/

theorem min_countP_one (p : FactRecord → Bool) (l : List FactRecord) :
    min (l.countP p) 1 = if l.any p then 1 else 0 := by
  split
  · next h =>
    have := List.countP_pos_iff.2 (List.any_eq_true.1 h)
    omega
  · next h =>
    rw [List.countP_eq_zero.2 fun f hf hp => h (List.any_eq_true.2 ⟨f, hf, hp⟩)]
    rfl

/-- The numbers of values of all orders come down to the number of lines, or of orders. -/
theorem sum_orderCount_perOrder (hl : l.Nodup) :
    ((perOrder l).map field.orderCount).sum = field.number l := by
  unfold number orderCount
  cases field.isOrderLevel with
  | true =>
    simp only [if_true]
    induction perOrder l with
    | nil => rfl
    | cons order orders ih =>
      rw [List.map_cons, List.sum_cons, ih, List.countP_cons, Nat.add_comm]
      exact congrArg _ (min_countP_one field.hasValue order)
  | false =>
    simp only [Bool.false_eq_true, if_false]
    rw [← (perOrder_flatten_perm hl).countP_eq, List.countP_flatten]
    rfl

/-! ### Distinct values -/

/-- Values of one field are told apart by their keys: they are all amounts, or all ids. -/
theorem distinctKey_inj {f g : FactRecord} {v w : LineValue} (hv : lineValue? field f = some v)
    (hw : lineValue? field g = some w) (h : v.distinctKey = w.distinctKey) : v = w := by
  unfold lineValue? at hv hw
  cases hsource : field.source with
  | field name =>
    simp only [hsource] at hv hw
    obtain ⟨a, -, rfl⟩ := Option.map_eq_some_iff.1 hv
    obtain ⟨b, -, rfl⟩ := Option.map_eq_some_iff.1 hw
    rw [Amount.ext (Digits.signed_inj (String.ofList_injective h))]
  | constant a =>
    simp only [hsource] at hv hw
    exact Option.some.inj (hv.symm.trans hw)
  | orderId | recordId =>
    simp only [hsource] at hv hw
    obtain rfl := Option.some.inj hv
    obtain rfl := Option.some.inj hw
    exact congrArg LineValue.text h

theorem mem_flatMap_distinctKeys (hl : l.Nodup) {k : String} :
    k ∈ (perOrder l).flatMap field.distinctKeys ↔
      k ∈ (field.lineValues l).map LineValue.distinctKey := by
  rw [lineValues, List.map_filterMap, List.flatMap_def]
  unfold distinctKeys
  rw [← List.filterMap_flatten, ((perOrder_flatten_perm hl).filterMap _).mem_iff]

/-- There are as many keys of values as values. -/
theorem size_distinctKeys (hl : l.Nodup) :
    (KeySet.ofList ((perOrder l).flatMap field.distinctKeys)).size =
      (field.lineValues l).dedup.length := by
  have hinj : Set.InjOn LineValue.distinctKey (field.lineValues l).toFinset := by
    intro v hv w hw e
    obtain ⟨f, -, hf⟩ := List.mem_filterMap.1 (List.mem_toFinset.1 hv)
    obtain ⟨g, -, hg⟩ := List.mem_filterMap.1 (List.mem_toFinset.1 hw)
    exact distinctKey_inj hf hg e
  have hkeys : (KeySet.ofList ((perOrder l).flatMap field.distinctKeys)).members.toFinset =
      (field.lineValues l).toFinset.image LineValue.distinctKey := by
    ext k
    rw [List.mem_toFinset, KeySet.mem_ofList, mem_flatMap_distinctKeys hl, Finset.mem_image,
      List.mem_map]
    simp only [List.mem_toFinset]
  calc (KeySet.ofList ((perOrder l).flatMap field.distinctKeys)).size
      = (KeySet.ofList ((perOrder l).flatMap field.distinctKeys)).members.length :=
        (List.length_map _).symm
    _ = (KeySet.ofList ((perOrder l).flatMap field.distinctKeys)).members.toFinset.card :=
        (List.toFinset_card_of_nodup (KeySet.nodup_members _)).symm
    _ = (field.lineValues l).toFinset.card := by rw [hkeys, Finset.card_image_of_injOn hinj]
    _ = (field.lineValues l).dedup.length := List.card_toFinset _

/-! ### The first value -/

theorem firstAmount_spec (hid : (l.map (·.recordId)).Nodup) (hl : l ≠ []) :
    ∃ f, IsFirst l f ∧ (perOrder l).head?.bind field.firstAmount =
      if field.isOrderLevel then (field.amounts (ofOrder l f.orderId)).max? else field.raw? f := by
  obtain ⟨g, hg⟩ := List.exists_mem_of_ne_nil l hl
  obtain ⟨id, ids, hids⟩ := List.exists_cons_of_ne_nil
    (List.ne_nil_of_mem (mem_orderIds.2 ⟨g, hg, rfl⟩))
  have hspec := leastLine_spec (ofOrder l id)
  cases hleast : leastLine (ofOrder l id) with
  | none =>
    rw [hleast] at hspec
    obtain ⟨f, hf, he⟩ := mem_orderIds.1 (hids ▸ List.mem_cons_self : id ∈ orderIds l)
    exact absurd hspec (List.ne_nil_of_mem (List.mem_filter.2 ⟨hf, decide_eq_true he⟩))
  | some f =>
    obtain ⟨hfirst, horder⟩ := isFirst_of_leastLine hid hids hleast
    refine ⟨f, hfirst, ?_⟩
    rw [perOrder, hids, List.map_cons, List.head?_cons, Option.bind_some, firstAmount, hleast,
      Option.bind_some, horder]
    split
    · next hlevel => exact orderAmount_of_isOrderLevel hlevel _
    · rfl

/-- **What lines are worth is what a report says about them.** -/
theorem Worth.measures {m : Metric} (hid : (l.map (·.recordId)).Nodup) (hl : l ≠ [])
    (h : field.Worth l m) : field.Measures l m := by
  have hnodup : l.Nodup := .of_map _ hid
  unfold Worth Over at h
  unfold Measures
  cases hagg : field.agg with
  | sum =>
    simp only [hagg, amountOver_perOrder hnodup, orderOp] at h ⊢
    rwa [reduce_add] at h
  | count =>
    simp only [hagg] at h ⊢
    rw [h, sum_orderCount_perOrder hnodup]
  | countDistinct =>
    simp only [hagg] at h ⊢
    rw [h, size_distinctKeys hnodup]
  | max =>
    simp only [hagg, amountOver_perOrder hnodup, orderOp] at h ⊢
    rwa [reduce_max] at h
  | min =>
    simp only [hagg, amountOver_perOrder hnodup, orderOp] at h ⊢
    rwa [reduce_min] at h
  | first =>
    simp only [hagg] at h ⊢
    obtain ⟨f, hf, e⟩ := firstAmount_spec hid hl
    exact ⟨f, hf, e ▸ h⟩

end FieldSpec

/-! ### Rows -/

namespace Kernel

variable {dimensions : List Dimension} {fields : List FieldSpec} {facts : List FactRecord}

/-- **The rows of an aggregation**: one for each group, in ascending order of the keys, with the
value of each field as a report states it, and no others. -/
theorem aggregate_measures {rows : List AggregateRow} (hnames : (fields.map (·.name)).Nodup)
    (hid : (facts.map (·.recordId)).Nodup)
    (h : aggregate dimensions fields facts none = .ok rows) :
    (rows.map (·.key)).Pairwise (· < ·) ∧
    (∀ key, key ∈ rows.map (·.key) ↔ ∃ f ∈ facts, groupKey dimensions f = key) ∧
    ∀ row ∈ rows,
      (∀ field ∈ fields, ∃ m, row.values.get? field.name = some m ∧
        field.Measures (ofGroup dimensions facts row.key) m) ∧
      ∀ name, name ∉ fields.map (·.name) → row.values.get? name = none := by
  have hrows := aggregate_rows hnames h
  refine ⟨hrows.keys ▸ SortedMap.pairwise_keys _, fun key => hrows.keys ▸ mem_groupKeys,
    fun row hrow => ⟨fun field hfield => ?_, (hrows.values row hrow).only⟩⟩
  obtain ⟨m, hm, hworth⟩ := (hrows.values row hrow).worth field hfield
  obtain ⟨f, hf, hkey⟩ := mem_groupKeys.1 (hrows.keys ▸ List.mem_map_of_mem hrow)
  refine ⟨m, hm, hworth.measures (hid.sublist (List.filter_sublist.map _)) ?_⟩
  exact List.ne_nil_of_mem (List.mem_filter.2 ⟨hf, decide_eq_true hkey⟩)

/-! ### Two orders with fees -/

/-- A line with a price, and the delivery fee of its order. -/
def feeLine (recordId orderId : String) (price fee : Option Amount) : FactRecord :=
  { sampleLine "S1" recordId with
    orderId
    itemFields := .ofList (price.toList.map fun a => ("price", a))
    orderFields := .ofList (fee.toList.map fun a => ("fee", a)) }

/-- Two orders that come mixed up; the fee of `o1` stands on two of its three lines. -/
def mixedOrders : List FactRecord :=
  [feeLine "r5" "o2" (some { raw := 70000 }) none,
    feeLine "r4" "o1" (some { raw := 20000 }) (some { raw := 60000 }),
    feeLine "r2" "o1" none (some { raw := 60000 }),
    feeLine "r3" "o1" (some { raw := 20000 }) none]

/-- Fields of all kinds, of lines and of orders. -/
def feeFields : List FieldSpec :=
  [⟨"revenue", .field "price", .sum, false⟩, ⟨"fees", .field "fee", .sum, true⟩,
    ⟨"delivered", .field "fee", .count, true⟩, ⟨"prices", .field "price", .countDistinct, false⟩,
    ⟨"highest", .field "fee", .max, true⟩, ⟨"lowest", .field "price", .min, false⟩,
    ⟨"opening", .field "price", .first, false⟩, ⟨"opening_fee", .field "fee", .first, true⟩]

/-- The report of the two orders: the fee counts once, and the first line `r2` has no price. -/
def feeReport : AggregateRow where
  key := ["APP"]
  values := .ofList [("revenue", .amount { raw := 110000 }), ("fees", .amount { raw := 60000 }),
    ("delivered", .count 1), ("prices", .count 2), ("highest", .amount { raw := 60000 }),
    ("lowest", .amount { raw := 20000 }), ("opening", .null),
    ("opening_fee", .amount { raw := 60000 })]

theorem aggregate_measures_mixedOrders : (feeFields.map (·.name)).Nodup ∧
    (mixedOrders.map (·.recordId)).Nodup ∧
    aggregate [.channel] feeFields mixedOrders none = .ok [feeReport] ∧
    ∀ field ∈ feeFields, ∃ m, feeReport.values.get? field.name = some m ∧
      field.Measures (ofGroup [.channel] mixedOrders feeReport.key) m := by
  have hnames : (feeFields.map (·.name)).Nodup := by decide
  have hid : (mixedOrders.map (·.recordId)).Nodup := by decide
  have h : aggregate [.channel] feeFields mixedOrders none = .ok [feeReport] := by decide +kernel
  exact ⟨hnames, hid, h,
    ((aggregate_measures hnames hid h).2.2 feeReport (List.mem_singleton_self _)).1⟩

end Kernel

end RetailReport
