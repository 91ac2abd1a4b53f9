import Mathlib.Data.List.Induction
import Mathlib.Data.List.Perm.Basic
import RetailReport.Proofs.SortedMap
import RetailReport.Rollup.Kernel

/-!
# What lines are worth for a field

The value of a field over some lines is defined in one step here, without partial results: the lines
are taken order by order, each order has an amount or a number of values, and these are summed,
compared, or counted in exact arithmetic.  The value depends neither on the order in which the lines
come nor on how they are split up, as long as no order is torn apart.

## Main definitions

* `FieldSpec.orderAmount`, `FieldSpec.orderCount`, `FieldSpec.firstAmount`: one order.
* `FieldSpec.Over`: a value over some orders.
* `FieldSpec.Worth`: a value over some lines.

## Main results

* `FieldSpec.Worth.unique`: there is at most one such value.
* `FieldSpec.Worth.perm`: lines may come in any order.
* `FieldSpec.perOrder_append`: the orders of two sets of lines that share none.
-/

namespace RetailReport

-- The zero of a sum is that of its numerals.
attribute [local instance (high)] Zero.ofOfNat0

/-! ### Numbers, one after the other -/

/-- What an operation makes of some numbers, if there are any. -/
def reduce (op : Int → Int → Int) (l : List Int) : Option Int :=
  l.foldl (fun acc x => acc.merge op (some x)) none

section Reduce

variable {op : Int → Int → Int}

@[simp] theorem reduce_nil : reduce op [] = none := rfl

theorem reduce_concat (l : List Int) (x : Int) :
    reduce op (l ++ [x]) = (reduce op l).merge op (some x) := List.foldl_append

theorem merge_assoc [Std.Associative op] (a b c : Option Int) :
    (a.merge op b).merge op c = a.merge op (b.merge op c) := Std.Associative.assoc a b c

theorem reduce_append [Std.Associative op] (l l' : List Int) :
    reduce op (l ++ l') = (reduce op l).merge op (reduce op l') := by
  induction l' using List.reverseRecOn with
  | nil => rw [List.append_nil, reduce_nil, Option.merge_none_right]
  | append_singleton l' x ih =>
    rw [← List.append_assoc, reduce_concat, reduce_concat, ih, merge_assoc]

/-- What holds of some numbers, and is kept by the operation, holds of what it makes of them. -/
theorem reduce_induction {P : Int → Prop} (hop : ∀ x y, P x → P y → P (op x y)) {l : List Int}
    (hl : ∀ x ∈ l, P x) : ∀ y, reduce op l = some y → P y := by
  induction l using List.reverseRecOn with
  | nil =>
    intro y hy
    cases hy
  | append_singleton l x ih =>
    intro y hy
    have hx : P x := hl x (List.mem_append_right _ (List.mem_singleton_self x))
    have hbefore := ih fun z hz => hl z (List.mem_append_left _ hz)
    rw [reduce_concat] at hy
    cases hz : reduce op l with
    | none =>
      rw [hz] at hy
      exact Option.some.inj hy ▸ hx
    | some z =>
      rw [hz] at hy
      exact Option.some.inj hy ▸ hop z x (hbefore z hz) hx

theorem reduce_perm [Std.Associative op] [Std.Commutative op] {l l' : List Int} (h : l.Perm l') :
    reduce op l = reduce op l' :=
  h.foldl_eq' (fun x _ y _ acc => by
    have hcomm : (some x).merge op (some y) = (some y).merge op (some x) :=
      Std.Commutative.comm (some x) (some y)
    rw [merge_assoc, merge_assoc, hcomm]) none

end Reduce

/-! ### One order -/

namespace FieldSpec

variable (field : FieldSpec)

/-- The amount of a line in ten-thousandths, if it has one. -/
def raw? (f : FactRecord) : Option Int := ((lineValue? field f).bind LineValue.amount?).map (·.raw)

/-- How the amounts of two lines of an order become one. -/
def lineOp : Int → Int → Int :=
  if field.isOrderLevel then max
  else
    match field.agg with
    | .sum => (· + ·)
    | .min => min
    | _ => max

/-- How the amounts of two orders become one. -/
def orderOp : Int → Int → Int :=
  match field.agg with
  | .sum => (· + ·)
  | .min => min
  | _ => max

/-- The amount of an order, if one of its lines has one. -/
def orderAmount (l : List FactRecord) : Option Int := reduce field.lineOp (l.filterMap field.raw?)

/-- The number of values of an order: those of its lines, or one for all of them. -/
def orderCount (l : List FactRecord) : Nat :=
  let count := l.countP fun f => (lineValue? field f).isSome
  if field.isOrderLevel then min count 1 else count

/-- What tells the values of some lines apart. -/
def distinctKeys (l : List FactRecord) : List String :=
  l.filterMap fun f => (lineValue? field f).map LineValue.distinctKey

/-- The line with the least id. -/
def leastLine (l : List FactRecord) : Option FactRecord :=
  l.foldl (fun least f =>
    match least with
    | some g => if f.recordId < g.recordId then some f else some g
    | none => some f) none

/-- The amount of an order that comes first: that of its line with the least id, or the greatest one
if it is an amount of orders. -/
def firstAmount (l : List FactRecord) : Option Int :=
  if field.isOrderLevel then field.orderAmount l else (leastLine l).bind field.raw?

instance : Std.Commutative field.lineOp := by
  unfold lineOp
  split
  · infer_instance
  · split <;> infer_instance

instance : Std.Associative field.lineOp := by
  unfold lineOp
  split
  · infer_instance
  · split <;> infer_instance

instance : Std.Commutative field.orderOp := by
  unfold orderOp
  split <;> infer_instance

instance : Std.Associative field.orderOp := by
  unfold orderOp
  split <;> infer_instance

end FieldSpec

/-! ### Several orders -/

/-- A value is an amount of some ten-thousandths, or none. -/
def Metric.Is (m : Metric) : Option Int → Prop
  | none => m = .null
  | some x => ∃ a, m = .amount a ∧ a.raw = x

theorem Metric.Is.unique {m m' : Metric} {x : Option Int} (h : m.Is x) (h' : m'.Is x) : m = m' := by
  cases x with
  | none => exact h.trans h'.symm
  | some x =>
    obtain ⟨a, rfl, ha⟩ := h
    obtain ⟨a', rfl, ha'⟩ := h'
    rw [Amount.ext (ha.trans ha'.symm)]

namespace FieldSpec

variable (field : FieldSpec)

/-- The amount of some orders, if one of them has one. -/
def amountOver (orders : List (List FactRecord)) : Option Int :=
  reduce field.orderOp (orders.filterMap field.orderAmount)

/-- **The value of a field over some orders**, which come in ascending order of their ids. -/
def Over (orders : List (List FactRecord)) (m : Metric) : Prop :=
  match field.agg with
  | .sum => m.Is (some ((field.amountOver orders).getD 0))
  | .count => m = .count (orders.map field.orderCount).sum
  | .countDistinct => m = .count (KeySet.ofList (orders.flatMap field.distinctKeys)).size
  | .max | .min => m.Is (field.amountOver orders)
  | .first => m.Is (orders.head?.bind field.firstAmount)

theorem Over.unique {field : FieldSpec} {orders : List (List FactRecord)} {m m' : Metric}
    (h : field.Over orders m) (h' : field.Over orders m') : m = m' := by
  unfold Over at h h'
  cases hagg : field.agg with
  | sum | max | min | first =>
    simp only [hagg] at h h'
    exact h.unique h'
  | count | countDistinct =>
    simp only [hagg] at h h'
    rw [h, h']

end FieldSpec

/-- The ids of the orders that some lines belong to, ascending. -/
def orderIds (facts : List FactRecord) : List String :=
  (KeySet.ofList (facts.map (·.orderId))).members

/-- The lines of an order. -/
def ofOrder (facts : List FactRecord) (id : String) : List FactRecord :=
  facts.filter fun f => f.orderId = id

/-- Lines order by order. -/
def perOrder (facts : List FactRecord) : List (List FactRecord) :=
  (orderIds facts).map (ofOrder facts)

/-- **The value of a field over some lines.** -/
def FieldSpec.Worth (field : FieldSpec) (facts : List FactRecord) (m : Metric) : Prop :=
  field.Over (perOrder facts) m

theorem FieldSpec.Worth.unique {field : FieldSpec} {facts : List FactRecord} {m m' : Metric}
    (h : field.Worth facts m) (h' : field.Worth facts m') : m = m' := Over.unique h h'

theorem mem_orderIds {facts : List FactRecord} {id : String} :
    id ∈ orderIds facts ↔ ∃ f ∈ facts, f.orderId = id := by
  rw [orderIds, KeySet.mem_ofList, List.mem_map]

theorem nodup_orderIds (facts : List FactRecord) : (orderIds facts).Nodup :=
  KeySet.nodup_members _

/-! ### Lines in any order -/

namespace FieldSpec

variable {field : FieldSpec} {l l' : List FactRecord}

theorem orderAmount_perm (h : l.Perm l') : field.orderAmount l = field.orderAmount l' :=
  reduce_perm (h.filterMap _)

theorem orderCount_perm (h : l.Perm l') : field.orderCount l = field.orderCount l' := by
  unfold orderCount
  rw [h.countP_eq]

theorem leastLine_concat (l : List FactRecord) (f : FactRecord) :
    leastLine (l ++ [f]) = match leastLine l with
      | some g => if f.recordId < g.recordId then some f else some g
      | none => some f := List.foldl_append

/-- The least line is one of the lines, and none comes before it. -/
theorem leastLine_spec (l : List FactRecord) :
    match leastLine l with
    | none => l = []
    | some f => f ∈ l ∧ ∀ g ∈ l, ¬g.recordId < f.recordId := by
  induction l using List.reverseRecOn with
  | nil => rfl
  | append_singleton l f ih =>
    rw [leastLine_concat]
    cases hl : leastLine l with
    | none =>
      rw [hl] at ih
      rw [show l = [] from ih]
      refine ⟨List.mem_singleton_self f, fun g hg => ?_⟩
      rw [List.mem_singleton.1 hg]
      exact String.lt_irrefl f.recordId
    | some g =>
      rw [hl] at ih
      obtain ⟨hg, hleast⟩ := ih
      -- The new line is the least now, or the one before still is.
      by_cases hlt : f.recordId < g.recordId
      · simp only [if_pos hlt]
        refine ⟨List.mem_append_right _ (List.mem_singleton_self f), fun k hk hlt' => ?_⟩
        rcases List.mem_append.1 hk with hk | hk
        · exact hleast k hk (String.lt_trans hlt' hlt)
        · rw [List.mem_singleton.1 hk] at hlt'
          exact String.lt_irrefl _ hlt'
      · simp only [if_neg hlt]
        refine ⟨List.mem_append_left _ hg, fun k hk => ?_⟩
        rcases List.mem_append.1 hk with hk | hk
        · exact hleast k hk
        · rw [List.mem_singleton.1 hk]
          exact hlt

/-- Among lines with ids of their own there is only one least line. -/
theorem leastLine_perm (h : l.Perm l') (hid : (l.map (·.recordId)).Nodup) :
    leastLine l = leastLine l' := by
  have hs := leastLine_spec l
  have hs' := leastLine_spec l'
  cases hl : leastLine l with
  | none =>
    rw [hl] at hs
    obtain rfl : l' = [] := (hs ▸ h).nil_eq.symm
    rfl
  | some f =>
    rw [hl] at hs
    cases hl' : leastLine l' with
    | none =>
      rw [hl'] at hs'
      rw [show l' = [] from hs'] at h
      rw [h.eq_nil] at hs
      cases hs.1
    | some g =>
      rw [hl'] at hs'
      have hg : g ∈ l := h.mem_iff.2 hs'.1
      have he : f.recordId = g.recordId := KeyOrder.eq_of_not_lt
        (hs'.2 f (h.mem_iff.1 hs.1)) (hs.2 g hg)
      rw [List.inj_on_of_nodup_map hid hs.1 hg he]

theorem firstAmount_perm (h : l.Perm l') (hid : (l.map (·.recordId)).Nodup) :
    field.firstAmount l = field.firstAmount l' := by
  unfold firstAmount
  rw [orderAmount_perm h, leastLine_perm h hid]

end FieldSpec

theorem orderIds_perm {facts facts' : List FactRecord} (h : facts.Perm facts') :
    orderIds facts = orderIds facts' := by
  unfold orderIds
  congr 1
  exact KeySet.ext_mem fun id => by
    rw [KeySet.mem_ofList, KeySet.mem_ofList, (h.map _).mem_iff]

theorem ofOrder_perm {facts facts' : List FactRecord} (h : facts.Perm facts') (id : String) :
    (ofOrder facts id).Perm (ofOrder facts' id) := h.filter _

namespace FieldSpec

variable {field : FieldSpec}

/-- The amounts of some orders do not depend on the order of their lines. -/
theorem orderAmounts_perm {l l' : List FactRecord} (h : l.Perm l') (ids : List String) :
    (ids.map (ofOrder l)).filterMap field.orderAmount =
      (ids.map (ofOrder l')).filterMap field.orderAmount := by
  rw [List.filterMap_map, List.filterMap_map]
  exact List.filterMap_congr fun id _ => orderAmount_perm (ofOrder_perm h id)

/-- Nor do their numbers of values. -/
theorem orderCounts_perm {l l' : List FactRecord} (h : l.Perm l') (ids : List String) :
    (ids.map (ofOrder l)).map field.orderCount = (ids.map (ofOrder l')).map field.orderCount := by
  rw [List.map_map, List.map_map]
  exact List.map_congr_left fun id _ => orderCount_perm (ofOrder_perm h id)

/-- **Lines may come in any order.** -/
theorem Worth.perm {facts facts' : List FactRecord} {m : Metric} (hw : field.Worth facts m)
    (h : facts.Perm facts') (hid : (facts.map (·.recordId)).Nodup) : field.Worth facts' m := by
  have hids := orderIds_perm h
  have hamounts : (perOrder facts).filterMap field.orderAmount =
      (perOrder facts').filterMap field.orderAmount := by
    unfold perOrder
    rw [hids, orderAmounts_perm h]
  unfold Worth Over at *
  -- Orders are taken by their ids, so only the lines within an order can change places.
  cases hagg : field.agg with
  | sum | max | min =>
    simp only [hagg, amountOver] at hw ⊢
    rwa [← hamounts]
  | count =>
    simp only [hagg] at hw ⊢
    rw [hw]
    unfold perOrder
    rw [hids, orderCounts_perm h]
  | countDistinct =>
    simp only [hagg] at hw ⊢
    rw [hw]
    congr 2
    refine KeySet.ext_mem fun k => ?_
    unfold perOrder
    simp only [KeySet.mem_ofList, List.mem_flatMap, List.mem_map, hids, distinctKeys,
      List.mem_filterMap, exists_exists_and_eq_and, (ofOrder_perm h _).mem_iff]
  | first =>
    simp only [hagg] at hw ⊢
    unfold perOrder at hw ⊢
    rw [← hids]
    rw [List.head?_map] at hw ⊢
    cases hhead : (orderIds facts).head? with
    | none => rw [hhead] at hw; exact hw
    | some id =>
      rw [hhead] at hw
      have he : field.firstAmount (ofOrder facts id) = field.firstAmount (ofOrder facts' id) :=
        firstAmount_perm (ofOrder_perm h id) (hid.sublist (List.filter_sublist.map _))
      simpa [← he] using hw

end FieldSpec

/-! ### Lines in two parts -/

/-- Two sets of lines that share no order. -/
def NoSharedOrder (facts facts' : List FactRecord) : Prop :=
  ∀ f ∈ facts, ∀ g ∈ facts', f.orderId ≠ g.orderId

theorem ofOrder_append (facts facts' : List FactRecord) (id : String) :
    ofOrder (facts ++ facts') id = ofOrder facts id ++ ofOrder facts' id := List.filter_append ..

theorem ofOrder_eq_nil {facts : List FactRecord} {id : String} (h : id ∉ orderIds facts) :
    ofOrder facts id = [] := by
  rw [mem_orderIds] at h
  exact List.filter_eq_nil_iff.2 fun f hf he => h ⟨f, hf, of_decide_eq_true he⟩

/-- The orders of two sets of lines that share none. -/
theorem perOrder_append {facts facts' : List FactRecord} (h : NoSharedOrder facts facts') :
    (perOrder (facts ++ facts')).Perm (perOrder facts ++ perOrder facts') := by
  have hdisjoint : ∀ id ∈ orderIds facts, id ∉ orderIds facts' := by
    intro id hid hid'
    obtain ⟨f, hf, rfl⟩ := mem_orderIds.1 hid
    obtain ⟨g, hg, he⟩ := mem_orderIds.1 hid'
    exact h f hf g hg he.symm
  have hids : (orderIds (facts ++ facts')).Perm (orderIds facts ++ orderIds facts') := by
    refine (List.perm_ext_iff_of_nodup (nodup_orderIds _) ?_).2 fun id => ?_
    · exact List.nodup_append'.2 ⟨nodup_orderIds _, nodup_orderIds _, hdisjoint⟩
    · rw [List.mem_append]
      simp only [mem_orderIds, List.mem_append, or_and_right, exists_or]
  have hleft : (orderIds facts).map (ofOrder (facts ++ facts')) = perOrder facts :=
    List.map_congr_left fun id hid => by
      rw [ofOrder_append, ofOrder_eq_nil (hdisjoint id hid), List.append_nil]
  have hright : (orderIds facts').map (ofOrder (facts ++ facts')) = perOrder facts' :=
    List.map_congr_left fun id hid => by
      rw [ofOrder_append, ofOrder_eq_nil fun hid' => hdisjoint id hid' hid, List.nil_append]
  calc (perOrder (facts ++ facts')).Perm
        ((orderIds facts ++ orderIds facts').map (ofOrder (facts ++ facts'))) := hids.map _
    _ = perOrder facts ++ perOrder facts' := by rw [List.map_append, hleft, hright]

end RetailReport
