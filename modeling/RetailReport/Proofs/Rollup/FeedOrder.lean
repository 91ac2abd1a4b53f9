import RetailReport.Proofs.Rollup.Measures
import RetailReport.Rollup.Compile

/-!
# Lines in another order

Aggregation takes lines one after the other and adds them up within their orders, so sums of some of
the lines of an order come up on the way, and which sums these are depends on the order of the lines.
Each of them has to be an amount.  All else does not depend on the order of the lines: not the sums
over the orders of a group, nor the rows.

## Main definitions

* `FieldSpec.OrderFits`, `FieldSpec.GroupFits`: the sum of an order, and that of a group, fits.
* `Kernel.SumsFit`: the sums of orders that come up on the way fit.
* `Kernel.TotalsFit`: the sums of groups that come up on the way fit.
* `Kernel.OneSign`: no order mixes credits and debits.

## Main results

* `Kernel.exists_aggregate_iff`: when aggregation succeeds.
* `Kernel.aggregate_perm`: what remains the same if lines come in another order.
-/

namespace RetailReport

-- The zero of a sum is that of its numerals.
attribute [local instance (high)] Zero.ofOfNat0

/-! ### One step -/

namespace Amount

/-- A number of ten-thousandths is an amount. -/
def InRange (x : Int) : Prop := minRaw ≤ x ∧ x ≤ maxRaw

instance (x : Int) : Decidable (InRange x) := inferInstanceAs (Decidable (_ ∧ _))

theorem inRange_raw (a : Amount) : InRange a.raw := ⟨a.le_raw, a.raw_le⟩

/-- Amounts can be added if their sum is an amount. -/
theorem exists_add?_iff {a b : Amount} : (∃ c, a.add? b = some c) ↔ InRange (a.raw + b.raw) := by
  constructor
  · rintro ⟨c, hc⟩
    rw [← add?_eq_some.1 hc]
    exact c.inRange_raw
  · exact fun h => ⟨⟨a.raw + b.raw, h.1, h.2⟩, add?_eq_some.2 rfl⟩

/-- What lies between nothing and an amount is an amount. -/
theorem InRange.of_between {x y : Int} (h : InRange y) (hxy : 0 ≤ x ∧ x ≤ y ∨ y ≤ x ∧ x ≤ 0) :
    InRange x := by
  unfold InRange minRaw maxRaw at *
  omega

end Amount

namespace FieldSpec

variable (field : FieldSpec)

/-- The amounts of the lines of an order are added up. -/
def AddsLines : Prop := field.agg = .sum ∧ field.isOrderLevel = false

instance : Decidable field.AddsLines := inferInstanceAs (Decidable (_ ∧ _))

/-- **The sum of some lines of an order fits**, if they are added up. -/
def OrderFits (l : List FactRecord) : Prop :=
  field.AddsLines → ∀ x, field.orderAmount l = some x → Amount.InRange x

/-- **The sum or the number of values of some orders fits**, if they are added up. -/
def GroupFits (orders : List (List FactRecord)) : Prop :=
  (field.agg = .sum → Amount.InRange ((field.amountOver orders).getD 0)) ∧
    (field.agg = .count → (orders.map field.orderCount).sum ≤ maxCount)

theorem groupFits_nil : field.GroupFits [] :=
  ⟨fun _ => (by decide : Amount.InRange 0), fun _ => Nat.zero_le _⟩

variable {field}

theorem AddsLines.keepsAmount (h : field.AddsLines) : field.KeepsAmount := by
  obtain ⟨hagg, -⟩ := h
  exact ⟨by simp [hagg], by simp [hagg], by simp [hagg]⟩

theorem AddsLines.lineOp (h : field.AddsLines) : field.lineOp = (· + ·) := by
  unfold FieldSpec.lineOp
  rw [h.1, h.2]
  rfl

/-- What holds of the amounts of some lines, and is kept by addition, holds of their sum. -/
theorem AddsLines.orderAmount_induction {P : Int → Prop} (h : field.AddsLines)
    (hadd : ∀ x y, P x → P y → P (x + y)) {l : List FactRecord}
    (hl : ∀ f ∈ l, ∀ x, field.raw? f = some x → P x) : ∀ x, field.orderAmount l = some x → P x := by
  unfold FieldSpec.orderAmount
  rw [h.lineOp]
  refine reduce_induction hadd fun x hx => ?_
  obtain ⟨f, hf, hx⟩ := List.mem_filterMap.1 hx
  exact hl f hf x hx

end FieldSpec

namespace OrderPartial

variable {field : FieldSpec} {l : List FactRecord} {p : OrderPartial}

/-- What has been added up fits. -/
theorem Of.orderFits (hp : Of field l p) : field.OrderFits l := by
  intro hadds x hx
  obtain ⟨a, -, ha⟩ := (of_amount_iff hadds.keepsAmount).1 hp
  rw [hx] at ha
  obtain ⟨a, -, rfl⟩ := Option.map_eq_some_iff.1 ha
  exact a.inRange_raw

/-- Two amounts of lines can be put together, unless they are added up and their sum does not fit. -/
theorem exists_combine {current next : Amount}
    (h : field.AddsLines → Amount.InRange (current.raw + next.raw)) :
    ∃ total, combine field current next = .ok total := by
  unfold combine
  cases hlevel : field.isOrderLevel with
  | true => exact ⟨_, rfl⟩
  | false =>
    rw [if_neg Bool.false_ne_true]
    cases hagg : field.agg with
    | sum =>
      obtain ⟨total, htotal⟩ := Amount.exists_add?_iff.2 (h ⟨hagg, hlevel⟩)
      exact ⟨total, by simp only [htotal]⟩
    | min | max | count | countDistinct | first => exact ⟨_, rfl⟩

/-- **One more line can be taken in** exactly if the sum with that line fits. -/
theorem exists_accumulate_iff (hp : Of field l p) (f : FactRecord) :
    (∃ p', p.accumulate field f = .ok p') ↔ field.OrderFits (l ++ [f]) := by
  constructor
  · rintro ⟨p', hp'⟩
    exact (hp.accumulate hp').orderFits
  · intro hfits
    cases p with
    | count n => exact ⟨_, rfl⟩
    | first line => exact ⟨_, rfl⟩
    | distinct set =>
      unfold accumulate
      cases lineValue? field f with
      | none => exact ⟨_, rfl⟩
      | some v => exact ⟨_, rfl⟩
    | amount current =>
      unfold accumulate
      cases hv : (lineValue? field f).bind LineValue.amount? with
      | none => simp only [hv]; exact ⟨_, rfl⟩
      | some a =>
        cases current with
        | none => simp only [hv]; exact ⟨_, rfl⟩
        | some c =>
          have hsum : field.AddsLines → Amount.InRange (c.raw + a.raw) := by
            intro hadds
            obtain ⟨b, hb, hraw⟩ := (of_amount_iff hadds.keepsAmount).1 hp
            cases hb
            refine hfits hadds _ ?_
            rw [field.orderAmount_concat, ← hraw, FieldSpec.raw?, hv, hadds.lineOp]
            rfl
          obtain ⟨total, htotal⟩ := exists_combine hsum
          simp only [hv, htotal]
          exact ⟨_, rfl⟩

end OrderPartial

namespace GroupTotal

variable {field : FieldSpec} {orders : List (List FactRecord)} {l : List FactRecord}
  {t t' : GroupTotal} {p : OrderPartial}

/-- If one more order is taken in, the sum and the number of values with that order fit. -/
theorem Of.groupFits_concat (ht : Of field orders t) (hp : OrderPartial.Of field l p)
    (h : t.absorb field p = .ok t') : field.GroupFits (orders ++ [l]) := by
  have hof := ht.absorb hp h
  constructor
  · intro hagg
    unfold Of at hof
    simp only [hagg] at hof
    obtain ⟨a, -, ha⟩ := hof
    exact ha ▸ a.inRange_raw
  · intro hagg
    unfold Of at ht
    unfold OrderPartial.Of at hp
    simp only [hagg] at ht hp
    subst ht hp
    unfold GroupTotal.absorb at h
    simp only at h
    split at h
    · next hle => simpa using hle
    · cases h

/-- If the sum and the number of values with one more order fit, that order is taken in. -/
theorem Of.exists_absorb (ht : Of field orders t) (hp : OrderPartial.Of field l p)
    (hfits : field.GroupFits (orders ++ [l])) : ∃ t', t.absorb field p = .ok t' := by
  obtain ⟨hsum, hcount⟩ := hfits
  unfold Of at ht
  cases hagg : field.agg with
  | sum =>
    have hraw := hp.rawOf_amount? (by simp [hagg]) (by simp [hagg])
    simp only [hagg, reduceCtorEq, if_false] at ht hraw
    obtain ⟨total, rfl, htotal⟩ := ht
    unfold GroupTotal.absorb
    cases ha : p.amount? with
    | none => simp only; exact ⟨_, rfl⟩
    | some a =>
      have hfits := hsum hagg
      rw [field.amountOver_concat, ← hraw, ha, FieldSpec.orderOp, hagg] at hfits
      obtain ⟨c, hc⟩ : ∃ c, total.add? a = some c := by
        rw [Amount.exists_add?_iff, htotal]
        revert hfits
        cases field.amountOver orders <;> simp [rawOf]
      simp only [hc]
      exact ⟨_, rfl⟩
  | count =>
    unfold OrderPartial.Of at hp
    simp only [hagg] at ht hp
    subst ht hp
    have hfits : (orders.map field.orderCount).sum + field.orderCount l ≤ maxCount := by
      simpa using hcount hagg
    unfold GroupTotal.absorb
    simp only [hfits, if_true]
    exact ⟨_, rfl⟩
  | countDistinct =>
    simp only [hagg] at ht
    subst ht
    cases p <;> exact ⟨_, rfl⟩
  | max | min =>
    simp only [hagg] at ht
    obtain ⟨a, rfl, -⟩ := ht
    unfold GroupTotal.absorb
    cases p.amount? <;> cases a <;> exact ⟨_, rfl⟩
  | first =>
    simp only [hagg] at ht
    obtain ⟨a, rfl, -⟩ := ht
    exact ⟨_, rfl⟩

/-- **One more order can be taken in** exactly if the sum and the number of values with that order
fit. -/
theorem exists_absorb_iff (ht : Of field orders t) (hp : OrderPartial.Of field l p) :
    (∃ t', t.absorb field p = .ok t') ↔ field.GroupFits (orders ++ [l]) :=
  ⟨fun ⟨_, h⟩ => ht.groupFits_concat hp h, ht.exists_absorb hp⟩

end GroupTotal

namespace Kernel

variable {dimensions : List Dimension} {fields : List FieldSpec} {facts facts' l : List FactRecord}

/-! ### Both phases -/

theorem exists_accumulateAll_iff {ps : OrderPartials}
    (hps : List.Forall₂ (fun field p => OrderPartial.Of field l p) fields ps) (f : FactRecord) :
    (∃ ps', accumulateAll fields ps f = .ok ps') ↔ ∀ field ∈ fields, field.OrderFits (l ++ [f]) := by
  induction hps with
  | nil => exact iff_of_true ⟨[], rfl⟩ fun _ h => absurd h List.not_mem_nil
  | @cons field p fields ps hp _ ih =>
    rw [List.forall_mem_cons, ← OrderPartial.exists_accumulate_iff hp, ← ih]
    constructor
    · rintro ⟨ps', h⟩
      obtain ⟨p', hp', h⟩ := Except.bind_eq_ok.1 h
      obtain ⟨rest, hrest, -⟩ := Except.bind_eq_ok.1 h
      exact ⟨⟨p', hp'⟩, rest, hrest⟩
    · rintro ⟨⟨p', hp'⟩, rest, hrest⟩
      exact ⟨p' :: rest, Except.bind_eq_ok.2 ⟨p', hp', Except.bind_eq_ok.2 ⟨rest, hrest, rfl⟩⟩⟩

theorem exists_absorbAll_iff {orders : List (List FactRecord)} {ts : List GroupTotal}
    {ps : OrderPartials} (hts : List.Forall₂ (fun field t => GroupTotal.Of field orders t) fields ts)
    (hps : List.Forall₂ (fun field p => OrderPartial.Of field l p) fields ps) :
    (∃ ts', absorbAll fields ts ps = .ok ts') ↔
      ∀ field ∈ fields, field.GroupFits (orders ++ [l]) := by
  induction hts generalizing ps with
  | nil => exact iff_of_true ⟨[], rfl⟩ fun _ h => absurd h List.not_mem_nil
  | @cons field t fields ts ht _ ih =>
    obtain _ | ⟨hp, hps⟩ := hps
    rw [List.forall_mem_cons, ← GroupTotal.exists_absorb_iff ht hp, ← ih hps]
    constructor
    · rintro ⟨ts', h⟩
      obtain ⟨t', ht', h⟩ := Except.bind_eq_ok.1 h
      obtain ⟨rest, hrest, -⟩ := Except.bind_eq_ok.1 h
      exact ⟨⟨t', ht'⟩, rest, hrest⟩
    · rintro ⟨⟨t', ht'⟩, rest, hrest⟩
      exact ⟨t' :: rest, Except.bind_eq_ok.2 ⟨t', ht', Except.bind_eq_ok.2 ⟨rest, hrest, rfl⟩⟩⟩

/-- **The sums of orders that come up on the way fit**: those of the lines that have been taken in so
far, whichever these are. -/
def SumsFit (dimensions : List Dimension) (fields : List FieldSpec) (facts : List FactRecord) : Prop :=
  ∀ taken, taken <+: facts → ∀ key id, ∀ field ∈ fields,
    field.OrderFits (ofOrder (ofGroup dimensions taken key) id)

/-- **The sums of groups that come up on the way fit**: those of the orders that have been taken in so
far, in ascending order of their ids. -/
def TotalsFit (dimensions : List Dimension) (fields : List FieldSpec) (facts : List FactRecord) :
    Prop :=
  ∀ key ∈ groupKeys dimensions facts, ∀ ids, ids <+: orderIds (ofGroup dimensions facts key) →
    ∀ field ∈ fields, field.GroupFits (ids.map (ofOrder (ofGroup dimensions facts key)))

/-- What has been gathered fits. -/
theorem Gathered.Of.orderFits {g : Gathered} (hg : g.Of dimensions fields facts) (key : GroupKey)
    (id : String) : ∀ field ∈ fields,
      field.OrderFits (ofOrder (ofGroup dimensions facts key) id) := by
  intro field hfield
  obtain ⟨i, hi, rfl⟩ := List.mem_iff_getElem.1 hfield
  have hparts := hg.partials key id
  exact ((List.forall₂_iff_get.1 hparts).2 i hi (hparts.length_eq ▸ hi)).orderFits

/-- **The first phase** succeeds exactly if the sums of orders fit. -/
theorem exists_gather_iff :
    (∃ g, gather dimensions fields facts none = .ok g) ↔ SumsFit dimensions fields facts := by
  refine List.exists_foldlM_eq_ok_iff (P := fun l g => Gathered.Of dimensions fields l g)
    (Q := fun l => ∀ key id, ∀ field ∈ fields,
      field.OrderFits (ofOrder (ofGroup dimensions l key) id))
    Gathered.of_empty Gathered.of_empty.orderFits (fun _ _ _ _ hg hstep => hg.gatherLine hstep)
    fun done f g hg => ⟨fun ⟨g', hg'⟩ => (hg.gatherLine hg').orderFits, fun hfits => ?_⟩
  -- Only the sums of the order of the new line have to be looked at.
  have hlines : ofOrder (ofGroup dimensions done (groupKey dimensions f)) f.orderId ++ [f] =
      ofOrder (ofGroup dimensions (done ++ [f]) (groupKey dimensions f)) f.orderId := by
    rw [Gathered.ofGroup_concat_self, ofOrder_append]
    simp [ofOrder]
  obtain ⟨ps, hps⟩ := (exists_accumulateAll_iff (hg.partials (groupKey dimensions f) f.orderId) f).2
    (hlines ▸ hfits (groupKey dimensions f) f.orderId)
  simp only [gatherLine, Option.any_none, Bool.false_eq_true, if_false]
  exact ⟨_, Except.bind_eq_ok.2 ⟨ps, hps, rfl⟩⟩

/-- **The second phase** succeeds for a group exactly if the sums of the group fit. -/
theorem Gathered.Of.exists_summarize_iff {g : Gathered} (hg : g.Of dimensions fields facts)
    (key : GroupKey) : (∃ values, Kernel.summarize fields (g.orders key) = .ok values) ↔
      ∀ ids, ids <+: orderIds (ofGroup dimensions facts key) →
        ∀ field ∈ fields, field.GroupFits (ids.map (ofOrder (ofGroup dimensions facts key))) := by
  have hrun : (∃ values, Kernel.summarize fields (g.orders key) = .ok values) ↔
      ∃ totals, (g.orders key).values.foldlM (absorbAll fields) (fields.map .empty) = .ok totals :=
    Except.exists_bind_pure_eq_ok
  rw [hrun, hg.values_orders, List.foldlM_map]
  refine List.exists_foldlM_eq_ok_iff (P := fun ids ts => List.Forall₂
      (fun field t => GroupTotal.Of field (ids.map (ofOrder (ofGroup dimensions facts key))) t)
      fields ts) (Q := fun ids => ∀ field ∈ fields,
        field.GroupFits (ids.map (ofOrder (ofGroup dimensions facts key))))
    (forall₂_empty_total fields) (fun field _ => field.groupFits_nil)
    (fun done id ts ts' hts hstep => ?_) fun done id ts hts => ?_
  · rw [List.map_append]
    exact of_absorbAll hts (hg.partials key id) hstep
  · rw [List.map_append]
    exact exists_absorbAll_iff hts (hg.partials key id)

/-- Gathered lines are summarized exactly if the sums of all groups fit. -/
theorem Gathered.Of.exists_rows_iff {g : Gathered} (hg : g.Of dimensions fields facts) :
    (∃ rows, (SortedMap.toList g).mapM (fun e => (do
      let values ← Kernel.summarize fields e.2
      return { key := e.1, values } : Except AggregationError AggregateRow)) = .ok rows) ↔
      TotalsFit dimensions fields facts := by
  have hrow : ∀ e ∈ SortedMap.toList g, (∃ row, (do
      let values ← Kernel.summarize fields e.2
      return { key := e.1, values } : Except AggregationError AggregateRow) = .ok row) ↔
        ∃ values, Kernel.summarize fields (g.orders e.1) = .ok values := by
    intro e he
    rw [Gathered.orders_of_mem he]
    exact Except.exists_bind_pure_eq_ok
  rw [List.exists_mapM_eq_ok_iff]
  constructor
  · intro h key hkey
    have hmem : key ∈ SortedMap.keys g := (hg.keys key).2 (mem_groupKeys.1 hkey)
    obtain ⟨e, he, rfl⟩ := List.mem_map.1 hmem
    exact (hg.exists_summarize_iff e.1).1 ((hrow e he).1 (h e he))
  · intro h e he
    have hmem : e.1 ∈ SortedMap.keys g := List.mem_map_of_mem he
    rw [hrow e he, hg.exists_summarize_iff]
    exact h e.1 (mem_groupKeys.2 ((hg.keys e.1).1 hmem))

/-- **Aggregation succeeds** exactly if all sums that come up on the way fit. -/
theorem exists_aggregate_iff : (∃ rows, aggregate dimensions fields facts none = .ok rows) ↔
    SumsFit dimensions fields facts ∧ TotalsFit dimensions fields facts := by
  unfold aggregate
  rw [Except.exists_bind_eq_ok, ← exists_gather_iff]
  constructor
  · rintro ⟨g, hg, hrows⟩
    exact ⟨⟨g, hg⟩, (of_gather hg).exists_rows_iff.1 hrows⟩
  · rintro ⟨⟨g, hg⟩, htotals⟩
    exact ⟨g, hg, (of_gather hg).exists_rows_iff.2 htotals⟩

/-! ### Sums that do not depend on the order of the lines -/

/-- The sums over the orders of a group are those of the same lines in another order. -/
theorem groupFits_perm {field : FieldSpec} (h : l.Perm facts) (ids : List String) :
    field.GroupFits (ids.map (ofOrder l)) ↔ field.GroupFits (ids.map (ofOrder facts)) := by
  unfold FieldSpec.GroupFits FieldSpec.amountOver
  rw [FieldSpec.orderAmounts_perm h, FieldSpec.orderCounts_perm h]

theorem TotalsFit.perm (h : facts.Perm facts') (htotals : TotalsFit dimensions fields facts) :
    TotalsFit dimensions fields facts' := by
  intro key hkey ids hids field hfield
  have hgroup : (ofGroup dimensions facts key).Perm (ofGroup dimensions facts' key) := h.filter _
  rw [← groupKeys_perm h] at hkey
  rw [← orderIds_perm hgroup] at hids
  exact (groupFits_perm hgroup ids).1 (htotals key hkey ids hids field hfield)

/-- If lines can be aggregated, the same lines in another order can if their own sums of orders fit. -/
theorem exists_aggregate_perm_iff (h : facts.Perm facts')
    (hok : ∃ rows, aggregate dimensions fields facts none = .ok rows) :
    (∃ rows, aggregate dimensions fields facts' none = .ok rows) ↔
      SumsFit dimensions fields facts' := by
  rw [exists_aggregate_iff]
  exact and_iff_left ((exists_aggregate_iff.1 hok).2.perm h)

/-! ### Rows that do not depend on the order of the lines -/

/-- Totals that come to the same values come to the same named values. -/
theorem zip_finish_eq {R R' : FieldSpec → GroupTotal → Prop} {ts ts' : List GroupTotal}
    (h : fields.Forall₂ R ts) (h' : fields.Forall₂ R' ts')
    (hfinish : ∀ field t t', R field t → R' field t' → t.finish = t'.finish) :
    (fields.zip ts).map (fun (x : FieldSpec × GroupTotal) => (x.1.name, x.2.finish)) =
      (fields.zip ts').map (fun (x : FieldSpec × GroupTotal) => (x.1.name, x.2.finish)) := by
  induction h generalizing ts' with
  | nil => rfl
  | @cons field t fields ts ht _ ih =>
    obtain _ | ⟨ht', hts'⟩ := h'
    rw [List.zip_cons_cons, List.zip_cons_cons, List.map_cons, List.map_cons, ih hts',
      hfinish field t _ ht ht']

/-- The values of a group are those of the same lines in another order. -/
theorem Gathered.Of.summarize_perm {g g' : Gathered} (hg : g.Of dimensions fields facts)
    (hg' : g'.Of dimensions fields facts') (h : facts.Perm facts')
    (hid : (facts.map (·.recordId)).Nodup) {key : GroupKey} {values values' : Values}
    (hv : Kernel.summarize fields (g.orders key) = .ok values)
    (hv' : Kernel.summarize fields (g'.orders key) = .ok values') : values = values' := by
  obtain ⟨totals, htotals, hv⟩ := Except.bind_eq_ok.1 hv
  obtain ⟨totals', htotals', hv'⟩ := Except.bind_eq_ok.1 hv'
  cases hv
  cases hv'
  have hgroup : (ofGroup dimensions facts key).Perm (ofGroup dimensions facts' key) := h.filter _
  have hgroupId : ((ofGroup dimensions facts key).map (·.recordId)).Nodup :=
    hid.sublist (List.filter_sublist.map _)
  refine congrArg SortedMap.ofList (zip_finish_eq (hg.totals htotals) (hg'.totals htotals')
    fun field t t' ht ht' => ?_)
  have hworth : field.Worth (ofGroup dimensions facts key) t.finish := ht.finish
  have hworth' : field.Worth (ofGroup dimensions facts' key) t'.finish := ht'.finish
  exact (hworth.perm hgroup hgroupId).unique hworth'

/-- **The rows do not depend on the order of the lines.** -/
theorem rows_eq_of_perm (h : facts.Perm facts') (hid : (facts.map (·.recordId)).Nodup)
    {rows rows' : List AggregateRow} (hrows : aggregate dimensions fields facts none = .ok rows)
    (hrows' : aggregate dimensions fields facts' none = .ok rows') : rows = rows' := by
  have hkeys : rows.map (·.key) = rows'.map (·.key) := by
    rw [keys_of_aggregate hrows, keys_of_aggregate hrows', groupKeys_perm h]
  obtain ⟨g, hg, hvalues⟩ := summarize_of_aggregate hrows
  obtain ⟨g', hg', hvalues'⟩ := summarize_of_aggregate hrows'
  have hlength : rows.length = rows'.length := by simpa using congrArg List.length hkeys
  refine List.ext_getElem hlength fun i hi hi' => ?_
  have hkey : rows[i].key = rows'[i].key := by simpa [hi, hi'] using congrArg (·[i]?) hkeys
  have hvalue : rows[i].values = rows'[i].values :=
    hg.summarize_perm hg' h hid (hvalues _ (List.getElem_mem hi))
      (hkey ▸ hvalues' _ (List.getElem_mem hi'))
  calc rows[i] = ⟨rows[i].key, rows[i].values⟩ := rfl
    _ = ⟨rows'[i].key, rows'[i].values⟩ := by rw [hkey, hvalue]

/-! ### Amounts of one sign -/

/-- The amounts of some lines are all credits or all debits. -/
def SameSign (field : FieldSpec) (l : List FactRecord) : Prop :=
  (∀ f ∈ l, ∀ x, field.raw? f = some x → 0 ≤ x) ∨ ∀ f ∈ l, ∀ x, field.raw? f = some x → x ≤ 0

theorem SameSign.subset {field : FieldSpec} (hsign : SameSign field facts) (h : l ⊆ facts) :
    SameSign field l :=
  hsign.imp (fun hpos f hf => hpos f (h hf)) fun hneg f hf => hneg f (h hf)

/-- **No order mixes signs** where the amounts of lines are added up. -/
def OneSign (fields : List FieldSpec) (facts : List FactRecord) : Prop :=
  ∀ field ∈ fields, field.AddsLines → ∀ id, SameSign field (ofOrder facts id)

theorem OneSign.subset (hsign : OneSign fields facts) (h : facts' ⊆ facts) : OneSign fields facts' :=
  fun field hfield hadds id => (hsign field hfield hadds id).subset fun _ hf =>
    List.mem_filter.2 ⟨h (List.mem_filter.1 hf).1, (List.mem_filter.1 hf).2⟩

/-- The sum of the first lines of an order lies between nothing and the sum of all its lines, if no
signs are mixed. -/
theorem orderFits_of_append {field : FieldSpec} {rest : List FactRecord}
    (hsign : SameSign field (l ++ rest)) (hall : field.OrderFits (l ++ rest)) :
    field.OrderFits l := by
  intro hadds x hx
  have htotal : field.orderAmount (l ++ rest) =
      (field.orderAmount l).merge (· + ·) (field.orderAmount rest) := by
    unfold FieldSpec.orderAmount
    rw [List.filterMap_append, hadds.lineOp]
    exact reduce_append _ _
  rw [hx] at htotal
  cases hy : field.orderAmount rest with
  | none =>
    rw [hy] at htotal
    exact hall hadds x htotal
  | some y =>
    rw [hy] at htotal
    -- Amounts of one sign: the sum so far lies between nothing and the sum of all.
    refine (hall hadds (x + y) htotal).of_between ?_
    rcases hsign with hsign | hsign
    · have hfirst := hadds.orderAmount_induction (P := (0 ≤ ·)) (fun _ _ => Int.add_nonneg)
        (fun f hf => hsign f (List.mem_append_left _ hf)) x hx
      have hlast := hadds.orderAmount_induction (P := (0 ≤ ·)) (fun _ _ => Int.add_nonneg)
        (fun f hf => hsign f (List.mem_append_right _ hf)) y hy
      omega
    · have hfirst := hadds.orderAmount_induction (P := (· ≤ 0)) (fun _ _ => Int.add_nonpos)
        (fun f hf => hsign f (List.mem_append_left _ hf)) x hx
      have hlast := hadds.orderAmount_induction (P := (· ≤ 0)) (fun _ _ => Int.add_nonpos)
        (fun f hf => hsign f (List.mem_append_right _ hf)) y hy
      omega

/-- If no order mixes signs, the sums of orders fit in any order of the lines. -/
theorem SumsFit.perm (h : facts.Perm facts') (hsign : OneSign fields facts)
    (hfits : SumsFit dimensions fields facts) : SumsFit dimensions fields facts' := by
  rintro taken ⟨rest, rfl⟩ key id field hfield
  have hlines : (ofOrder (ofGroup dimensions facts key) id).Perm
      (ofOrder (ofGroup dimensions taken key) id ++ ofOrder (ofGroup dimensions rest key) id) := by
    rw [← ofOrder_append]
    have hgroup := ofOrder_perm (h.filter fun f => groupKey dimensions f = key) id
    rwa [List.filter_append] at hgroup
  have hall : field.OrderFits (ofOrder (ofGroup dimensions taken key) id ++
      ofOrder (ofGroup dimensions rest key) id) := by
    have hfit := hfits facts List.prefix_rfl key id field hfield
    unfold FieldSpec.OrderFits at hfit ⊢
    rwa [← FieldSpec.orderAmount_perm hlines]
  intro hadds
  refine orderFits_of_append ((hsign field hfield hadds id).subset fun f hf => ?_) hall hadds
  obtain ⟨hgroup, hid⟩ := List.mem_filter.1 (hlines.mem_iff.2 hf)
  exact List.mem_filter.2 ⟨(List.mem_filter.1 hgroup).1, hid⟩

/-! ### Groups that are asked for -/

/-- Whether the group of a line is asked for. -/
def isWanted (dimensions : List Dimension) (keys : Option (KeySet GroupKey)) (f : FactRecord) : Bool :=
  keys.all fun wanted => wanted.contains (groupKey dimensions f)

/-- The lines of the groups that are asked for. -/
def wantedLines (dimensions : List Dimension) (keys : Option (KeySet GroupKey))
    (facts : List FactRecord) : List FactRecord :=
  facts.filter (isWanted dimensions keys)

theorem gatherLine_eq (keys : Option (KeySet GroupKey)) (g : Gathered) (f : FactRecord) :
    gatherLine dimensions fields keys g f =
      if isWanted dimensions keys f then gatherLine dimensions fields none g f else .ok g := by
  unfold gatherLine isWanted
  cases keys with
  | none => rfl
  | some wanted =>
    simp only [Option.any_some, Option.all_some, Option.any_none]
    cases SortedMap.contains wanted (groupKey dimensions f) <;> rfl

/-- **Lines of other groups** are left out. -/
theorem aggregate_eq_wantedLines (keys : Option (KeySet GroupKey)) (facts : List FactRecord) :
    aggregate dimensions fields facts keys =
      aggregate dimensions fields (wantedLines dimensions keys facts) none := by
  have hgather : ∀ g : Gathered, facts.foldlM (gatherLine dimensions fields keys) g =
      (wantedLines dimensions keys facts).foldlM (gatherLine dimensions fields none) g := by
    induction facts with
    | nil => exact fun g => rfl
    | cons f facts ih =>
      intro g
      rw [List.foldlM_cons, gatherLine_eq, wantedLines]
      by_cases hf : isWanted dimensions keys f = true
      · rw [if_pos hf, List.filter_cons_of_pos hf, List.foldlM_cons]
        exact congrArg _ (funext ih)
      · rw [if_neg hf, List.filter_cons_of_neg hf]
        exact ih g
  unfold aggregate gather
  rw [hgather]

/-- **Lines in another order.**  If aggregation succeeds for both orders, the rows are the same.  If it
succeeds for one order, it succeeds for the other one exactly if the sums of orders fit that come up
on the way there.  So it succeeds for both or for none if no order mixes signs. -/
theorem aggregate_perm (keys : Option (KeySet GroupKey)) (h : facts.Perm facts')
    (hid : (facts.map (·.recordId)).Nodup) :
    (∀ rows rows', aggregate dimensions fields facts keys = .ok rows →
      aggregate dimensions fields facts' keys = .ok rows' → rows = rows') ∧
    ((∃ rows, aggregate dimensions fields facts keys = .ok rows) →
      ((∃ rows, aggregate dimensions fields facts' keys = .ok rows) ↔
        SumsFit dimensions fields (wantedLines dimensions keys facts'))) ∧
    (OneSign fields facts → ((∃ rows, aggregate dimensions fields facts keys = .ok rows) ↔
      ∃ rows, aggregate dimensions fields facts' keys = .ok rows)) := by
  have hwanted : (wantedLines dimensions keys facts).Perm (wantedLines dimensions keys facts') :=
    h.filter _
  -- Lines of other keys play no part, so all is said of the wanted ones.
  simp only [aggregate_eq_wantedLines keys]
  refine ⟨fun rows rows' => ?_, exists_aggregate_perm_iff hwanted, fun hsign => ?_⟩
  · exact rows_eq_of_perm hwanted (hid.sublist (List.filter_sublist.map _))
  · -- If no amounts of both signs meet, sums that fit in one order fit in any.
    have hwantedSign : OneSign fields (wantedLines dimensions keys facts) :=
      hsign.subset List.filter_sublist.subset
    have hwantedSign' : OneSign fields (wantedLines dimensions keys facts') :=
      hwantedSign.subset hwanted.symm.subset
    rw [exists_aggregate_iff, exists_aggregate_iff]
    exact ⟨fun hfit => ⟨hfit.1.perm hwanted hwantedSign, hfit.2.perm hwanted⟩,
      fun hfit => ⟨hfit.1.perm hwanted.symm hwantedSign', hfit.2.perm hwanted.symm⟩⟩

/-! ### Lines near the greatest amount -/

/-- The sum of the prices. -/
def revenueFields : List FieldSpec := [{ name := "revenue", source := .field "price", agg := .sum }]

/-- A line of the one order with a price in ten-thousandths. -/
def pricedLine (recordId : String) (price : Int) : FactRecord :=
  feeLine recordId "o1" (some (.clamp price)) none

/-- A line with the greatest amount, one with a small credit, and one with a small debit. -/
def greatestLine : FactRecord := pricedLine "r1" Amount.maxRaw
def creditLine : FactRecord := pricedLine "r2" 1
def debitLine : FactRecord := pricedLine "r3" (-1)

/-- The row of the three lines. -/
def greatestReport : AggregateRow where
  key := ["APP"]
  values := .ofList [("revenue", .amount (.clamp Amount.maxRaw))]

/-- If the debit comes before the credit, the lines can be aggregated, and the row is the same. -/
theorem aggregate_perm_debitFirst :
    [greatestLine, debitLine, creditLine].Perm [debitLine, greatestLine, creditLine] ∧
    ([greatestLine, debitLine, creditLine].map (·.recordId)).Nodup ∧
    aggregate [.channel] revenueFields [greatestLine, debitLine, creditLine] none =
      .ok [greatestReport] ∧
    ∀ rows, aggregate [.channel] revenueFields [debitLine, greatestLine, creditLine] none = .ok rows →
      rows = [greatestReport] := by
  have hperm : [greatestLine, debitLine, creditLine].Perm [debitLine, greatestLine, creditLine] :=
    .swap _ _ _
  have hid : ([greatestLine, debitLine, creditLine].map (·.recordId)).Nodup := by decide
  have hok : aggregate [.channel] revenueFields [greatestLine, debitLine, creditLine] none =
      .ok [greatestReport] := by decide +kernel
  exact ⟨hperm, hid, hok, fun rows hrows =>
    ((aggregate_perm none hperm hid).1 _ _ hok hrows).symm⟩

/-- **The order of the lines matters**: if the credit comes before the debit, the sum does not fit on
the way. -/
theorem aggregate_fails_creditFirst : ∃ (catalog : Catalog) (dimensions : List Dimension)
    (fields : List FieldSpec) (facts facts' : List FactRecord) (rows : List AggregateRow),
    (∀ field ∈ fields, Compile.checkField "daily" catalog field = .ok ()) ∧
    (facts.map (·.recordId)).Nodup ∧ facts.Perm facts' ∧
    aggregate dimensions fields facts none = .ok rows ∧
    aggregate dimensions fields facts' none = .error (.overflow "revenue") :=
  ⟨{ itemFields := .ofList ["price"] }, [.channel], revenueFields,
    [greatestLine, debitLine, creditLine], [greatestLine, creditLine, debitLine], [greatestReport],
    by decide, by decide, .cons _ (.swap _ _ _), by decide +kernel, by decide +kernel⟩

end Kernel

end RetailReport
