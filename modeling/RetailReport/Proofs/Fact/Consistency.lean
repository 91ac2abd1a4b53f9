import RetailReport.Fact.Store
import RetailReport.Proofs.SortedMap

/-!
# Consistent fact stores

Beside its lines the fact store keeps their ids, the headers of their orders and their number.  That
these stay in step with the lines, that no two lines share an id, and that all lines of an order
share its header, is what every other part of the service relies on.  It holds in every store that
can be reached from the empty one.

## Main definitions

* `FactStore.Reachable`: the stores that appending, purging and marking lead to.
* `FactStore.Consistent`: what is known about the lines agrees with them.

## Main results

* `FactStore.lines_append`, `FactStore.lines_purge`, `FactStore.lines_purgePartition`: what becomes
  of the lines, up to their order.
* `FactStore.Reachable.consistent`.
-/

namespace RetailReport.FactStore

open SortedMap

/-! ### Lines and their stores -/

/-- The lines of a map of lines by store. -/
def linesIn (m : SortedMap String (List FactRecord)) : List FactRecord := m.values.flatten

theorem lines_eq (s : FactStore) : s.lines = linesIn s.byStore := rfl

theorem mem_linesIn {m : SortedMap String (List FactRecord)} {f : FactRecord} :
    f ∈ linesIn m ↔ ∃ id, f ∈ m.getD id [] := by
  simp only [linesIn, List.mem_flatten, mem_values, getD]
  constructor
  · rintro ⟨fs, ⟨id, h⟩, hf⟩
    exact ⟨id, by rw [h]; exact hf⟩
  · rintro ⟨id, hf⟩
    cases h : m.get? id with
    | none => rw [h] at hf; cases hf
    | some fs => rw [h] at hf; exact ⟨fs, ⟨id, h⟩, hf⟩

theorem linesIn_insert_perm (m : SortedMap String (List FactRecord)) (id : String)
    (fs : List FactRecord) : (linesIn (m.insert id fs)).Perm (fs ++ linesIn (m.erase id)) :=
  ((m.toList_insert_perm id fs).map Prod.snd).flatten

theorem linesIn_erase_perm (m : SortedMap String (List FactRecord)) (id : String) :
    (linesIn m).Perm (m.getD id [] ++ linesIn (m.erase id)) := by
  cases h : m.get? id with
  | some fs =>
    rw [getD, h]
    exact ((toList_erase_perm h).map Prod.snd).flatten
  | none => rw [getD, h, erase_of_get?_eq_none h]; exact .refl _

theorem linesIn_addLine_perm (m : SortedMap String (List FactRecord)) (f : FactRecord) :
    (linesIn (addLine m f)).Perm (f :: linesIn m) := by
  calc (linesIn (addLine m f)).Perm ((m.getD f.storeId [] ++ [f]) ++ linesIn (m.erase f.storeId)) :=
        linesIn_insert_perm ..
    _ = m.getD f.storeId [] ++ f :: linesIn (m.erase f.storeId) := by simp
    List.Perm _ (f :: (m.getD f.storeId [] ++ linesIn (m.erase f.storeId))) := List.perm_middle
    List.Perm _ (f :: linesIn m) := (linesIn_erase_perm m f.storeId).symm.cons f

theorem linesIn_foldl_addLine_perm (facts : List FactRecord)
    (m : SortedMap String (List FactRecord)) :
    (linesIn (facts.foldl addLine m)).Perm (facts ++ linesIn m) := by
  induction facts generalizing m with
  | nil => exact .refl _
  | cons f facts ih =>
    rw [List.foldl_cons]
    exact ((ih _).trans ((linesIn_addLine_perm m f).append_left facts)).trans List.perm_middle

/-- The lines of a store after a batch: those before, and those of the batch in their order. -/
theorem getD_foldl_addLine (facts : List FactRecord) (m : SortedMap String (List FactRecord))
    (id : String) :
    (facts.foldl addLine m).getD id [] = m.getD id [] ++ facts.filter fun f => f.storeId = id := by
  induction facts generalizing m with
  | nil => simp
  | cons f facts ih =>
    rw [List.foldl_cons, ih, addLine, getD_insert]
    by_cases h : id = f.storeId
    · subst h; simp
    · simp [h, Ne.symm h]

/-! ### Batches -/

/-- What a batch has brought in agrees with the lines taken in so far. -/
structure Batch.Covers (s : FactStore) (b : Batch) (taken : List FactRecord) : Prop where
  /-- Each line names itself, its order and its store. -/
  named : ∀ f ∈ taken, f.recordId ≠ "" ∧ f.orderId ≠ "" ∧ f.storeId ≠ ""
  /-- The ids are those of the lines. -/
  ids : ∀ id, id ∈ b.ids.members ↔ ∃ f ∈ taken, f.recordId = id
  /-- No two lines share an id. -/
  nodup : (taken.map (·.recordId)).Nodup
  /-- No line has the id of a stored line. -/
  fresh : ∀ f ∈ taken, f.recordId ∉ s.recordIds.members
  /-- All lines of an order share its header, stored or new. -/
  headers : ∀ f ∈ taken, (s.orders.get? f.orderId).or (b.orders.get? f.orderId) = some f.header
  /-- The new headers are of orders that only these lines belong to. -/
  orders : ∀ o h, b.orders.get? o = some h → s.orders.get? o = none ∧ ∃ f ∈ taken, f.orderId = o

theorem Batch.Covers.empty (s : FactStore) : Batch.Covers s {} [] where
  named := by simp
  ids := by simp [KeySet.members, keys, SortedMap.empty]
  nodup := .nil
  fresh := by simp
  headers := by simp
  orders := by simp

/-- What taking one more line in requires, and what it brings. -/
theorem acceptLine_eq_ok {s : FactStore} {b b' : Batch} {f : FactRecord}
    (h : s.acceptLine b f = .ok b') :
    (f.recordId ≠ "" ∧ f.orderId ≠ "" ∧ f.storeId ≠ "") ∧
      f.recordId ∉ s.recordIds.members ∧ f.recordId ∉ b.ids.members ∧
      b'.ids = b.ids.add f.recordId ∧
      ((s.orders.get? f.orderId).or (b.orders.get? f.orderId) = some f.header ∧
          b'.orders = b.orders ∨
        (s.orders.get? f.orderId).or (b.orders.get? f.orderId) = none ∧
          b'.orders = b.orders.insert f.orderId f.header) := by
  unfold acceptLine at h
  split at h
  · cases h
  next named =>
  split at h
  · cases h
  next stored =>
  split at h
  · cases h
  next unused =>
  simp only [Bool.or_eq_true, String.isEmpty_iff, not_or, KeySet.contains_iff]
    at named stored unused
  refine ⟨⟨named.1, named.2, stored⟩, unused.1, unused.2, ?_⟩
  split at h
  · next known hk =>
    split at h
    · next he => cases h; exact ⟨rfl, .inl ⟨he ▸ hk, rfl⟩⟩
    · cases h
  · next hk => cases h; exact ⟨rfl, .inr ⟨hk, rfl⟩⟩

theorem Batch.Covers.acceptLine {s : FactStore} {b b' : Batch} {taken : List FactRecord}
    {f : FactRecord} (hb : Batch.Covers s b taken) (h : s.acceptLine b f = .ok b') :
    Batch.Covers s b' (taken ++ [f]) := by
  obtain ⟨named, stored, unused, hids, horders⟩ := acceptLine_eq_ok h
  -- The header of an order is noted with its first line, unless the store knows the order.
  have key (o : String) : b'.orders.get? o =
      if (s.orders.get? f.orderId).or (b.orders.get? f.orderId) = none ∧ o = f.orderId
        then some f.header else b.orders.get? o := by
    rcases horders with ⟨hk, e⟩ | ⟨hk, e⟩
    · rw [e, hk]; simp
    · rw [e, hk, get?_insert]; simp
  constructor
  · intro g hg
    rcases List.mem_append.1 hg with hg | hg
    · exact hb.named g hg
    · rw [List.mem_singleton.1 hg]; exact named
  · intro id
    rw [hids, KeySet.mem_add, hb.ids]
    simp only [List.mem_append, List.mem_singleton, or_and_right, exists_or, exists_eq_left]
    rw [or_comm, eq_comm]
  · rw [List.map_append, List.nodup_append]
    refine ⟨hb.nodup, List.nodup_singleton _, ?_⟩
    rintro _ hid _ hf rfl
    obtain ⟨g, hg, hgid⟩ := List.mem_map.1 hid
    rw [List.map_singleton, List.mem_singleton] at hf
    exact unused ((hb.ids _).2 ⟨g, hg, hgid.trans hf⟩)
  · intro g hg
    rcases List.mem_append.1 hg with hg | hg
    · exact hb.fresh g hg
    · rw [List.mem_singleton.1 hg]; exact stored
  · intro g hg
    rw [key]
    rcases List.mem_append.1 hg with hg | hg
    · have hgh := hb.headers g hg
      split
      · next hk => rw [hk.2, hk.1] at hgh; cases hgh
      · exact hgh
    · rw [List.mem_singleton.1 hg]
      rcases horders with ⟨hk, -⟩ | ⟨hk, -⟩
      · simp [hk]
      · rw [if_pos ⟨hk, rfl⟩, (Option.or_eq_none_iff.1 hk).1, Option.none_or]
  · intro o hd ho
    rw [key] at ho
    split at ho
    · next hk =>
      obtain ⟨hnone, rfl⟩ := hk
      exact ⟨(Option.or_eq_none_iff.1 hnone).1, f, by simp, rfl⟩
    · obtain ⟨hnone, g, hg, hgo⟩ := hb.orders o hd ho
      exact ⟨hnone, g, List.mem_append_left _ hg, hgo⟩

/-- An accepted batch agrees with all of its lines. -/
theorem covers_of_acceptLines {s : FactStore} {facts : List FactRecord} {b : Batch}
    (h : s.acceptLines facts = .ok b) : Batch.Covers s b facts := by
  suffices ∀ (facts taken : List FactRecord) (b₀ : Batch), Batch.Covers s b₀ taken →
      facts.foldlM s.acceptLine b₀ = .ok b → Batch.Covers s b (taken ++ facts) from
    this facts [] {} (.empty s) h
  intro facts
  induction facts with
  | nil =>
    intro taken b₀ hb h
    cases h
    rwa [List.append_nil]
  | cons f facts ih =>
    intro taken b₀ hb h
    rw [List.foldlM_cons] at h
    cases hf : s.acceptLine b₀ f with
    | error e => rw [hf] at h; cases h
    | ok b₁ =>
      rw [hf] at h
      rw [List.append_cons]
      exact ih _ b₁ (hb.acceptLine hf) h

/-! ### Consistency -/

/-- What the store keeps beside its lines agrees with them. -/
structure Consistent (s : FactStore) : Prop where
  /-- Each line is listed under its own store, and no store is listed without lines. -/
  own : ∀ id fs, s.byStore.get? id = some fs → fs ≠ [] ∧ ∀ f ∈ fs, f.storeId = id
  /-- No two lines share an id. -/
  nodup : (s.lines.map (·.recordId)).Nodup
  /-- The ids are those of the lines. -/
  recordIds : ∀ id, id ∈ s.recordIds.members ↔ ∃ f ∈ s.lines, f.recordId = id
  /-- The count is that of the lines. -/
  recordCount : s.recordCount = s.lines.length
  /-- Only orders that have lines have a header. -/
  orders : ∀ o h, s.orders.get? o = some h → ∃ f ∈ s.lines, f.orderId = o
  /-- The lines of an order carry its header. -/
  headers : ∀ f ∈ s.lines, s.orders.get? f.orderId = some f.header

namespace Consistent

variable {s : FactStore}

theorem storeId_of_mem (hs : s.Consistent) {f : FactRecord} {id : String} (h : f ∈ s.linesOf id) :
    f.storeId = id := by
  unfold linesOf getD at h
  cases hg : s.byStore.get? id with
  | none => rw [hg] at h; cases h
  | some fs => rw [hg] at h; exact (hs.own id fs hg).2 f h

theorem mem_linesOf (hs : s.Consistent) {f : FactRecord} {id : String} :
    f ∈ s.linesOf id ↔ f ∈ s.lines ∧ f.storeId = id := by
  rw [lines_eq, mem_linesIn]
  constructor
  · intro h
    exact ⟨⟨id, h⟩, hs.storeId_of_mem h⟩
  · rintro ⟨⟨id', h⟩, rfl⟩
    rwa [hs.storeId_of_mem h]

theorem nodup_lines (hs : s.Consistent) : s.lines.Nodup := .of_map _ hs.nodup

/-- The lines of an order agree on their store, channel and moment. -/
theorem header_eq (hs : s.Consistent) {f g : FactRecord} (hf : f ∈ s.lines) (hg : g ∈ s.lines)
    (h : f.orderId = g.orderId) : f.header = g.header := by
  have hf' := hs.headers f hf
  rw [h, hs.headers g hg] at hf'
  exact (Option.some.inj hf').symm

theorem linesOf_eq_nil_iff (hs : s.Consistent) {id : String} :
    s.linesOf id = [] ↔ s.byStore.get? id = none := by
  unfold linesOf getD
  cases hg : s.byStore.get? id with
  | none => simp
  | some fs => simpa using (hs.own id fs hg).1

end Consistent

theorem consistent_empty : Consistent {} where
  own := by simp
  nodup := .nil
  recordIds := by simp [KeySet.members, keys, lines, values]
  recordCount := rfl
  orders := by simp
  headers := by simp [lines, values]

/-! ### What the operations do to the lines -/

/-- An accepted batch joins the lines, and nothing else does. -/
theorem append_eq_ok {s s' : FactStore} {facts : List FactRecord} {stores : KeySet String}
    (h : s.append facts = .ok (s', stores)) :
    s.available = true ∧ ∃ b, s.acceptLines facts = .ok b ∧
      stores = KeySet.ofList (facts.map (·.storeId)) ∧
      s' = { s with
        byStore := facts.foldl addLine s.byStore
        recordIds := s.recordIds.union b.ids
        orders := s.orders.union b.orders
        recordCount := s.recordCount + facts.length
        version := s.version + 1 } := by
  unfold append check at h
  split at h
  · next ha =>
    cases hb : s.acceptLines facts with
    | error e => rw [hb] at h; cases h
    | ok b =>
      rw [hb] at h
      cases h
      exact ⟨ha, b, rfl, rfl, rfl⟩
  · cases h

theorem lines_append {s s' : FactStore} {facts : List FactRecord} {stores : KeySet String}
    (h : s.append facts = .ok (s', stores)) : s'.lines.Perm (facts ++ s.lines) := by
  obtain ⟨-, b, -, -, rfl⟩ := append_eq_ok h
  exact linesIn_foldl_addLine_perm facts s.byStore

theorem linesOf_append {s s' : FactStore} {facts : List FactRecord} {stores : KeySet String}
    (h : s.append facts = .ok (s', stores)) (id : String) :
    s'.linesOf id = s.linesOf id ++ facts.filter fun f => f.storeId = id := by
  obtain ⟨-, b, -, -, rfl⟩ := append_eq_ok h
  exact getD_foldl_addLine facts s.byStore id

theorem lines_purge (s : FactStore) (id : String) :
    s.lines.Perm (s.linesOf id ++ (s.purge id).1.lines) :=
  linesIn_erase_perm s.byStore id

/-- The lines of a store stand together among all lines. -/
theorem linesOf_sublist (s : FactStore) (id : String) : (s.linesOf id).Sublist s.lines := by
  unfold linesOf getD
  cases hget : s.byStore.get? id with
  | none => exact List.nil_sublist _
  | some fs => exact List.sublist_flatten_of_mem (mem_values.2 ⟨id, hget⟩)

theorem linesOf_purge (s : FactStore) (id id' : String) :
    (s.purge id).1.linesOf id' = if id' = id then [] else s.linesOf id' := by
  change (s.byStore.erase id).getD id' [] = _
  rw [getD, get?_erase]
  split <;> rfl

theorem lines_purgePartition (s : FactStore) (id : String) (date : Date) :
    s.lines.Perm (s.partitionOf id date ++ (s.purgePartition id date).1.lines) := by
  unfold purgePartition partitionOf linesOf getD
  cases hg : s.byStore.get? id with
  | none => exact .refl _
  | some fs =>
    have hsplit : fs.Perm
        (fs.filter (fun f => f.date = date) ++ fs.filter fun f => f.date ≠ date) := by
      simpa using (List.filter_append_perm (fun f : FactRecord => decide (f.date = date)) fs).symm
    have hlines := linesIn_erase_perm s.byStore id
    rw [getD, hg] at hlines
    refine hlines.trans ((hsplit.append_right _).trans ?_)
    rw [List.append_assoc]
    refine List.Perm.append_left _ ?_
    simp only [lines_eq]
    split
    · next hk => rw [List.isEmpty_iff.1 hk]; exact .refl _
    · exact (linesIn_insert_perm ..).symm

theorem mem_keys_foldl_addLine {facts : List FactRecord} {m : SortedMap String (List FactRecord)}
    {id : String} (h : id ∈ (facts.foldl addLine m).keys) :
    id ∈ m.keys ∨ ∃ f ∈ facts, f.storeId = id := by
  induction facts generalizing m with
  | nil => exact .inl h
  | cons f facts ih =>
    rcases ih h with hm | ⟨g, hg, hid⟩
    · rcases mem_keys_insert.1 hm with rfl | hm
      · exact .inr ⟨f, List.mem_cons_self, rfl⟩
      · exact .inl hm
    · exact .inr ⟨g, List.mem_cons_of_mem _ hg, hid⟩

/-- A store whose last lines go is not listed any more. -/
theorem getD_replaceLines (m : SortedMap String (List FactRecord)) (id id' : String)
    (kept : List FactRecord) :
    (if kept.isEmpty then m.erase id else m.insert id kept).getD id' [] =
      if id' = id then kept else m.getD id' [] := by
  split
  · next hk =>
    rw [getD, get?_erase, List.isEmpty_iff.1 hk]
    split <;> rfl
  · exact getD_insert ..

theorem linesOf_purgePartition (s : FactStore) (id id' : String) (date : Date) :
    (s.purgePartition id date).1.linesOf id' =
      if id' = id then (s.linesOf id').filter fun f => f.date ≠ date else s.linesOf id' := by
  unfold purgePartition
  cases hg : s.byStore.get? id with
  | none =>
    by_cases h : id' = id
    · subst h; simp [linesOf, getD, hg]
    · rw [if_neg h]
  | some fs =>
    refine (getD_replaceLines s.byStore id id' _).trans ?_
    by_cases h : id' = id
    · subst h; simp [linesOf, getD, hg]
    · rw [if_neg h, if_neg h, linesOf]

/-! ### The operations keep stores consistent -/

theorem mem_withoutIds {ids : KeySet String} {facts : List FactRecord} {id : String} :
    id ∈ (withoutIds ids facts).members ↔ id ∈ ids.members ∧ ∀ f ∈ facts, f.recordId ≠ id := by
  induction facts generalizing ids with
  | nil => simp [withoutIds]
  | cons f facts ih =>
    rw [withoutIds, List.foldl_cons, ← withoutIds, ih, KeySet.members, mem_keys_erase,
      List.forall_mem_cons]
    constructor
    · rintro ⟨⟨hne, hid⟩, hall⟩
      exact ⟨hid, Ne.symm hne, hall⟩
    · rintro ⟨hid, hne, hall⟩
      exact ⟨⟨Ne.symm hne, hid⟩, hall⟩

/-- A listed store has lines of its own already, or gets one from the batch. -/
theorem Consistent.own_append {s s' : FactStore} {facts : List FactRecord}
    {stores : KeySet String} (hs : s.Consistent) (h : s.append facts = .ok (s', stores))
    {id : String} {fs : List FactRecord} (hfs : s'.byStore.get? id = some fs) :
    fs ≠ [] ∧ ∀ f ∈ fs, f.storeId = id := by
  have hfs' : fs = s.linesOf id ++ facts.filter fun f => f.storeId = id := by
    rw [← linesOf_append h id]
    unfold linesOf getD
    rw [hfs, Option.getD_some]
  obtain ⟨-, b, -, -, rfl⟩ := append_eq_ok h
  constructor
  · intro hnil
    rw [hnil, eq_comm, List.append_eq_nil_iff] at hfs'
    rcases mem_keys_foldl_addLine (mem_keys.2 ⟨fs, hfs⟩) with hm | ⟨f, hf, hid⟩
    · exact get?_eq_none_iff.1 (hs.linesOf_eq_nil_iff.1 hfs'.1) hm
    · have : f ∈ facts.filter fun f => f.storeId = id := by simp [hf, hid]
      rw [hfs'.2] at this
      cases this
  · intro f hf
    rw [hfs', List.mem_append, List.mem_filter] at hf
    rcases hf with hf | hf
    · exact hs.storeId_of_mem hf
    · simpa using hf.2

/-- The lines of an order carry its header, those that were there and those of a batch. -/
theorem Consistent.header_union {s : FactStore} {b : Batch} {facts : List FactRecord}
    (hs : s.Consistent) (hc : Batch.Covers s b facts) {f : FactRecord}
    (hf : f ∈ facts ∨ f ∈ s.lines) : (s.orders.union b.orders).get? f.orderId = some f.header := by
  -- an order that the store knows has no new header
  have hold (o : String) (hd : OrderHeader) (ho : s.orders.get? o = some hd) :
      b.orders.get? o = none := by
    cases hbo : b.orders.get? o with
    | none => rfl
    | some hd' =>
      rw [(hc.orders o hd' hbo).1] at ho
      cases ho
  rw [get?_union]
  rcases hf with hf | hf
  · have hd := hc.headers f hf
    cases ho : s.orders.get? f.orderId with
    | none =>
      rw [ho] at hd
      simpa using hd
    | some hd' =>
      rw [ho] at hd
      rw [hold _ _ ho]
      exact hd
  · have hd := hs.headers f hf
    rw [hold _ _ hd, hd, Option.none_or]

/-- **An accepted batch** keeps a store consistent. -/
theorem Consistent.append {s s' : FactStore} {facts : List FactRecord} {stores : KeySet String}
    (hs : s.Consistent) (h : s.append facts = .ok (s', stores)) : s'.Consistent := by
  have hlines := lines_append h
  have hmem (f : FactRecord) : f ∈ s'.lines ↔ f ∈ facts ∨ f ∈ s.lines := by
    rw [hlines.mem_iff, List.mem_append]
  have hown (id : String) (fs : List FactRecord) (hfs : s'.byStore.get? id = some fs) :=
    hs.own_append h hfs
  obtain ⟨-, b, hb, -, rfl⟩ := append_eq_ok h
  have hc := covers_of_acceptLines hb
  -- What the batch brings is new, and it is what its lines say; the rest was so before.
  refine ⟨hown, ?_, fun id => ?_, ?_, fun o hd ho => ?_, fun f hf => ?_⟩
  · rw [(hlines.map _).nodup_iff, List.map_append, List.nodup_append]
    refine ⟨hc.nodup, hs.nodup, ?_⟩
    rintro _ hid _ hid' rfl
    obtain ⟨f, hf, rfl⟩ := List.mem_map.1 hid
    obtain ⟨g, hg, hgf⟩ := List.mem_map.1 hid'
    exact hc.fresh f hf ((hs.recordIds _).2 ⟨g, hg, hgf⟩)
  · change id ∈ KeySet.members (s.recordIds.union b.ids) ↔ _
    rw [KeySet.mem_union, hs.recordIds, hc.ids, or_comm]
    simp only [hmem, or_and_right, exists_or]
  · rw [hlines.length_eq, List.length_append, Nat.add_comm, ← hs.recordCount]
  · change (s.orders.union b.orders).get? o = some hd at ho
    rw [get?_union, Option.or_eq_some_iff] at ho
    rcases ho with ho | ⟨-, ho⟩
    · obtain ⟨-, f, hf, hfo⟩ := hc.orders o hd ho
      exact ⟨f, (hmem f).2 (.inl hf), hfo⟩
    · obtain ⟨f, hf, hfo⟩ := hs.orders o hd ho
      exact ⟨f, (hmem f).2 (.inr hf), hfo⟩
  · exact hs.header_union hc ((hmem f).1 hf)

/-- Taking lines away keeps a store consistent if their ids and the headers of their orders go with
them, and no others. -/
theorem Consistent.remove {s s' : FactStore} (hs : s.Consistent) (removed : List FactRecord)
    (keep : String → OrderHeader → Bool)
    (hlines : s.lines.Perm (removed ++ s'.lines))
    (hown : ∀ id fs, s'.byStore.get? id = some fs → fs ≠ [] ∧ ∀ f ∈ fs, f.storeId = id)
    (hids : s'.recordIds = withoutIds s.recordIds removed)
    (horders : s'.orders = s.orders.filter keep)
    (hcount : s'.recordCount = s.recordCount - removed.length)
    (hgone : ∀ f ∈ removed, keep f.orderId f.header = false)
    (hkept : ∀ f ∈ s'.lines, keep f.orderId f.header = true) : s'.Consistent := by
  have hmem (f : FactRecord) : f ∈ s.lines ↔ f ∈ removed ∨ f ∈ s'.lines := by
    rw [hlines.mem_iff, List.mem_append]
  -- No line that stays has an id of one that goes.
  have hnodup := hs.nodup
  rw [(hlines.map _).nodup_iff, List.map_append, List.nodup_append] at hnodup
  obtain ⟨-, hnodup, hdisj⟩ := hnodup
  constructor
  · exact hown
  · exact hnodup
  · intro id
    rw [hids, mem_withoutIds, hs.recordIds]
    constructor
    · rintro ⟨⟨f, hf, rfl⟩, hne⟩
      exact ⟨f, ((hmem f).1 hf).resolve_left fun h => hne f h rfl, rfl⟩
    · rintro ⟨f, hf, rfl⟩
      refine ⟨⟨f, (hmem f).2 (.inr hf), rfl⟩, fun g hg e => ?_⟩
      exact hdisj _ (List.mem_map_of_mem hg) _ (List.mem_map_of_mem hf) e
  · rw [hcount, hs.recordCount, hlines.length_eq, List.length_append, Nat.add_sub_cancel_left]
  · intro o hd ho
    rw [horders, get?_filter, Option.filter_eq_some_iff] at ho
    obtain ⟨f, hf, rfl⟩ := hs.orders o hd ho.1
    have hdf : hd = f.header := Option.some.inj (ho.1.symm.trans (hs.headers f hf))
    refine ⟨f, ((hmem f).1 hf).resolve_left fun h => ?_, rfl⟩
    rw [hdf, hgone f h] at ho
    exact Bool.false_ne_true ho.2
  · intro f hf
    rw [horders, get?_filter, hs.headers f ((hmem f).2 (.inr hf)), Option.filter_some,
      if_pos (hkept f hf)]

theorem Consistent.purge {s : FactStore} (hs : s.Consistent) (id : String) :
    (s.purge id).1.Consistent := by
  refine hs.remove (s.linesOf id) (fun _ h => h.storeId != id)
    (lines_purge s id) ?_ rfl rfl rfl ?_ ?_
  · intro id' fs h
    change (s.byStore.erase id).get? id' = some fs at h
    rw [get?_erase] at h
    split at h
    · cases h
    · exact hs.own id' fs h
  · intro f hf
    simp [FactRecord.header, hs.storeId_of_mem hf]
  · intro f hf
    obtain ⟨id', hf⟩ := mem_linesIn.1 hf
    rw [← linesOf, linesOf_purge] at hf
    split at hf
    · cases hf
    · next hne => simpa [FactRecord.header, hs.storeId_of_mem hf] using hne

theorem Consistent.purgePartition {s : FactStore} (hs : s.Consistent) (id : String) (date : Date) :
    (s.purgePartition id date).1.Consistent := by
  cases hg : s.byStore.get? id with
  | none => simpa [FactStore.purgePartition, hg] using hs
  | some fs =>
    have hown := hs.own id fs hg
    -- The lines of the day go, and with them the headers of their orders, which have the same day.
    refine hs.remove (s.partitionOf id date)
      (fun _ h => h.storeId != id || h.timestamp.date ≠ date)
      (lines_purgePartition s id date) ?_ ?_ ?_ ?_ ?_ ?_
    · intro id' fs' h
      simp only [FactStore.purgePartition, hg] at h
      split at h
      · rw [get?_erase] at h
        split at h
        · cases h
        · exact hs.own id' fs' h
      · next hne =>
        rw [get?_insert] at h
        split at h
        · next e =>
          cases h
          exact ⟨by simpa using hne, fun f hf => e ▸ hown.2 f (List.mem_of_mem_filter hf)⟩
        · exact hs.own id' fs' h
    · simp [FactStore.purgePartition, partitionOf, linesOf, getD, hg]
    · simp [FactStore.purgePartition, hg]
    · simp [FactStore.purgePartition, partitionOf, linesOf, getD, hg]
    · intro f hf
      rw [partitionOf, List.mem_filter] at hf
      have : f.timestamp.date = date := of_decide_eq_true hf.2
      simp [FactRecord.header, hs.storeId_of_mem hf.1, this]
    · intro f hf
      obtain ⟨id', hf⟩ := mem_linesIn.1 hf
      rw [← linesOf, linesOf_purgePartition] at hf
      split at hf
      · have : f.timestamp.date ≠ date := of_decide_eq_true (List.mem_filter.1 hf).2
        simp [FactRecord.header, this]
      · next hne => simp [FactRecord.header, hs.storeId_of_mem hf, hne]

/-! ### Reachable stores -/

/-- The stores that appending, purging and marking lead to, from the one without lines. -/
inductive Reachable : FactStore → Prop
  | empty : Reachable {}
  | append {s s' : FactStore} {facts : List FactRecord} {stores : KeySet String} :
      Reachable s → s.append facts = .ok (s', stores) → Reachable s'
  | purge {s : FactStore} (id : String) : Reachable s → Reachable (s.purge id).1
  | purgePartition {s : FactStore} (id : String) (date : Date) :
      Reachable s → Reachable (s.purgePartition id date).1
  | setAvailable {s : FactStore} (available : Bool) :
      Reachable s → Reachable (s.setAvailable available)

/-- **What a reachable store keeps beside its lines agrees with them.** -/
theorem Reachable.consistent {s : FactStore} (h : s.Reachable) : s.Consistent := by
  induction h with
  | empty => exact consistent_empty
  | append _ h ih => exact ih.append h
  | purge id _ ih => exact ih.purge id
  | purgePartition id date _ ih => exact ih.purgePartition id date
  | setAvailable available _ ih => exact ⟨ih.1, ih.2, ih.3, ih.4, ih.5, ih.6⟩

/-! ### Changes of some stores -/

/-- A change of the lines of some stores: batches are appended, stores and days are purged. -/
inductive Change : FactStore → KeySet String → FactStore → Prop
  | append {s s' : FactStore} {facts : List FactRecord} {stores : KeySet String} :
      s.append facts = .ok (s', stores) → Change s stores s'
  | purge (s : FactStore) (id : String) : Change s (KeySet.ofList [id]) (s.purge id).1
  | purgePartition (s : FactStore) (id : String) (date : Date) :
      Change s (KeySet.ofList [id]) (s.purgePartition id date).1
  | trans {s s' s'' : FactStore} {keys keys' : KeySet String} :
      Change s keys s' → Change s' keys' s'' → Change s (keys.union keys') s''

namespace Change

variable {s s' : FactStore} {keys : KeySet String}

/-- Changes lead from one store that can be reached to another. -/
theorem reachable (h : Change s keys s') (hs : s.Reachable) : s'.Reachable := by
  induction h with
  | append h => exact hs.append h
  | purge s id => exact hs.purge id
  | purgePartition s id date => exact hs.purgePartition id date
  | trans _ _ ih ih' => exact ih' (ih hs)

/-- The lines of all other stores stay as they are. -/
theorem linesOf_eq (h : Change s keys s') {id : String} (hid : id ∉ keys.members) :
    s'.linesOf id = s.linesOf id := by
  induction h with
  | append h =>
    rw [linesOf_append h]
    obtain ⟨-, b, -, hstores, -⟩ := append_eq_ok h
    rw [hstores, KeySet.mem_ofList, List.mem_map] at hid
    rw [List.filter_eq_nil_iff.2 fun f hf e => hid ⟨f, hf, by simpa using e⟩, List.append_nil]
  | purge s id' =>
    rw [KeySet.mem_ofList, List.mem_singleton] at hid
    rw [linesOf_purge, if_neg hid]
  | purgePartition s id' date =>
    rw [KeySet.mem_ofList, List.mem_singleton] at hid
    rw [linesOf_purgePartition, if_neg hid]
  | trans _ _ ih ih' =>
    rw [KeySet.mem_union, not_or] at hid
    rw [ih' hid.2, ih hid.1]

/-- A change of no store leaves all lines as they are. -/
theorem lines_eq (h : Change s keys s') (hkeys : ∀ id, id ∉ keys.members) :
    s'.lines = s.lines := by
  induction h with
  | @append s s' facts stores h =>
    obtain ⟨-, b, -, hstores, rfl⟩ := append_eq_ok h
    have hnil : facts = [] := by
      rcases facts with _ | ⟨f, facts⟩
      · rfl
      · exact absurd (by rw [hstores]; simp) (hkeys f.storeId)
    rw [hnil]
    rfl
  | purge s id' => exact absurd (by simp) (hkeys id')
  | purgePartition s id' date => exact absurd (by simp) (hkeys id')
  | trans _ _ ih ih' =>
    rw [ih' fun id h => hkeys id (KeySet.mem_union.2 (.inr h)),
      ih fun id h => hkeys id (KeySet.mem_union.2 (.inl h))]

/-- Versions never go back. -/
theorem version_le (h : Change s keys s') : s.version ≤ s'.version := by
  induction h with
  | append h =>
    obtain ⟨-, b, -, -, rfl⟩ := append_eq_ok h
    exact Nat.le_succ _
  | purge s id =>
    unfold FactStore.purge
    dsimp only
    split <;> omega
  | purgePartition s id date =>
    unfold FactStore.purgePartition
    split
    · exact Nat.le_refl _
    · dsimp only
      split <;> omega
  | trans _ _ ih ih' => exact Nat.le_trans ih ih'

end Change

end RetailReport.FactStore
