import RetailReport.Partition.Table
import RetailReport.Proofs.Calendar.Numbered
import RetailReport.Proofs.Outcomes
import RetailReport.Proofs.SortedMap

/-!
# Lines from tables

A table gives back the lines that it was made of.  Its columns are all that occur on the lines, so
no amount is left out; a moment is kept by its nanoseconds, which a moment in a leap second shares
with another one.

## Main definitions

* `FactRecord.IsOrdinary`: the line is not of a leap second.

## Main results

* `columnsOf_complete`: every amount of a line has its column.
* `FactTable.lines_ofLines`: from lines to a table and back.
-/

namespace RetailReport

/-! ### Columns -/

/-- Whether a catalog has the name of a column. -/
def Catalog.Has (c : Catalog) (column : AmountColumn) : Prop :=
  match column.level with
  | .item => column.name ∈ c.itemFields.members
  | .order => column.name ∈ c.orderFields.members

theorem mem_columnsOf {facts : List FactRecord} {column : AmountColumn} :
    column ∈ columnsOf facts ↔ (Catalog.ofRecords facts).Has column := by
  obtain ⟨level, name⟩ := column
  rw [columnsOf, List.mem_append, List.mem_map, List.mem_map]
  cases level <;> simp [Catalog.Has]

/-- The names on the next line are added to a catalog. -/
theorem Catalog.has_foldl {facts : List FactRecord} {c : Catalog} {column : AmountColumn}
    (h : c.Has column ∨ ∃ f ∈ facts, (f.amountIn? column).isSome) :
    (facts.foldl (fun c f =>
      { itemFields := c.itemFields.union (f.itemFields.mapValues fun _ _ => ())
        orderFields := c.orderFields.union (f.orderFields.mapValues fun _ _ => ()) })
      c).Has column := by
  induction facts generalizing c with
  | nil => simpa using h
  | cons f facts ih =>
    have hmem : ∀ (m : SortedMap String Amount) name, (m.get? name).isSome →
        name ∈ KeySet.members (m.mapValues fun _ _ => ()) := by
      intro m name hsome
      rw [KeySet.members, SortedMap.mem_keys_iff_isSome, SortedMap.get?_mapValues,
        Option.isSome_map]
      exact hsome
    obtain ⟨level, name⟩ := column
    rw [List.foldl_cons]
    refine ih ?_
    -- The column was known before, or the first line brings it, or a later one does.
    rcases h with h | ⟨g, hg, hsome⟩
    · refine .inl ?_
      cases level
      · exact KeySet.mem_union.2 (.inl h)
      · exact KeySet.mem_union.2 (.inl h)
    · rcases List.mem_cons.1 hg with rfl | hg
      · refine .inl ?_
        cases level
        · exact KeySet.mem_union.2 (.inr (hmem _ _ hsome))
        · exact KeySet.mem_union.2 (.inr (hmem _ _ hsome))
      · exact .inr ⟨g, hg, hsome⟩

/-- **Every amount of a line** has its column. -/
theorem columnsOf_complete {facts : List FactRecord} {f : FactRecord} (hf : f ∈ facts)
    {column : AmountColumn} (h : (f.amountIn? column).isSome) : column ∈ columnsOf facts :=
  mem_columnsOf.2 (Catalog.has_foldl (.inr ⟨f, hf, h⟩))

/-! ### Lines -/

namespace FactRecord

/-- The line is not of a leap second. -/
def IsOrdinary (f : FactRecord) : Prop := f.timestamp.nano < 1000000000

instance (f : FactRecord) : Decidable f.IsOrdinary := inferInstanceAs (Decidable (_ < _))

/-- What a line is apart from its amounts. -/
def SameBase (f g : FactRecord) : Prop :=
  f.recordId = g.recordId ∧ f.orderId = g.orderId ∧ f.storeId = g.storeId ∧
    f.timestamp = g.timestamp ∧ f.channel = g.channel

/-- Lines are told apart by their bases and their amounts. -/
theorem ext_amountIn? {f g : FactRecord} (h : f.SameBase g)
    (hamounts : ∀ column, f.amountIn? column = g.amountIn? column) : f = g := by
  obtain ⟨h₁, h₂, h₃, h₄, h₅⟩ := h
  have hitem : f.itemFields = g.itemFields :=
    SortedMap.ext_get? fun name => hamounts ⟨.item, name⟩
  have horder : f.orderFields = g.orderFields :=
    SortedMap.ext_get? fun name => hamounts ⟨.order, name⟩
  cases f
  cases g
  simp_all

theorem sameBase_setAmount (f : FactRecord) (c : AmountColumn) (a : Amount) :
    (f.setAmount c a).SameBase f := by
  unfold setAmount
  split <;> exact ⟨rfl, rfl, rfl, rfl, rfl⟩

theorem SameBase.trans {f g k : FactRecord} (h : f.SameBase g) (h' : g.SameBase k) :
    f.SameBase k := by
  obtain ⟨h₁, h₂, h₃, h₄, h₅⟩ := h'
  exact ⟨h.1.trans h₁, h.2.1.trans h₂, h.2.2.1.trans h₃, h.2.2.2.1.trans h₄, h.2.2.2.2.trans h₅⟩

theorem amountIn?_setAmount (f : FactRecord) (c column : AmountColumn) (a : Amount) :
    (f.setAmount c a).amountIn? column = if column = c then some a else f.amountIn? column := by
  obtain ⟨level, name⟩ := c
  obtain ⟨level', name'⟩ := column
  cases level <;> cases level' <;>
    simp [setAmount, amountIn?, itemField?, orderField?, SortedMap.get?_insert]

/-- Sets the amounts in some columns as they are on another line. -/
def withAmounts (f g : FactRecord) (columns : List AmountColumn) : FactRecord :=
  (columns.zip (columns.map f.amountIn?)).foldl
    (fun g (c, a) => match a with
      | some a => g.setAmount c a
      | none => g) g

theorem withAmounts_cons (f g : FactRecord) (c : AmountColumn) (columns : List AmountColumn) :
    f.withAmounts g (c :: columns) =
      f.withAmounts (match f.amountIn? c with
        | some a => g.setAmount c a
        | none => g) columns := rfl

theorem sameBase_withAmounts (f g : FactRecord) (columns : List AmountColumn) :
    (f.withAmounts g columns).SameBase g := by
  induction columns generalizing g with
  | nil => exact ⟨rfl, rfl, rfl, rfl, rfl⟩
  | cons c columns ih =>
    rw [withAmounts_cons]
    refine (ih _).trans ?_
    split
    · exact sameBase_setAmount g c _
    · exact ⟨rfl, rfl, rfl, rfl, rfl⟩

/-- The amounts in the columns are as on the other line, if it has them. -/
theorem amountIn?_withAmounts (f g : FactRecord) (columns : List AmountColumn)
    (column : AmountColumn) : (f.withAmounts g columns).amountIn? column =
      (if column ∈ columns then f.amountIn? column else none).or (g.amountIn? column) := by
  induction columns generalizing g with
  | nil => simp [withAmounts]
  | cons c columns ih =>
    rw [withAmounts_cons, ih]
    by_cases h : column = c
    · subst h
      rw [if_pos (List.mem_cons_self : column ∈ column :: columns)]
      cases hamount : f.amountIn? column with
      | none => simp
      | some a =>
        rw [amountIn?_setAmount, if_pos rfl]
        split <;> rfl
    · have hmem : column ∈ c :: columns ↔ column ∈ columns := by simp [h]
      rw [if_congr hmem rfl rfl]
      cases f.amountIn? c with
      | none => rfl
      | some a => rw [amountIn?_setAmount, if_neg h]

theorem amountIn?_of_empty {f : FactRecord} (hitem : f.itemFields = .empty)
    (horder : f.orderFields = .empty) (column : AmountColumn) : f.amountIn? column = none := by
  unfold amountIn? itemField? orderField?
  rw [hitem, horder]
  split <;> rfl

end FactRecord

/-! ### Tables -/

namespace FactTable

/-- A row gives its line back at the moment that its moment becomes, if every amount of the line has
its column. -/
theorem decodeRow_encodeRow {columns : List AmountColumn} {f : FactRecord} {row : TableRow}
    (h : encodeRow columns f = .ok row) {u : Timestamp} (hu : f.timestamp.Settles u)
    (hcolumns : ∀ column, (f.amountIn? column).isSome → column ∈ columns) :
    decodeRow columns row = .ok { f with timestamp := u } := by
  unfold encodeRow at h
  simp only at h
  split at h
  · cases h
    unfold decodeRow
    simp only [hu.ofNanos?_nanos]
    refine congrArg Except.ok (FactRecord.ext_amountIn?
      (FactRecord.sameBase_withAmounts f _ columns) fun column => ?_)
    -- The line that the amounts are set on has none of its own.
    refine (FactRecord.amountIn?_withAmounts f _ columns column).trans
      ((congrArg (Option.or _) (FactRecord.amountIn?_of_empty rfl rfl column)).trans ?_)
    rw [Option.or_none]
    split
    · rfl
    · next hmissing => exact (Option.not_isSome_iff_eq_none.1 (mt (hcolumns column) hmissing)).symm
  · cases h

/-- **A table gives its lines back**, unless there are leap seconds among them. -/
theorem lines_ofLines {facts : List FactRecord} {t : FactTable} (h : ofLines facts = .ok t)
    (hfacts : ∀ f ∈ facts, f.IsOrdinary) : t.lines = .ok facts := by
  obtain ⟨rows, hrows, h⟩ := Except.bind_eq_ok.1 h
  cases h
  have hboth : facts.Forall₂
      (fun f row => f ∈ facts ∧ encodeRow (columnsOf facts) f = .ok row) rows :=
    (List.forall₂_and_left _ _).2 ⟨fun _ hf => hf, List.mapM_eq_ok.1 hrows⟩
  unfold lines decode
  rw [if_pos rfl, List.mapM_eq_ok]
  refine (hboth.imp fun f row ⟨hf, hrow⟩ => ?_).flip
  exact decodeRow_encodeRow hrow (.self (hfacts f hf)) fun _ h => columnsOf_complete hf h

/-- **Lines that cannot be a table** have a moment that does not fit a word. -/
theorem exists_of_ofLines_eq_error {facts : List FactRecord} {e : TableError}
    (h : ofLines facts = .error e) :
    ∃ f ∈ facts, fitsWord f.timestamp.nanos = false ∧
      e = .momentOutOfRange f.timestamp f.recordId := by
  have hrows : facts.mapM (encodeRow (columnsOf facts)) = .error e := by
    unfold ofLines encode at h
    cases hrows : facts.mapM (encodeRow (columnsOf facts)) with
    | error e' =>
      rw [hrows] at h
      exact congrArg Except.error (Except.error.inj h)
    | ok rows =>
      rw [hrows] at h
      cases h
  obtain ⟨f, hf, hrow⟩ := List.exists_mem_of_mapM_eq_error hrows
  refine ⟨f, hf, ?_⟩
  unfold encodeRow at hrow
  simp only at hrow
  split at hrow
  · cases hrow
  · next hfits => exact ⟨Bool.not_eq_true _ ▸ hfits, (Except.error.inj hrow).symm⟩

end FactTable

end RetailReport
