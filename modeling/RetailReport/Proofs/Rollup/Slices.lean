import RetailReport.Proofs.Rollup.Kernel
import RetailReport.Rollup.Plan
import RetailReport.Rollup.Store

/-!
# What a slice ought to hold

A slice is right for some lines if it holds the rows that its plan computes from them, and is absent
if there are none.  A commit replaces the slices of its batch and leaves all others alone.

## Main definitions

* `RollupStore.Holds`: a slice is right for some lines.
* `RollupStore.content`: the rows of a slice as a look-up gives them.

## Main results

* `RollupStore.get?_commit_of_mem`, `RollupStore.get?_commit_of_notMem`.
* `RebuildPlan.execute_nil`: no lines give no rows.
* `RebuildPlan.keys_of_execute`: lines give one row for each of their groups.
-/

namespace RetailReport

/-! ### Commits -/

namespace RollupStore

/-- What a look-up gives for a slice that was replaced by some rows. -/
def content (rows : List RollupRow) : Option (List RollupRow) :=
  if rows.isEmpty then none else some rows

theorem get?_replace (slices : SortedMap SliceId (List RollupRow)) (u : SliceUpdate)
    (id : SliceId) :
    (replace slices u).get? id = if id = u.id then content u.rows else slices.get? id := by
  unfold replace content
  split
  · rw [SortedMap.get?_erase]
  · rw [SortedMap.get?_insert]

theorem get?_foldl_replace_of_notMem {batch : RollupBatch} {id : SliceId}
    (h : id ∉ batch.sliceIds) (slices : SortedMap SliceId (List RollupRow)) :
    (batch.foldl replace slices).get? id = slices.get? id := by
  induction batch generalizing slices with
  | nil => rfl
  | cons u batch ih =>
    simp only [RollupBatch.sliceIds, List.map_cons, List.mem_cons, not_or] at h
    rw [List.foldl_cons, ih h.2, get?_replace, if_neg h.1]

theorem get?_foldl_replace_of_mem {batch : RollupBatch} (hb : batch.sliceIds.Nodup)
    {u : SliceUpdate} (h : u ∈ batch) (slices : SortedMap SliceId (List RollupRow)) :
    (batch.foldl replace slices).get? u.id = content u.rows := by
  induction batch generalizing slices with
  | nil => cases h
  | cons v batch ih =>
    rw [RollupBatch.sliceIds, List.map_cons, List.nodup_cons] at hb
    rw [List.foldl_cons]
    rcases List.mem_cons.1 h with rfl | h
    · rw [get?_foldl_replace_of_notMem hb.1, get?_replace, if_pos rfl]
    · exact ih hb.2 h _

/-- A commit leaves the slices alone that are not in its batch. -/
theorem get?_commit_of_notMem {batch : RollupBatch} {id : SliceId} (h : id ∉ batch.sliceIds)
    (s : RollupStore) : (s.commit batch).get? id = s.get? id :=
  get?_foldl_replace_of_notMem h s.slices

/-- A slice that is stored after a commit is in its batch, or was stored before. -/
theorem mem_keys_commit {batch : RollupBatch} {id : SliceId} {s : RollupStore}
    (h : id ∈ (s.commit batch).slices.keys) : id ∈ batch.sliceIds ∨ id ∈ s.slices.keys := by
  by_cases hid : id ∈ batch.sliceIds
  · exact .inl hid
  · rw [SortedMap.mem_keys_iff_isSome] at h ⊢
    have hget : (s.commit batch).slices.get? id = s.slices.get? id := get?_commit_of_notMem hid s
    exact .inr (hget ▸ h)

/-- A commit replaces each slice of its batch. -/
theorem get?_commit_of_mem {batch : RollupBatch} (hb : batch.sliceIds.Nodup) {u : SliceUpdate}
    (h : u ∈ batch) (s : RollupStore) : (s.commit batch).get? u.id = content u.rows :=
  get?_foldl_replace_of_mem hb h s.slices

/-! ### Right slices -/

/-- The slice of a plan holds what the plan computes from some lines, and is absent if that is
nothing. -/
def Holds (s : RollupStore) (p : RebuildPlan) (scope : String) (lines : List FactRecord) : Prop :=
  ∃ rows, p.execute lines = .ok rows ∧ s.get? ⟨p.name, scope⟩ = content rows

instance (s : RollupStore) (p : RebuildPlan) (scope : String) (lines : List FactRecord) :
    Decidable (s.Holds p scope lines) :=
  match h : p.execute lines with
  | .ok rows => decidable_of_iff (s.get? ⟨p.name, scope⟩ = content rows) (by simp [Holds, h])
  | .error e => isFalse (by simp [Holds, h])

theorem Holds.congr {s s' : RollupStore} {p : RebuildPlan} {scope : String}
    {lines : List FactRecord} (h : s.Holds p scope lines)
    (e : s'.get? ⟨p.name, scope⟩ = s.get? ⟨p.name, scope⟩) : s'.Holds p scope lines := by
  obtain ⟨rows, hrows, hget⟩ := h
  exact ⟨rows, hrows, e.trans hget⟩

end RollupStore

namespace RebuildPlan

/-- No lines give no rows. -/
theorem execute_nil (p : RebuildPlan) : p.execute [] = .ok [] := rfl

/-- There is one row for each group of the lines. -/
theorem keys_of_execute {p : RebuildPlan} {lines : List FactRecord} {rows : List RollupRow}
    (h : p.execute lines = .ok rows) : rows.map (·.key) = groupKeys p.dimensions lines := by
  obtain ⟨finished, haggregate, hrows⟩ := Except.bind_eq_ok.1 h
  obtain ⟨base, hbase, hfinalize⟩ := Except.bind_eq_ok.1 haggregate
  have hkeys : finished.map (·.key) = base.map (·.key) :=
    List.map_eq_of_mapM_eq_ok hfinalize fun row row' hrow => by
      obtain ⟨_, -, hrow⟩ := Except.bind_eq_ok.1 hrow
      cases hrow
      rfl
  obtain rfl := Except.ok.inj hrows
  rw [List.map_map, ← Kernel.keys_of_aggregate hbase, ← hkeys]
  rfl

/-- Lines give rows, if there are any. -/
theorem execute_ne_nil {p : RebuildPlan} {lines : List FactRecord} {rows : List RollupRow}
    (h : p.execute lines = .ok rows) (hlines : lines ≠ []) : rows ≠ [] := by
  obtain ⟨f, hf⟩ := List.exists_mem_of_ne_nil lines hlines
  have hkey : groupKey p.dimensions f ∈ rows.map (·.key) := by
    rw [keys_of_execute h]
    exact mem_groupKeys.2 ⟨f, hf, rfl⟩
  exact List.ne_nil_of_mem (List.mem_map.1 hkey).choose_spec.1

end RebuildPlan

/-- The right slice of some lines is there, if there are any. -/
theorem RollupStore.Holds.exists_rows {s : RollupStore} {p : RebuildPlan} {scope : String}
    {lines : List FactRecord} (h : s.Holds p scope lines) (hlines : lines ≠ []) :
    ∃ rows, p.execute lines = .ok rows ∧ s.get? ⟨p.name, scope⟩ = some rows := by
  obtain ⟨rows, hrows, hget⟩ := h
  have hsome : ¬rows.isEmpty = true := by
    rw [List.isEmpty_iff]
    exact RebuildPlan.execute_ne_nil hrows hlines
  exact ⟨rows, hrows, by rw [hget, content, if_neg hsome]⟩

/-- The right slice of no lines is not there. -/
theorem RollupStore.Holds.eq_none {s : RollupStore} {p : RebuildPlan} {scope : String}
    (h : s.Holds p scope []) : s.get? ⟨p.name, scope⟩ = none := by
  obtain ⟨rows, hrows, hget⟩ := h
  obtain rfl := Except.ok.inj (p.execute_nil.symm.trans hrows)
  exact hget

/-- A store without slices is right for no lines. -/
theorem RollupStore.holds_empty (p : RebuildPlan) (scope : String) :
    RollupStore.Holds {} p scope [] :=
  ⟨[], p.execute_nil, rfl⟩

/-! ### A small rollup -/

/-- The rollup that counts lines by some dimensions. -/
def lineCount (name : String) (groupBy : List Dimension) : RebuildPlan where
  schema := { name, groupBy, fields := [{ name := "lines", source := .recordId, agg := .count }] }
  dimensions := groupBy
  derived := []
  formulas := .empty

/-- A line of an order of its own, placed in a store on New Year's Day. -/
def sampleLine (storeId recordId : String) : FactRecord where
  recordId
  orderId := recordId
  storeId
  timestamp := { date := { year := 2025, month := 1, day := 1 }, second := 36000, nano := 0 }
  channel := "APP"

end RetailReport
