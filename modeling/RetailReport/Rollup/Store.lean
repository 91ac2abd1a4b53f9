import RetailReport.Rollup.Metric

/-!
# The rollup store

The rows of a rollup are stored in slices: one for each store, or a single one with the scope `*` if
the rollup does not group by store.  Slices are replaced in batches; all slices of a batch change in
one step, and an empty slice is not stored at all.

## Main definitions

* `SliceId`, `SliceId.key`: a rollup and a scope, and their common text.
* `RollupBatch`: the slices to replace.
* `RollupStore`, `RollupStore.commit`, `RollupStore.get?`.
-/

namespace RetailReport

/-- The scope of rollups that do not group by store. -/
def globalScope : String := "*"

/-- A slice of a rollup. -/
structure SliceId where
  /-- The name of the rollup. -/
  schema : String
  /-- The store, or `*`. -/
  scope : String
deriving DecidableEq, Repr, Inhabited

namespace SliceId

instance : LT SliceId :=
  ⟨fun a b => a.schema < b.schema ∨ a.schema = b.schema ∧ a.scope < b.scope⟩

instance : KeyOrder SliceId :=
  KeyOrder.byKeys (·.schema) (·.scope) (fun _ _ => Iff.rfl) fun {a b} h h' => by
    cases a; cases b; cases h; cases h'; rfl

/-- The text that stands for a slice: the name of the rollup, a slash and the scope. -/
def key (id : SliceId) : String := id.schema ++ "/" ++ id.scope

end SliceId

/-- A slice and the rows that it is to have. -/
structure SliceUpdate where
  /-- The slice. -/
  id : SliceId
  /-- Its rows; none removes it. -/
  rows : List RollupRow
deriving DecidableEq, Repr

/-- Slices that are replaced in one step, in order. -/
abbrev RollupBatch := List SliceUpdate

namespace RollupBatch

/-- The slices of a batch. -/
def sliceIds (b : RollupBatch) : List SliceId := b.map (·.id)

/-- How many rows a batch has. -/
def rowCount (b : RollupBatch) : Nat := (b.map (·.rows.length)).foldl (· + ·) 0

end RollupBatch

/-- The stored slices. -/
structure RollupStore where
  /-- The rows of each slice that has any. -/
  slices : SortedMap SliceId (List RollupRow) := .empty
  /-- How many batches have been committed. -/
  version : Nat := 0
  /-- Whether the store is in order. -/
  healthy : Bool := true
deriving Repr, Inhabited

namespace RollupStore

/-- The slices after one of them is replaced. -/
def replace (slices : SortedMap SliceId (List RollupRow)) (u : SliceUpdate) :
    SortedMap SliceId (List RollupRow) :=
  if u.rows.isEmpty then slices.erase u.id else slices.insert u.id u.rows

/-- Replaces the slices of a batch. -/
def commit (s : RollupStore) (batch : RollupBatch) : RollupStore :=
  { s with slices := batch.foldl replace s.slices, version := s.version + 1 }

/-- The rows of a slice, if it is stored. -/
def get? (s : RollupStore) (id : SliceId) : Option (List RollupRow) := s.slices.get? id

/-- The stored slices of a rollup, ascending by scope. -/
def ofSchema (s : RollupStore) (schema : String) : List (String × List RollupRow) :=
  s.slices.toList.filterMap fun (id, rows) =>
    if id.schema = schema then some (id.scope, rows) else none

/-- The scopes of a rollup, ascending. -/
def scopes (s : RollupStore) (schema : String) : List String := (s.ofSchema schema).map Prod.fst

/-- Several slices of a rollup as of one moment: those that are asked for, or all. -/
def snapshot (s : RollupStore) (schema : String) (scopes : Option (List String)) :
    List (List RollupRow) :=
  match scopes with
  | some scopes => scopes.filterMap fun scope => s.get? ⟨schema, scope⟩
  | none => (s.ofSchema schema).map Prod.snd

/-- The texts of all slices, ascending. -/
def keys (s : RollupStore) : List String :=
  (s.slices.keys.map SliceId.key).mergeSort fun a b => !decide (b < a)

/-- How many rows are stored. -/
def rowCount (s : RollupStore) : Nat := (s.slices.values.map List.length).foldl (· + ·) 0

end RollupStore

end RetailReport
