import RetailReport.Proofs.Fact.Consistency
import RetailReport.Proofs.Rollup.Slices

/-!
# Histories of the fact store

Batches are appended, stores and days are purged, and the store is marked available or not, in any
order; a batch that is refused leaves everything as it was.  Whatever happens, what the store keeps
beside its lines agrees with them, and its version tells its lines: it never goes back, and as long as
it stays the same, so do the lines.

## Main definitions

* `FactOp`, `FactStore.run`: what can happen to a fact store, and what becomes of it.
* `FactStore.Since`: one fact store is a later state of another.

## Main results

* `FactStore.since_apply`: every operation leads to a later state.
* `FactStore.consistent_run`: **the state of a store after any history**.
-/

namespace RetailReport

/-- What can happen to a fact store. -/
inductive FactOp where
  /-- A batch is appended. -/
  | append (facts : List FactRecord)
  /-- A store is purged. -/
  | purge (storeId : String)
  /-- A day of a store is purged. -/
  | purgePartition (storeId : String) (date : Date)
  /-- The store is marked available or unavailable. -/
  | setAvailable (available : Bool)

/-- The lines that are given. -/
def FactOp.facts : FactOp → List FactRecord
  | .append facts => facts
  | .purge _ | .purgePartition _ _ | .setAvailable _ => []

namespace FactStore

open SortedMap

/-- The store after an operation; a batch that is refused changes nothing. -/
def apply (s : FactStore) : FactOp → FactStore
  | .append facts =>
    match s.append facts with
    | .ok (s', _) => s'
    | .error _ => s
  | .purge storeId => (s.purge storeId).1
  | .purgePartition storeId date => (s.purgePartition storeId date).1
  | .setAvailable available => s.setAvailable available

/-- The store after some operations, at first empty. -/
def run (ops : List FactOp) : FactStore := ops.foldl apply {}

theorem run_append (ops more : List FactOp) : run (ops ++ more) = more.foldl apply (run ops) :=
  List.foldl_append

/-- Histories lead to stores that can be reached. -/
theorem Reachable.apply {s : FactStore} (h : s.Reachable) (op : FactOp) :
    (s.apply op).Reachable := by
  cases op with
  | append facts =>
    unfold FactStore.apply
    dsimp only
    split
    · next happend => exact h.append happend
    · exact h
  | purge storeId => exact h.purge storeId
  | purgePartition storeId date => exact h.purgePartition storeId date
  | setAvailable available => exact h.setAvailable available

theorem reachable_foldl {s : FactStore} (h : s.Reachable) (ops : List FactOp) :
    (ops.foldl apply s).Reachable := by
  induction ops generalizing s with
  | nil => exact h
  | cons op ops ih => exact ih (h.apply op)

theorem reachable_run (ops : List FactOp) : (run ops).Reachable := reachable_foldl .empty ops

/-- All lines were there before, or were given. -/
theorem mem_lines_apply {s : FactStore} {op : FactOp} {f : FactRecord}
    (h : f ∈ (s.apply op).lines) : f ∈ s.lines ∨ f ∈ op.facts := by
  cases op with
  | append facts =>
    unfold FactStore.apply at h
    dsimp only at h
    split at h
    · next happend =>
      exact (List.mem_append.1 ((lines_append happend).mem_iff.1 h)).symm
    · exact .inl h
  | purge storeId =>
    exact .inl ((s.lines_purge storeId).mem_iff.2 (List.mem_append_right _ h))
  | purgePartition storeId date =>
    exact .inl ((s.lines_purgePartition storeId date).mem_iff.2 (List.mem_append_right _ h))
  | setAvailable available => exact .inl h

/-! ### Versions -/

/-- **A later state of a store**: its version is greater, or it is the same and so are the lines of
each store. -/
def Since (s s' : FactStore) : Prop :=
  s.version < s'.version ∨ s.version = s'.version ∧ s'.byStore = s.byStore

theorem Since.refl (s : FactStore) : s.Since s := .inr ⟨rfl, rfl⟩

theorem Since.trans {s s' s'' : FactStore} (h : s.Since s') (h' : s'.Since s'') : s.Since s'' := by
  rcases h with hlt | ⟨heq, hlines⟩
  · rcases h' with hlt' | ⟨heq', -⟩
    · exact .inl (Nat.lt_trans hlt hlt')
    · exact .inl (heq' ▸ hlt)
  · rcases h' with hlt' | ⟨heq', hlines'⟩
    · exact .inl (heq ▸ hlt')
    · exact .inr ⟨heq.trans heq', hlines'.trans hlines⟩

theorem Since.version_le {s s' : FactStore} (h : s.Since s') : s.version ≤ s'.version := by
  rcases h with hlt | ⟨heq, -⟩
  · exact Nat.le_of_lt hlt
  · exact Nat.le_of_eq heq

theorem since_purge {s : FactStore} (hs : s.Consistent) (storeId : String) :
    s.Since (s.purge storeId).1 := by
  by_cases hnone : (s.byStore.getD storeId []).isEmpty = true
  · -- A store without lines is not listed, so there is nothing to take away.
    refine .inr ⟨(if_pos hnone).symm, ?_⟩
    exact erase_of_get?_eq_none (hs.linesOf_eq_nil_iff.1 (List.isEmpty_iff.1 hnone))
  · refine .inl ?_
    show s.version < if _ then _ else _
    rw [if_neg hnone]
    exact Nat.lt_succ_self _

theorem since_purgePartition {s : FactStore} (hs : s.Consistent) (storeId : String) (date : Date) :
    s.Since (s.purgePartition storeId date).1 := by
  unfold purgePartition
  split
  · exact .refl s
  · next facts hget =>
    by_cases hnone : (facts.filter fun f => f.date = date).isEmpty = true
    · refine .inr ⟨(if_pos hnone).symm, ?_⟩
      -- All lines are kept, and there are some.
      have hkept : (facts.filter fun f => f.date ≠ date) = facts := by
        rw [List.isEmpty_iff, List.filter_eq_nil_iff] at hnone
        refine List.filter_eq_self.2 fun f hf => ?_
        simpa using hnone f hf
      have hsome : ¬facts.isEmpty = true := by
        simpa using (hs.own storeId facts hget).1
      show (if _ then _ else _) = s.byStore
      rw [hkept, if_neg hsome]
      exact insert_of_get?_eq_some hget
    · refine .inl ?_
      show s.version < if _ then _ else _
      rw [if_neg hnone]
      exact Nat.lt_succ_self _

/-- **Every operation leads to a later state.** -/
theorem since_apply {s : FactStore} (hs : s.Consistent) (op : FactOp) : s.Since (s.apply op) := by
  cases op with
  | append facts =>
    unfold FactStore.apply
    dsimp only
    split
    · next happend =>
      obtain ⟨-, b, -, -, rfl⟩ := append_eq_ok happend
      exact .inl (Nat.lt_succ_self _)
    · exact .refl s
  | purge storeId => exact since_purge hs storeId
  | purgePartition storeId date => exact since_purgePartition hs storeId date
  | setAvailable available => exact .refl s

/-- So does a history. -/
theorem since_foldl {s : FactStore} (hs : s.Reachable) (ops : List FactOp) :
    s.Since (ops.foldl apply s) := by
  induction ops generalizing s with
  | nil => exact .refl s
  | cons op ops ih => exact (since_apply hs.consistent op).trans (ih (hs.apply op))

/-- A snapshot has the version and the lines of the store. -/
theorem scanAll_eq_ok {s : FactStore} {snapshot : FactSnapshot} (h : s.scanAll = .ok snapshot) :
    snapshot = ⟨s.version, s.lines⟩ := by
  unfold scanAll check at h
  split at h
  · exact (Except.ok.inj h).symm
  · cases h

/-! ### Whole histories -/

/-- **The state of a store after any history**: what it keeps beside its lines agrees with them, the
lines of an order agree with one another, and from there on no version is smaller, and snapshots of
one version have the same lines. -/
theorem consistent_run (ops more : List FactOp) :
    (run ops).Consistent ∧
    (∀ f ∈ (run ops).lines, ∀ g ∈ (run ops).lines, f.orderId = g.orderId → f.header = g.header) ∧
    (run ops).version ≤ (run (ops ++ more)).version ∧
    ∀ early late, (run ops).scanAll = .ok early → (run (ops ++ more)).scanAll = .ok late →
      early.version = late.version → early.records = late.records := by
  have hs := reachable_run ops
  have hsince : (run ops).Since (run (ops ++ more)) := by
    rw [run_append]
    exact since_foldl hs more
  refine ⟨hs.consistent, fun f hf g hg => hs.consistent.header_eq hf hg, hsince.version_le, ?_⟩
  intro early late hearly hlate hversion
  rw [scanAll_eq_ok hearly, scanAll_eq_ok hlate] at hversion ⊢
  rcases hsince with hlt | ⟨-, hlines⟩
  · exact absurd hversion (Nat.ne_of_lt hlt)
  · show (run ops).lines = (run (ops ++ more)).lines
    rw [lines_eq, lines_eq, hlines]

/-- A line is appended; then it is refused a second time, another store is purged, and this one is
purged for another day.  Nothing of this shows in a later snapshot. -/
theorem records_eq_of_idle_history : ∃ early late,
    (run [.append [sampleLine "S1" "r1"]]).scanAll = .ok early ∧
    (run ([.append [sampleLine "S1" "r1"]] ++
      [.append [sampleLine "S1" "r1"], .purge "S2",
        .purgePartition "S1" { year := 2025, month := 1, day := 2 }])).scanAll = .ok late ∧
    early.version = late.version ∧ early.records = late.records ∧
    late.records = [sampleLine "S1" "r1"] := by
  have hearly : (run [.append [sampleLine "S1" "r1"]]).scanAll =
      .ok ⟨1, [sampleLine "S1" "r1"]⟩ := by decide +kernel
  have hlate : (run ([.append [sampleLine "S1" "r1"]] ++
      [.append [sampleLine "S1" "r1"], .purge "S2",
        .purgePartition "S1" { year := 2025, month := 1, day := 2 }])).scanAll =
      .ok ⟨1, [sampleLine "S1" "r1"]⟩ := by decide +kernel
  exact ⟨_, _, hearly, hlate, rfl,
    (consistent_run _ _).2.2.2 _ _ hearly hlate rfl, rfl⟩

end FactStore

end RetailReport
