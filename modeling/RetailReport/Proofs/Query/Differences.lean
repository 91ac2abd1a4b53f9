import Mathlib.Data.List.Perm.Subperm
import RetailReport.Proofs.SortedMap
import RetailReport.Query.Router

/-!
# The differences that are found

Two results are compared by going through the groups of the first one and through the fields of each
group, and by looking for fields that only the second one has.  Results without ratios are found to
differ whatever the difference is, but for one kind: a field that the first result shows without a
value may be lacking in the second.  The other way round it is a difference.

## Main definitions

* `Values.SameButNulls`: the difference between two groups that is not found.
* `AggregateResult.Agrees`, `AggregateResult.AgreesButForNulls`: results that are the same, and results
  that differ in this way alone.
* `AggregateResult.Comparable`: distinct groups without ratios.

## Main results

* `AggregateResult.groupDifference?_eq_none_iff`: **one group**.
* `AggregateResult.difference?_eq_none_iff`: **all groups**.
* `AggregateResult.differences_found`: what is found in one direction, in both, and by the router.
-/

namespace RetailReport

open SortedMap

/-! ### Values -/

/-- A value that is compared exactly. -/
def Metric.ComparesExactly (m : Metric) : Prop := ∀ x, m ≠ .ratio x

instance (m : Metric) : Decidable m.ComparesExactly :=
  decidable_of_iff ((m.amount?.isSome || m.count?.isSome || m.isNull) = true) (by
    unfold Metric.ComparesExactly
    cases m <;> simp [Metric.amount?, Metric.count?, Metric.isNull])

theorem Metric.approxEq_iff {tolerance : Float} {m n : Metric} (h : m.ComparesExactly) :
    m.approxEq tolerance n = true ↔ m = n := by
  cases m with
  | ratio x => exact absurd rfl (h x)
  | amount a => cases n <;> simp [approxEq]
  | count a => cases n <;> simp [approxEq]
  | null => cases n <;> simp [approxEq]

/-- **The second values are the first ones**, but may lack fields that have no value. -/
def Values.SameButNulls (v w : Values) : Prop :=
  ∀ name, v.get? name = w.get? name ∨ v.get? name = some .null ∧ w.get? name = none

/-- In both directions, nothing may be lacking. -/
theorem Values.sameButNulls_and_swap_iff {v w : Values} :
    v.SameButNulls w ∧ w.SameButNulls v ↔ v = w := by
  constructor
  · rintro ⟨h, h'⟩
    refine ext_get? fun name => ?_
    rcases h name with heq | ⟨hnull, hnone⟩
    · exact heq
    · rcases h' name with heq | ⟨hnull', -⟩
      · exact heq.symm
      · rw [hnone] at hnull'
        cases hnull'
  · rintro rfl
    exact ⟨fun _ => .inl rfl, fun _ => .inl rfl⟩

/-- Nor may anything be lacking if the second values have the fields that have no value. -/
theorem Values.eq_iff_sameButNulls {v w : Values} :
    v = w ↔ v.SameButNulls w ∧ ∀ name, v.get? name = some .null → w.get? name ≠ none := by
  constructor
  · rintro rfl
    refine ⟨fun _ => .inl rfl, fun name hnull hnone => ?_⟩
    rw [hnull] at hnone
    cases hnone
  · rintro ⟨h, hshown⟩
    refine ext_get? fun name => (h name).resolve_right ?_
    rintro ⟨hnull, hnone⟩
    exact hshown name hnull hnone

namespace AggregateResult

variable {left right : AggregateResult} {tolerance : Float} {R : Values → Values → Prop}

/-! ### One group -/

/-- What it takes that a field of either group is no difference, if a missing one is null. -/
theorem sameButNulls_iff {v w : Values} : v.SameButNulls w ↔
    (∀ name x, v.get? name = some x → x = w.getD name .null) ∧
      ∀ name, v.get? name = none → w.get? name = none := by
  rw [← forall_and]
  refine forall_congr' fun name => ?_
  rw [SortedMap.getD]
  cases v.get? name with
  | none => simp [eq_comm]
  | some x => cases w.get? name <;> simp

/-- **One group.** -/
theorem groupDifference?_eq_none_iff {key : GroupKey} {engine engine' : Engine} {v w : Values}
    (hexact : ∀ name x, v.get? name = some x → x.ComparesExactly) :
    groupDifference? key engine engine' tolerance v w = none ↔ v.SameButNulls w := by
  rw [sameButNulls_iff, groupDifference?]
  split
  · next name x hfind =>
    -- The field that is found has another value than the second group.
    have hx := mem_toList.1 (List.mem_of_find?_eq_some hfind)
    have hdiffers := List.find?_some hfind
    simp only at hdiffers
    refine iff_of_false nofun fun h => ?_
    rw [(Metric.approxEq_iff (hexact name x hx)).2 (h.1 name x hx)] at hdiffers
    cases hdiffers
  · next hfind =>
    have hvalues : ∀ name x, v.get? name = some x → x = w.getD name .null := fun name x hx => by
      have hfield := List.find?_eq_none.1 hfind (name, x) (mem_toList.2 hx)
      rw [Bool.not_eq_true', Bool.not_eq_false] at hfield
      exact (Metric.approxEq_iff (hexact name x hx)).1 hfield
    -- What is left is the search for fields that only the second group has.
    rw [and_iff_right hvalues, Option.map_eq_none_iff, List.find?_eq_none]
    simp only [Bool.not_eq_true', Bool.not_eq_false, SortedMap.contains_iff, get?_eq_none_iff]
    exact forall_congr' fun name => not_imp_not.symm

/-! ### All groups -/

/-- **The first result differs in no way that is looked for**: the groups are those of the second one,
and so are the fields of each group. -/
theorem difference?_eq_none_iff
    (hexact : ∀ key v, left.byKey.get? key = some v →
      ∀ name x, v.get? name = some x → x.ComparesExactly) :
    left.difference? right tolerance = none ↔
      ∀ key, Option.Rel Values.SameButNulls (left.byKey.get? key) (right.byKey.get? key) := by
  unfold difference?
  simp only
  split
  · next hsize =>
    refine iff_of_false nofun fun h => hsize ?_
    rw [size, size]
    exact (forall₂_toList h).length_eq
  · next hsize =>
    rw [List.findSome?_eq_none_iff]
    constructor
    · intro h
      have hgroups : ∀ key v, left.byKey.get? key = some v →
          ∃ w, right.byKey.get? key = some w ∧ v.SameButNulls w := by
        intro key v hv
        have hgroup := h (key, v) (mem_toList.2 hv)
        cases hw : right.byKey.get? key with
        | none => simp [hw] at hgroup
        | some w =>
          simp only [hw] at hgroup
          exact ⟨w, rfl, (groupDifference?_eq_none_iff (hexact key v hv)).1 hgroup⟩
      -- All groups of the first result are in the second, which has no room for more.
      have hsub : left.byKey.keys ⊆ right.byKey.keys := fun key hkey => by
        obtain ⟨v, hv⟩ := mem_keys.1 hkey
        obtain ⟨w, hw, -⟩ := hgroups key v hv
        exact mem_keys.2 ⟨w, hw⟩
      have hperm : left.byKey.keys.Perm right.byKey.keys :=
        (left.byKey.nodup_keys.subperm hsub).perm_of_length_le
          (by simpa [keys, size] using Nat.le_of_eq (not_not.1 hsize).symm)
      intro key
      cases hv : left.byKey.get? key with
      | some v =>
        obtain ⟨w, hw, hsame⟩ := hgroups key v hv
        rw [hw]
        exact .some hsame
      | none =>
        rw [get?_eq_none_iff, hperm.mem_iff, ← get?_eq_none_iff] at hv
        rw [hv]
        exact .none
    · rintro h ⟨key, v⟩ hv
      have hv := mem_toList.1 hv
      rcases Option.rel_iff.1 (h key) with ⟨hnone, -⟩ | ⟨v', w, hv', hw, hsame⟩
      · rw [hv] at hnone
        cases hnone
      · rw [hv, Option.some.injEq] at hv'
        simp only [hw]
        exact (groupDifference?_eq_none_iff (hexact key v hv)).2 (hv' ▸ hsame)

/-! ### Rows -/

/-- **Two results agree by some measure**: they have the same groups, and the values of each group
do. -/
def AgreesBy (R : Values → Values → Prop) (left right : AggregateResult) : Prop :=
  (∀ key, key ∈ left.rows.map (·.key) ↔ key ∈ right.rows.map (·.key)) ∧
    ∀ row ∈ left.rows, ∀ row' ∈ right.rows, row.key = row'.key → R row.values row'.values

/-- **Results that are the same**: the same groups with the same fields and the same values. -/
def Agrees (left right : AggregateResult) : Prop := left.AgreesBy (· = ·) right

/-- Results that are the same, but for fields without a value that the second one may lack. -/
def AgreesButForNulls (left right : AggregateResult) : Prop := left.AgreesBy Values.SameButNulls right

/-- **Distinct groups**, whose values are amounts, counts or null. -/
structure Comparable (r : AggregateResult) : Prop where
  groups : (r.rows.map (·.key)).Nodup
  exact : ∀ row ∈ r.rows, ∀ x ∈ row.values.values, x.ComparesExactly

/-- Each group is found with its values. -/
theorem Comparable.get?_byKey_iff (h : left.Comparable) {key : GroupKey} {v : Values} :
    left.byKey.get? key = some v ↔ ⟨key, v⟩ ∈ left.rows := by
  have hkeys : (left.rows.map fun row => (row.key, row.values)).map Prod.fst =
      left.rows.map (·.key) := by simp
  constructor
  · intro hget
    have hmem : key ∈ left.rows.map (·.key) := by
      rw [← hkeys]
      exact mem_keys_ofList.1 (mem_keys.2 ⟨v, hget⟩)
    obtain ⟨row, hrow, rfl⟩ := List.mem_map.1 hmem
    have hvalues : left.byKey.get? row.key = some row.values :=
      get?_ofList_of_mem (hkeys ▸ h.groups) (List.mem_map_of_mem hrow)
    obtain rfl := Option.some.inj (hget.symm.trans hvalues)
    exact hrow
  · exact fun hrow => get?_ofList_of_mem (hkeys ▸ h.groups)
      (List.mem_map_of_mem (f := fun row : AggregateRow => (row.key, row.values)) hrow)

theorem Comparable.mem_keys_byKey_iff (h : left.Comparable) {key : GroupKey} :
    key ∈ left.byKey.keys ↔ key ∈ left.rows.map (·.key) := by
  rw [mem_keys, List.mem_map]
  constructor
  · rintro ⟨v, hv⟩
    exact ⟨_, h.get?_byKey_iff.1 hv, rfl⟩
  · rintro ⟨row, hrow, rfl⟩
    exact ⟨row.values, h.get?_byKey_iff.2 hrow⟩

/-- Results with distinct groups agree if their groups do, one by one. -/
theorem agreesBy_iff (hleft : left.Comparable) (hright : right.Comparable) :
    left.AgreesBy R right ↔
      ∀ key, Option.Rel R (left.byKey.get? key) (right.byKey.get? key) := by
  unfold AgreesBy
  simp only [← hleft.mem_keys_byKey_iff, ← hright.mem_keys_byKey_iff]
  -- Row by row means key by key, since no two rows share a key.
  constructor
  · rintro ⟨hkeys, hvalues⟩ key
    cases hv : left.byKey.get? key with
    | none =>
      rw [get?_eq_none_iff, hkeys, ← get?_eq_none_iff] at hv
      rw [hv]
      exact .none
    | some v =>
      obtain ⟨w, hw⟩ := mem_keys.1 ((hkeys key).1 (mem_keys.2 ⟨v, hv⟩))
      rw [hw]
      exact .some (hvalues _ (hleft.get?_byKey_iff.1 hv) _ (hright.get?_byKey_iff.1 hw) rfl)
  · intro h
    refine ⟨fun key => ?_, fun row hrow row' hrow' hkey => ?_⟩
    · rw [mem_keys_iff_isSome, mem_keys_iff_isSome]
      rcases Option.rel_iff.1 (h key) with ⟨hv, hw⟩ | ⟨v, w, hv, hw, -⟩
      · rw [hv, hw]
      · rw [hv, hw]
        exact iff_of_true rfl rfl
    · have hrel := h row.key
      rw [hleft.get?_byKey_iff.2 hrow, hkey, hright.get?_byKey_iff.2 hrow'] at hrel
      cases hrel with
      | some hrel => exact hrel

/-- **What the second result lacks** is no field that the first one shows without a value. -/
def ShowsNullsOf (right left : AggregateResult) : Prop :=
  ∀ row ∈ left.rows, ∀ row' ∈ right.rows, row.key = row'.key →
    ∀ name, row.values.get? name = some .null → row'.values.get? name ≠ none

/-- In both directions, nothing may be lacking. -/
theorem agrees_iff_both_directions :
    left.Agrees right ↔ left.AgreesButForNulls right ∧ right.AgreesButForNulls left := by
  constructor
  · rintro ⟨hkeys, hvalues⟩
    refine ⟨⟨hkeys, fun row hrow row' hrow' hkey => ?_⟩,
      fun key => (hkeys key).symm, fun row hrow row' hrow' hkey => ?_⟩
    · exact (Values.sameButNulls_and_swap_iff.2 (hvalues row hrow row' hrow' hkey)).1
    · exact (Values.sameButNulls_and_swap_iff.2 (hvalues row' hrow' row hrow hkey.symm)).2
  · rintro ⟨⟨hkeys, hvalues⟩, -, hvalues'⟩
    exact ⟨hkeys, fun row hrow row' hrow' hkey => Values.sameButNulls_and_swap_iff.1
      ⟨hvalues row hrow row' hrow' hkey, hvalues' row' hrow' row hrow hkey.symm⟩⟩

/-- Nor may anything be lacking if nothing lacks that has no value. -/
theorem agrees_iff_showsNullsOf :
    left.Agrees right ↔ left.AgreesButForNulls right ∧ right.ShowsNullsOf left := by
  constructor
  · rintro ⟨hkeys, hvalues⟩
    refine ⟨⟨hkeys, fun row hrow row' hrow' hkey => ?_⟩, fun row hrow row' hrow' hkey => ?_⟩
    · exact (Values.eq_iff_sameButNulls.1 (hvalues row hrow row' hrow' hkey)).1
    · exact (Values.eq_iff_sameButNulls.1 (hvalues row hrow row' hrow' hkey)).2
  · rintro ⟨⟨hkeys, hvalues⟩, hshown⟩
    exact ⟨hkeys, fun row hrow row' hrow' hkey => Values.eq_iff_sameButNulls.2
      ⟨hvalues row hrow row' hrow' hkey, hshown row hrow row' hrow' hkey⟩⟩

/-- **What is found of results without ratios.** -/
theorem difference?_eq_none_iff_agreesButForNulls (hleft : left.Comparable)
    (hright : right.Comparable) :
    left.difference? right tolerance = none ↔ left.AgreesButForNulls right := by
  rw [AgreesButForNulls, agreesBy_iff hleft hright]
  exact difference?_eq_none_iff fun key v hv name x hx =>
    hleft.exact _ (hleft.get?_byKey_iff.1 hv) x (mem_values.2 ⟨name, hx⟩)

end AggregateResult

/-! ### The router -/

namespace Router

variable {σ : Type} {r : Router} {access : EngineAccess σ} {s s' s'' : σ} {request : MetricRequest}
  {left right : AggregateResult} {tolerance : Float}

/-- **The router accepts two answers** if no difference is found, and reports it otherwise. -/
theorem verify_eq (h : queryVia access s .rollup request = (.ok left, s'))
    (h' : queryVia access s' .partition request = (.ok right, s'')) :
    r.verify access s request tolerance =
      (left.difference? right tolerance).elim (.ok left, r, s'') fun d =>
        (.error (.inconsistent request.schema d),
          { r with inconsistencies := r.inconsistencies + 1 }, s'') := by
  simp only [verify, h, h']
  cases left.difference? right tolerance <;> rfl

end Router

namespace AggregateResult

variable {left right : AggregateResult}

/-- **The differences that are found.**  Of results with distinct groups and without ratios, the first
one is found to differ from the second one at any tolerance, unless they are the same but for fields
that the first one shows without a value and the second one lacks.  So they are the same exactly if
nothing is found in either direction, or if nothing is found and no such field is lacking.  Such fields
alone the router accepts; any other difference between the answers of the engines it reports and
counts. -/
theorem differences_found (hleft : left.Comparable) (hright : right.Comparable)
    (tolerance : Float) :
    (left.difference? right tolerance = none ↔ left.AgreesButForNulls right) ∧
    (left.Agrees right ↔
      left.difference? right tolerance = none ∧ right.difference? left tolerance = none) ∧
    (left.Agrees right ↔ left.difference? right tolerance = none ∧ right.ShowsNullsOf left) ∧
    ∀ (σ : Type) (r : Router) (access : EngineAccess σ) (s s' s'' : σ) (request : MetricRequest),
      Router.queryVia access s .rollup request = (.ok left, s') →
      Router.queryVia access s' .partition request = (.ok right, s'') →
      (left.AgreesButForNulls right → r.verify access s request tolerance = (.ok left, r, s'')) ∧
      (¬left.AgreesButForNulls right → ∃ d, left.difference? right tolerance = some d ∧
        r.verify access s request tolerance = (.error (.inconsistent request.schema d),
          { r with inconsistencies := r.inconsistencies + 1 }, s'')) := by
  have hfound : left.difference? right tolerance = none ↔ left.AgreesButForNulls right :=
    difference?_eq_none_iff_agreesButForNulls hleft hright
  have hswapped : right.difference? left tolerance = none ↔ right.AgreesButForNulls left :=
    difference?_eq_none_iff_agreesButForNulls hright hleft
  -- One direction misses the nulls of the left result, and the other one finds them.
  refine ⟨hfound, ?_, ?_, fun σ r access s s' s'' request h h' => ⟨fun hsame => ?_, fun hnot => ?_⟩⟩
  · rw [hfound, hswapped, agrees_iff_both_directions]
  · rw [hfound, agrees_iff_showsNullsOf]
  · rw [Router.verify_eq h h', hfound.2 hsame]
    rfl
  · obtain ⟨d, hd⟩ := Option.ne_none_iff_exists'.1 (mt hfound.1 hnot)
    refine ⟨d, hd, ?_⟩
    rw [Router.verify_eq h h', hd]
    rfl

/-- A result with one group, which shows a field without a value. -/
def nullShown (engine : Engine) : AggregateResult where
  rows := [⟨["S1"], .ofList [("visits", .count 1), ("discount", .null)]⟩]
  engine
  reason := none

/-- The same result without this field. -/
def nullLacking (engine : Engine) : AggregateResult where
  rows := [⟨["S1"], .ofList [("visits", .count 1)]⟩]
  engine
  reason := none

/-- Engines that always give the same answers. -/
def answering (rollup partition : AggregateResult) : EngineAccess Unit where
  isHealthy _ _ := true
  execute s engine _ := (.ok (if engine = .rollup then rollup else partition), s)

theorem comparable_nullShown (engine : Engine) : (nullShown engine).Comparable where
  groups := List.nodup_singleton _
  exact row hrow := by
    obtain rfl := List.mem_singleton.1 hrow
    decide +kernel

theorem comparable_nullLacking (engine : Engine) : (nullLacking engine).Comparable where
  groups := List.nodup_singleton _
  exact row hrow := by
    obtain rfl := List.mem_singleton.1 hrow
    decide +kernel

/-- If the answer of the rollup engine lacks the field, the router reports it. -/
theorem differences_found_nullLacking :
    ¬(nullLacking .rollup).AgreesButForNulls (nullShown .partition) ∧
    (nullLacking .rollup).difference? (nullShown .partition) 0 =
      some (.extraField ["S1"] "discount" .partition) ∧
    Router.verify { config := {} } (answering (nullLacking .rollup) (nullShown .partition)) ()
      { schema := "daily" } 0 =
        (.error (.inconsistent "daily" (.extraField ["S1"] "discount" .partition)),
          { config := {}, inconsistencies := 1 }, ()) := by
  obtain ⟨hfound, -, -, hverify⟩ := differences_found (comparable_nullLacking .rollup)
    (comparable_nullShown .partition) 0
  have hdifference : (nullLacking .rollup).difference? (nullShown .partition) 0 =
      some (.extraField ["S1"] "discount" .partition) := by decide +kernel
  have hnot : ¬(nullLacking .rollup).AgreesButForNulls (nullShown .partition) := fun h => by
    rw [hfound.2 h] at hdifference
    cases hdifference
  obtain ⟨d, hd, hreported⟩ := (hverify Unit { config := {} }
    (answering (nullLacking .rollup) (nullShown .partition)) () () () { schema := "daily" } rfl
    rfl).2 hnot
  obtain rfl := Option.some.inj (hd.symm.trans hdifference)
  exact ⟨hnot, hdifference, hreported⟩

/-- **If the answer of the partition engine lacks it, the router does not.** -/
theorem difference_missed :
    (nullShown .rollup).Comparable ∧ (nullLacking .partition).Comparable ∧
    ¬(nullShown .rollup).Agrees (nullLacking .partition) ∧
    (nullShown .rollup).difference? (nullLacking .partition) 0 = none ∧
    (nullLacking .partition).difference? (nullShown .rollup) 0 =
      some (.extraField ["S1"] "discount" .rollup) ∧
    Router.verify { config := {} } (answering (nullShown .rollup) (nullLacking .partition)) ()
      { schema := "daily" } 0 = (.ok (nullShown .rollup), { config := {} }, ()) := by
  have hdifference : (nullShown .rollup).difference? (nullLacking .partition) 0 = none := by
    decide +kernel
  refine ⟨comparable_nullShown .rollup, comparable_nullLacking .partition, fun h => ?_, hdifference,
    by decide +kernel, ?_⟩
  · have hvalues := h.2 _ List.mem_cons_self _ List.mem_cons_self rfl
    exact absurd hvalues (by decide +kernel)
  · refine (Router.verify_eq rfl rfl).trans ?_
    rw [if_pos rfl, if_neg (by decide), hdifference]
    rfl

end AggregateResult

end RetailReport
