import RetailReport.SortedMap
import Mathlib.Data.List.Nodup

/-!
# Look-ups in maps

Every operation on a `SortedMap` is known by what it does to look-ups, and a `KeySet` by its
members.  The listing of a map strictly ascends, so it has no repetitions, and two sets with the
same members are equal.

## Main results

* `SortedMap.get?_filter`, `SortedMap.get?_mapValues`, `SortedMap.get?_union`: the operations.
* `SortedMap.get?_ofList_of_mem`: the map of a list with distinct keys.
* `SortedMap.forall₂_toList`: maps whose look-ups are related are listed alike.
* `KeySet.mem_ofList`, `KeySet.mem_add`, `KeySet.mem_union`: membership.
-/

namespace RetailReport

variable {κ α β : Type} [LT κ] [KeyOrder κ]

/-- Related look-ups both find nothing, or related values. -/
theorem Option.rel_iff {R : α → β → Prop} {o : Option α} {o' : Option β} :
    Option.Rel R o o' ↔ o = none ∧ o' = none ∨ ∃ v v', o = some v ∧ o' = some v' ∧ R v v' := by
  constructor
  · rintro (⟨h⟩ | _)
    · exact .inr ⟨_, _, rfl, rfl, h⟩
    · exact .inl ⟨rfl, rfl⟩
  · rintro (⟨rfl, rfl⟩ | ⟨v, v', rfl, rfl, h⟩)
    · exact .none
    · exact .some h

/-- Two listings that ascend strictly are the same if they have the same members. -/
theorem KeyOrder.eq_of_ascending {l l' : List κ} (hl : l.Pairwise (· < ·))
    (hl' : l'.Pairwise (· < ·)) (h : ∀ k, k ∈ l ↔ k ∈ l') : l = l' := by
  have hperm : l.Perm l' := (List.perm_ext_iff_of_nodup (hl.imp KeyOrder.ne_of_lt)
    (hl'.imp KeyOrder.ne_of_lt)).2 h
  refine hperm.eq_of_pairwise (fun k _ _ _ hlt hlt' => ?_) hl hl'
  exact absurd (KeyOrder.trans hlt hlt') (KeyOrder.irrefl k)

namespace SortedMap

/-! ### Listings -/

theorem pairwise_keys (m : SortedMap κ α) : m.keys.Pairwise (· < ·) :=
  List.pairwise_map.2 m.ascending

theorem nodup_keys (m : SortedMap κ α) : m.keys.Nodup :=
  m.pairwise_keys.imp KeyOrder.ne_of_lt

theorem mem_keys {m : SortedMap κ α} {k : κ} : k ∈ m.keys ↔ ∃ v, m.get? k = some v := by
  simp only [keys, List.mem_map]
  constructor
  · rintro ⟨⟨k', v⟩, h, rfl⟩
    exact ⟨v, mem_toList.1 h⟩
  · rintro ⟨v, h⟩
    exact ⟨(k, v), mem_toList.2 h, rfl⟩

theorem mem_keys_iff_isSome {m : SortedMap κ α} {k : κ} : k ∈ m.keys ↔ (m.get? k).isSome := by
  rw [mem_keys, Option.isSome_iff_exists]

theorem mem_values {m : SortedMap κ α} {v : α} : v ∈ m.values ↔ ∃ k, m.get? k = some v := by
  simp only [values, List.mem_map]
  constructor
  · rintro ⟨⟨k, v'⟩, h, rfl⟩
    exact ⟨k, mem_toList.1 h⟩
  · rintro ⟨k, h⟩
    exact ⟨(k, v), mem_toList.2 h, rfl⟩

theorem contains_iff {m : SortedMap κ α} {k : κ} : m.contains k = true ↔ k ∈ m.keys :=
  mem_keys_iff_isSome.symm

theorem get?_eq_none_iff {m : SortedMap κ α} {k : κ} : m.get? k = none ↔ k ∉ m.keys := by
  rw [mem_keys_iff_isSome, Option.not_isSome_iff_eq_none]

theorem isEmpty_iff {m : SortedMap κ α} : m.isEmpty = true ↔ ∀ k, m.get? k = none := by
  rw [isEmpty, List.isEmpty_iff]
  constructor
  · intro h k
    rw [get?, h]
    rfl
  · intro h
    refine List.eq_nil_iff_forall_not_mem.2 fun e he => ?_
    have := h e.1
    rw [mem_toList.1 (show (e.1, e.2) ∈ m.toList from he)] at this
    cases this

theorem nodup_toList (m : SortedMap κ α) : m.toList.Nodup :=
  List.Nodup.of_map Prod.fst m.nodup_keys

/-- Maps whose look-ups are related are listed alike: with the same keys, and related values. -/
theorem forall₂_toList {R : α → β → Prop} {m : SortedMap κ α} {m' : SortedMap κ β}
    (h : ∀ k, Option.Rel R (m.get? k) (m'.get? k)) :
    m.toList.Forall₂ (fun e e' => e.1 = e'.1 ∧ R e.2 e'.2) m'.toList := by
  have hkeys : m.keys = m'.keys := by
    refine KeyOrder.eq_of_ascending m.pairwise_keys m'.pairwise_keys fun k => ?_
    rw [mem_keys_iff_isSome, mem_keys_iff_isSome]
    rcases Option.rel_iff.1 (h k) with ⟨hget, hget'⟩ | ⟨v, v', hget, hget', -⟩
    · rw [hget, hget']
      rfl
    · rw [hget, hget']
      rfl
  refine List.forall₂_iff_get.2 ⟨by simpa [keys] using congrArg List.length hkeys,
    fun i hi hi' => ?_⟩
  have hkey : (m.toList.get ⟨i, hi⟩).1 = (m'.toList.get ⟨i, hi'⟩).1 := by
    simpa [keys, hi, hi'] using congrArg (·[i]?) hkeys
  refine ⟨hkey, ?_⟩
  have hrel := h (m.toList.get ⟨i, hi⟩).1
  rw [mem_toList.1 (List.get_mem m.toList ⟨i, hi⟩), hkey,
    mem_toList.1 (List.get_mem m'.toList ⟨i, hi'⟩)] at hrel
  cases hrel with
  | some hrel => exact hrel

/-! ### Operations -/

theorem getD_insert [DecidableEq κ] (m : SortedMap κ α) (k k' : κ) (v fallback : α) :
    (m.insert k v).getD k' fallback = if k' = k then v else m.getD k' fallback := by
  rw [getD, get?_insert]
  split <;> rfl

/-- Putting an entry in lists it beside the entries at other keys. -/
theorem toList_insert_perm (m : SortedMap κ α) (k : κ) (v : α) :
    (m.insert k v).toList.Perm ((k, v) :: (m.erase k).toList) := by
  classical
  have hn : (k, v) ∉ (m.erase k).toList := by
    rw [mem_toList, get?_erase, if_pos rfl]
    exact Option.some_ne_none v ∘ Eq.symm
  refine (List.perm_ext_iff_of_nodup (nodup_toList _)
    (List.nodup_cons.2 ⟨hn, nodup_toList _⟩)).2 fun e => ?_
  obtain ⟨k', v'⟩ := e
  rw [List.mem_cons, mem_toList, mem_toList, get?_insert, get?_erase]
  by_cases h : k' = k
  · subst h
    simp [eq_comm]
  · simp [h]

/-- Putting an entry in that is there changes nothing. -/
theorem insert_of_get?_eq_some {m : SortedMap κ α} {k : κ} {v : α} (h : m.get? k = some v) :
    m.insert k v = m := by
  classical
  refine ext_get? fun k' => ?_
  rw [get?_insert]
  split
  · next hk => rw [hk, h]
  · rfl

/-- An entry is listed beside those that its removal leaves. -/
theorem toList_erase_perm {m : SortedMap κ α} {k : κ} {v : α} (h : m.get? k = some v) :
    m.toList.Perm ((k, v) :: (m.erase k).toList) := by
  exact (congrArg (·.toList) (insert_of_get?_eq_some h)) ▸ m.toList_insert_perm k v

theorem erase_of_get?_eq_none {m : SortedMap κ α} {k : κ} (h : m.get? k = none) :
    m.erase k = m := by
  classical
  refine ext_get? fun k' => ?_
  rw [get?_erase]
  split
  · next hk => rw [hk, h]
  · rfl

theorem get?_filter (m : SortedMap κ α) (p : κ → α → Bool) (k : κ) :
    (m.filter p).get? k = (m.get? k).filter (p k) := by
  refine Option.ext fun v => ?_
  rw [← mem_toList, Option.filter_eq_some_iff, ← mem_toList]
  exact List.mem_filter

theorem get?_mapValues (m : SortedMap κ α) (f : κ → α → β) (k : κ) :
    (m.mapValues f).get? k = (m.get? k).map (f k) := by
  refine Option.ext fun v => ?_
  rw [← mem_toList, Option.map_eq_some_iff]
  simp only [mapValues, List.mem_map, Prod.mk.injEq, Prod.exists]
  constructor
  · rintro ⟨k', a, h, rfl, rfl⟩
    exact ⟨a, mem_toList.1 h, rfl⟩
  · rintro ⟨a, h, rfl⟩
    exact ⟨k, a, mem_toList.2 h, rfl, rfl⟩

/-- Entries that are put in one by one leave the other keys alone. -/
theorem get?_foldl_insert_of_notMem (l : List (κ × α)) (m : SortedMap κ α) {k : κ}
    (h : k ∉ l.map Prod.fst) :
    (l.foldl (fun m e => m.insert e.1 e.2) m).get? k = m.get? k := by
  classical
  induction l generalizing m with
  | nil => rfl
  | cons e l ih =>
    simp only [List.map_cons, List.mem_cons, not_or] at h
    rw [List.foldl_cons, ih _ h.2, get?_insert, if_neg h.1]

/-- Of entries with distinct keys that are put in one by one, each one stays. -/
theorem get?_foldl_insert_of_mem {l : List (κ × α)} (hl : (l.map Prod.fst).Nodup)
    (m : SortedMap κ α) {k : κ} {v : α} (h : (k, v) ∈ l) :
    (l.foldl (fun m e => m.insert e.1 e.2) m).get? k = some v := by
  induction l generalizing m with
  | nil => cases h
  | cons e l ih =>
    rw [List.map_cons, List.nodup_cons] at hl
    rw [List.foldl_cons]
    rcases List.mem_cons.1 h with rfl | h
    · rw [get?_foldl_insert_of_notMem _ _ hl.1, get?_insert_self]
    · exact ih hl.2 _ h

theorem get?_ofList_of_mem {l : List (κ × α)} (hl : (l.map Prod.fst).Nodup) {k : κ} {v : α}
    (h : (k, v) ∈ l) : (ofList l).get? k = some v :=
  get?_foldl_insert_of_mem hl _ h

theorem get?_ofList_of_notMem {l : List (κ × α)} {k : κ} (h : k ∉ l.map Prod.fst) :
    (ofList l).get? k = none :=
  get?_foldl_insert_of_notMem l _ h

/-- A map is that of its own entries. -/
theorem ofList_toList (m : SortedMap κ α) : ofList m.toList = m := by
  refine ext_get? fun k => ?_
  cases hget : m.get? k with
  | none => exact get?_ofList_of_notMem (get?_eq_none_iff.1 hget)
  | some v => exact get?_ofList_of_mem m.nodup_keys (mem_toList.2 hget)

theorem mem_keys_foldl_insert (l : List (κ × α)) (m : SortedMap κ α) {k : κ} :
    k ∈ (l.foldl (fun m e => m.insert e.1 e.2) m).keys ↔ k ∈ l.map Prod.fst ∨ k ∈ m.keys := by
  classical
  induction l generalizing m with
  | nil => simp
  | cons e l ih =>
    rw [List.foldl_cons, ih, List.map_cons, List.mem_cons, mem_keys_iff_isSome, get?_insert,
      mem_keys_iff_isSome]
    by_cases h : k = e.1
    · simp [h]
    · simp [h]

theorem mem_keys_ofList {l : List (κ × α)} {k : κ} : k ∈ (ofList l).keys ↔ k ∈ l.map Prod.fst := by
  rw [ofList, mem_keys_foldl_insert]
  exact or_iff_left List.not_mem_nil

/-- In a union the second map comes first. -/
theorem get?_union (m n : SortedMap κ α) (k : κ) :
    (m.union n).get? k = (n.get? k).or (m.get? k) := by
  cases h : n.get? k with
  | some v =>
    exact get?_foldl_insert_of_mem (nodup_keys n) m (mem_toList.2 h)
  | none =>
    exact get?_foldl_insert_of_notMem _ m (get?_eq_none_iff.1 h)

theorem mem_keys_union {m n : SortedMap κ α} {k : κ} :
    k ∈ (m.union n).keys ↔ k ∈ m.keys ∨ k ∈ n.keys := by
  rw [union, mem_keys_foldl_insert, or_comm]
  rfl

theorem mem_keys_insert {m : SortedMap κ α} {k k' : κ} {v : α} :
    k' ∈ (m.insert k v).keys ↔ k' = k ∨ k' ∈ m.keys := by
  classical
  rw [mem_keys_iff_isSome, get?_insert, mem_keys_iff_isSome]
  by_cases h : k' = k
  · simp [h]
  · simp [h]

theorem mem_keys_erase {m : SortedMap κ α} {k k' : κ} :
    k' ∈ (m.erase k).keys ↔ k' ≠ k ∧ k' ∈ m.keys := by
  classical
  rw [mem_keys_iff_isSome, get?_erase, mem_keys_iff_isSome]
  by_cases h : k' = k
  · simp [h]
  · simp [h]

/-- The look-up of one key can be made anything, and the others are left as they are. -/
theorem exists_get?_eq [DecidableEq κ] (m : SortedMap κ α) (k : κ) (v? : Option α) :
    ∃ m' : SortedMap κ α, ∀ k', m'.get? k' = if k' = k then v? else m.get? k' := by
  cases v? with
  | none => exact ⟨m.erase k, get?_erase m k⟩
  | some v => exact ⟨m.insert k v, fun k' => get?_insert m k k' v⟩

end SortedMap

/-! ### Sets -/

namespace KeySet

open SortedMap

theorem get?_eq_some_iff {s : KeySet κ} {k : κ} {u : Unit} : s.get? k = some u ↔ k ∈ s.members :=
  ⟨fun h => mem_keys.2 ⟨u, h⟩, fun h => (mem_keys.1 h).choose_spec⟩

theorem contains_iff {s : KeySet κ} {k : κ} : s.contains k = true ↔ k ∈ s.members :=
  SortedMap.contains_iff

/-- **Sets are told apart by their members.** -/
theorem ext_mem {s t : KeySet κ} (h : ∀ k, k ∈ s.members ↔ k ∈ t.members) : s = t := by
  refine ext_get? fun k => Option.ext fun u => ?_
  rw [get?_eq_some_iff, get?_eq_some_iff, h]

theorem nodup_members (s : KeySet κ) : s.members.Nodup := nodup_keys s

@[simp] theorem mem_ofList {l : List κ} {k : κ} : k ∈ (ofList l).members ↔ k ∈ l := by
  rw [ofList, members, mem_keys_ofList, List.map_map]
  simp [Function.comp_def]

@[simp] theorem mem_add {s : KeySet κ} {k k' : κ} :
    k' ∈ (s.add k).members ↔ k' = k ∨ k' ∈ s.members := mem_keys_insert

@[simp] theorem mem_union {s t : KeySet κ} {k : κ} :
    k ∈ members (s.union t) ↔ k ∈ s.members ∨ k ∈ t.members := mem_keys_union

@[simp] theorem mem_filter {s : KeySet κ} {p : κ → Unit → Bool} {k : κ} :
    k ∈ members (s.filter p) ↔ k ∈ s.members ∧ p k () = true := by
  rw [members, mem_keys_iff_isSome, get?_filter]
  change _ ↔ k ∈ SortedMap.keys s ∧ _
  rw [mem_keys_iff_isSome]
  cases s.get? k <;> simp

theorem isEmpty_iff {s : KeySet κ} : s.isEmpty = true ↔ ∀ k, k ∉ s.members := by
  rw [SortedMap.isEmpty_iff]
  exact forall_congr' fun _ => get?_eq_none_iff

/-- One more key behind a list is one more member. -/
theorem ofList_concat (l : List κ) (k : κ) : ofList (l ++ [k]) = (ofList l).add k := by
  rw [ofList, List.map_append]
  exact List.foldl_append

/-- The keys of a map are those of a set with the same members. -/
theorem keys_eq_members {m : SortedMap κ α} {s : KeySet κ} (h : ∀ k, k ∈ m.keys ↔ k ∈ s.members) :
    m.keys = s.members := by
  have e : m.mapValues (fun _ _ => ()) = s := ext_mem fun k => by
    rw [← h, members, SortedMap.mem_keys, SortedMap.mem_keys]
    simp [get?_mapValues]
  rw [← e]
  simp [members, keys, mapValues, Function.comp_def]

end KeySet

end RetailReport
