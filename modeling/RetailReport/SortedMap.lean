import RetailReport.KeyOrder

/-!
# Maps that list their entries in ascending order of the key

`SortedMap κ α` holds at most one value for each key and is its own listing: the entries stand in a
list whose keys strictly ascend, and that they do is part of the type.  So two maps that answer
every look-up alike are equal, and whatever is printed from one comes out in key order.

## Main definitions

* `SortedMap` and its operations: `get?`, `insert`, `erase`, `filter`, `mapValues`, `ofList`, …
* `KeySet κ`: a set of keys, as a map to `Unit`.

## Main results

* `SortedMap.get?_insert`, `SortedMap.get?_erase`: the operations as seen by look-ups.
* `SortedMap.ext_get?`: maps with the same look-ups are equal.
-/

namespace RetailReport

variable {κ α β : Type} [LT κ] [KeyOrder κ]

/-! ### Entries in a list -/

namespace Entries

/-- The keys of a list of entries strictly ascend. -/
def Ascending (l : List (κ × α)) : Prop := l.Pairwise fun p q => p.1 < q.1

/-- The value at a key of an ascending list. -/
def get? (k : κ) : List (κ × α) → Option α
  | [] => none
  | (k', v) :: rest => if k < k' then none else if k' < k then get? k rest else some v

/-- Puts an entry in its place; an entry with the same key gives way. -/
def insert (k : κ) (v : α) : List (κ × α) → List (κ × α)
  | [] => [(k, v)]
  | (k', v') :: rest =>
    if k < k' then (k, v) :: (k', v') :: rest
    else if k' < k then (k', v') :: insert k v rest
    else (k, v) :: rest

/-- Takes the entry of a key away. -/
def erase (k : κ) : List (κ × α) → List (κ × α)
  | [] => []
  | (k', v') :: rest =>
    if k < k' then (k', v') :: rest
    else if k' < k then (k', v') :: erase k rest
    else rest

theorem mem_insert {k : κ} {v : α} {l : List (κ × α)} {p : κ × α} (h : p ∈ insert k v l) :
    p = (k, v) ∨ p ∈ l := by
  induction l with
  | nil => exact .inl (List.mem_singleton.1 h)
  | cons q rest ih =>
    simp only [insert] at h
    split at h
    · exact List.mem_cons.1 h
    · split at h
      · rcases List.mem_cons.1 h with rfl | h
        · exact .inr List.mem_cons_self
        · exact (ih h).imp_right (List.mem_cons_of_mem _)
      · rcases List.mem_cons.1 h with rfl | h
        · exact .inl rfl
        · exact .inr (List.mem_cons_of_mem _ h)

theorem mem_of_mem_erase {k : κ} {l : List (κ × α)} {p : κ × α} (h : p ∈ erase k l) : p ∈ l := by
  induction l with
  | nil => exact h
  | cons q rest ih =>
    simp only [erase] at h
    split at h
    · exact h
    · split at h
      · rcases List.mem_cons.1 h with rfl | h
        · exact List.mem_cons_self
        · exact List.mem_cons_of_mem _ (ih h)
      · exact List.mem_cons_of_mem _ h

theorem Ascending.insert {l : List (κ × α)} (h : Ascending l) (k : κ) (v : α) :
    Ascending (insert k v l) := by
  induction l with
  | nil => exact List.pairwise_singleton _ _
  | cons q rest ih =>
    have hq := List.pairwise_cons.1 h
    simp only [Entries.insert]
    split
    · next hk =>
      refine List.pairwise_cons.2 ⟨fun p hp => ?_, h⟩
      rcases List.mem_cons.1 hp with rfl | hp
      · exact hk
      · exact KeyOrder.trans hk (hq.1 p hp)
    · next hk =>
      split
      · next hk' =>
        refine List.pairwise_cons.2 ⟨fun p hp => ?_, ih hq.2⟩
        rcases mem_insert hp with rfl | hp
        · exact hk'
        · exact hq.1 p hp
      · next hk' =>
        have e : k = q.1 := KeyOrder.eq_of_not_lt hk hk'
        exact List.pairwise_cons.2 ⟨fun p hp => e ▸ hq.1 p hp, hq.2⟩

theorem Ascending.erase {l : List (κ × α)} (h : Ascending l) (k : κ) : Ascending (erase k l) := by
  induction l with
  | nil => exact h
  | cons q rest ih =>
    have hq := List.pairwise_cons.1 h
    simp only [Entries.erase]
    split
    · exact h
    · split
      · exact List.pairwise_cons.2 ⟨fun p hp => hq.1 p (mem_of_mem_erase hp), ih hq.2⟩
      · exact hq.2

theorem get?_eq_none_of_forall_lt {k : κ} {l : List (κ × α)} (h : ∀ p ∈ l, k < p.1) :
    get? k l = none := by
  cases l with
  | nil => rfl
  | cons q rest => simp [get?, h q List.mem_cons_self]

theorem get?_insert [DecidableEq κ] {l : List (κ × α)} (h : Ascending l) (k k' : κ) (v : α) :
    get? k' (insert k v l) = if k' = k then some v else get? k' l := by
  induction l with
  | nil =>
    by_cases e : k' = k
    · subst e; simp [Entries.insert, get?, KeyOrder.irrefl]
    · by_cases l : k' < k
      · simp [Entries.insert, get?, l, e]
      · have l' : k < k' := Classical.byContradiction fun n => e (KeyOrder.eq_of_not_lt l n)
        simp [Entries.insert, get?, l, l', e]
  | cons q rest ih =>
    have hq := List.pairwise_cons.1 h
    obtain ⟨k₀, v₀⟩ := q
    have ih := ih hq.2
    simp only [Entries.insert]
    -- The new key comes before the first one, after it, or in its place.
    by_cases h₁ : k < k₀
    · simp only [h₁, if_true]
      by_cases e : k' = k
      · subst e; simp [get?, KeyOrder.irrefl]
      · by_cases l : k' < k
        · simp [get?, l, e, KeyOrder.trans l h₁]
        · have l' : k < k' := Classical.byContradiction fun n => e (KeyOrder.eq_of_not_lt l n)
          simp [get?, l, l', e]
    · by_cases h₂ : k₀ < k
      · simp only [h₁, h₂, if_true, if_false]
        by_cases e : k' = k
        · subst e
          rw [if_pos rfl] at ih ⊢
          simp [get?, h₁, h₂, ih]
        · rw [if_neg e] at ih ⊢
          simp [get?, ih]
      · have e₀ : k = k₀ := KeyOrder.eq_of_not_lt h₁ h₂
        subst e₀
        simp only [KeyOrder.irrefl, if_false]
        by_cases e : k' = k
        · subst e; simp [get?, KeyOrder.irrefl]
        · by_cases l : k' < k
          · simp [get?, l, e]
          · have l' : k < k' := Classical.byContradiction fun n => e (KeyOrder.eq_of_not_lt l n)
            simp [get?, l, l', e]

theorem get?_erase [DecidableEq κ] {l : List (κ × α)} (h : Ascending l) (k k' : κ) :
    get? k' (erase k l) = if k' = k then none else get? k' l := by
  induction l with
  | nil => simp [Entries.erase, get?]
  | cons q rest ih =>
    have hq := List.pairwise_cons.1 h
    obtain ⟨k₀, v₀⟩ := q
    have ih := ih hq.2
    simp only [Entries.erase]
    by_cases h₁ : k < k₀
    · by_cases e : k' = k
      · subst e; simp [get?, h₁]
      · simp [h₁, e]
    · by_cases h₂ : k₀ < k
      · simp only [h₁, h₂, if_true, if_false]
        by_cases e : k' = k
        · subst e
          rw [if_pos rfl] at ih ⊢
          simp [get?, h₁, h₂, ih]
        · rw [if_neg e] at ih ⊢
          simp [get?, ih]
      · have e₀ : k = k₀ := KeyOrder.eq_of_not_lt h₁ h₂
        subst e₀
        simp only [KeyOrder.irrefl, if_false]
        by_cases e : k' = k
        · subst e
          simp only [if_true]
          exact get?_eq_none_of_forall_lt hq.1
        · by_cases l : k' < k
          · simp only [get?, l, if_true, e, if_false]
            exact get?_eq_none_of_forall_lt fun p hp => KeyOrder.trans l (hq.1 p hp)
          · have l' : k < k' := Classical.byContradiction fun n => e (KeyOrder.eq_of_not_lt l n)
            simp [get?, l, l', e]

theorem mem_of_get? {k : κ} {v : α} {l : List (κ × α)} (h : get? k l = some v) : (k, v) ∈ l := by
  induction l with
  | nil => simp [get?] at h
  | cons q rest ih =>
    simp only [get?] at h
    split at h
    · simp at h
    · next h₁ =>
      split at h
      · exact List.mem_cons_of_mem _ (ih h)
      · next h₂ =>
        have e : k = q.1 := KeyOrder.eq_of_not_lt h₁ h₂
        simp only [Option.some.injEq] at h
        subst e; subst h
        exact List.mem_cons_self

theorem get?_of_mem {k : κ} {v : α} {l : List (κ × α)} (hl : Ascending l) (h : (k, v) ∈ l) :
    get? k l = some v := by
  induction l with
  | nil => cases h
  | cons q rest ih =>
    have hq := List.pairwise_cons.1 hl
    rcases List.mem_cons.1 h with rfl | h
    · simp [get?, KeyOrder.irrefl]
    · have l : q.1 < k := hq.1 _ h
      simp [get?, l, KeyOrder.asymm l, ih hq.2 h]

theorem eq_of_get?_eq {l l' : List (κ × α)} (h : Ascending l) (h' : Ascending l')
    (e : ∀ k, get? k l = get? k l') : l = l' := by
  induction l generalizing l' with
  | nil =>
    cases l' with
    | nil => rfl
    | cons q rest =>
      have := e q.1
      simp [get?, KeyOrder.irrefl] at this
  | cons p rest ih =>
    have hp := List.pairwise_cons.1 h
    cases l' with
    | nil =>
      have := e p.1
      simp [get?, KeyOrder.irrefl] at this
    | cons q rest' =>
      have hq := List.pairwise_cons.1 h'
      have ep : (p.1, p.2) ∈ q :: rest' := mem_of_get? (by
        rw [← e]; exact get?_of_mem h List.mem_cons_self)
      have eq : (q.1, q.2) ∈ p :: rest := mem_of_get? (by
        rw [e]; exact get?_of_mem h' List.mem_cons_self)
      -- Each first entry is found in the other list, and neither can come before the other.
      have epq : p = q := by
        rcases List.mem_cons.1 ep with e₁ | m₁
        · exact e₁
        · rcases List.mem_cons.1 eq with e₂ | m₂
          · exact e₂.symm
          · exact absurd (hp.1 _ m₂) (KeyOrder.asymm (hq.1 _ m₁))
      subst epq
      -- Below the first key, neither of the two rests holds anything.
      refine congrArg _ (ih hp.2 hq.2 fun k => ?_)
      by_cases l : p.1 < k
      · have := e k
        simpa [get?, l, KeyOrder.asymm l] using this
      · have below : ∀ r : List (κ × α), (∀ x ∈ r, p.1 < x.1) → get? k r = none := by
          intro r hr
          refine get?_eq_none_of_forall_lt fun x hx => ?_
          by_cases l' : k < p.1
          · exact KeyOrder.trans l' (hr x hx)
          · exact KeyOrder.eq_of_not_lt l l' ▸ hr x hx
        rw [below rest hp.1, below rest' hq.1]

omit [KeyOrder κ] in
theorem Ascending.filter {l : List (κ × α)} (h : Ascending l) (p : κ × α → Bool) :
    Ascending (l.filter p) :=
  List.Pairwise.sublist List.filter_sublist h

omit [KeyOrder κ] in
theorem Ascending.mapValues {l : List (κ × α)} (h : Ascending l) (f : κ → α → β) :
    Ascending (l.map fun p => (p.1, f p.1 p.2)) :=
  List.pairwise_map.2 h

end Entries

/-! ### The type -/

/-- A finite map that lists its entries in strictly ascending order of the key. -/
structure SortedMap (κ α : Type) [LT κ] [KeyOrder κ] where
  /-- The entries, in ascending order of the key. -/
  toList : List (κ × α)
  /-- The keys strictly ascend. -/
  ascending : Entries.Ascending toList

namespace SortedMap

theorem ext_toList {m n : SortedMap κ α} (h : m.toList = n.toList) : m = n := by
  cases m; cases n; cases h; rfl

instance [DecidableEq κ] [DecidableEq α] : DecidableEq (SortedMap κ α) := fun m n =>
  decidable_of_iff (m.toList = n.toList) ⟨ext_toList, fun h => h ▸ rfl⟩

instance [Repr κ] [Repr α] : Repr (SortedMap κ α) := ⟨fun m => reprPrec m.toList⟩

/-- The map without entries. -/
def empty : SortedMap κ α := ⟨[], .nil⟩

instance : EmptyCollection (SortedMap κ α) := ⟨empty⟩
instance : Inhabited (SortedMap κ α) := ⟨empty⟩

/-- The value at `k`, if there is one. -/
def get? (m : SortedMap κ α) (k : κ) : Option α := Entries.get? k m.toList

/-- The value at `k`, or `fallback`. -/
def getD (m : SortedMap κ α) (k : κ) (fallback : α) : α := (m.get? k).getD fallback

/-- Whether `k` has a value. -/
def contains (m : SortedMap κ α) (k : κ) : Bool := (m.get? k).isSome

/-- Sets the value at `k`. -/
def insert (m : SortedMap κ α) (k : κ) (v : α) : SortedMap κ α :=
  ⟨Entries.insert k v m.toList, m.ascending.insert k v⟩

/-- Takes `k` and its value away. -/
def erase (m : SortedMap κ α) (k : κ) : SortedMap κ α :=
  ⟨Entries.erase k m.toList, m.ascending.erase k⟩

/-- The entries that `p` accepts. -/
def filter (m : SortedMap κ α) (p : κ → α → Bool) : SortedMap κ α :=
  ⟨m.toList.filter fun e => p e.1 e.2, m.ascending.filter _⟩

/-- The same keys with new values. -/
def mapValues (m : SortedMap κ α) (f : κ → α → β) : SortedMap κ β :=
  ⟨m.toList.map fun e => (e.1, f e.1 e.2), m.ascending.mapValues f⟩

/-- The map of a list of entries; of several entries for one key the last counts. -/
def ofList (l : List (κ × α)) : SortedMap κ α := l.foldl (fun m e => m.insert e.1 e.2) empty

/-- The keys, ascending. -/
def keys (m : SortedMap κ α) : List κ := m.toList.map Prod.fst

/-- The values, in order of their keys. -/
def values (m : SortedMap κ α) : List α := m.toList.map Prod.snd

/-- How many keys have a value. -/
def size (m : SortedMap κ α) : Nat := m.toList.length

/-- Whether no key has a value. -/
def isEmpty (m : SortedMap κ α) : Bool := m.toList.isEmpty

/-- All entries of `n`, and those of `m` at the other keys. -/
def union (m n : SortedMap κ α) : SortedMap κ α := n.toList.foldl (fun m e => m.insert e.1 e.2) m

@[simp] theorem toList_empty : (empty : SortedMap κ α).toList = [] := rfl

@[simp] theorem get?_empty (k : κ) : (empty : SortedMap κ α).get? k = none := rfl

theorem get?_insert [DecidableEq κ] (m : SortedMap κ α) (k k' : κ) (v : α) :
    (m.insert k v).get? k' = if k' = k then some v else m.get? k' :=
  Entries.get?_insert m.ascending k k' v

theorem get?_erase [DecidableEq κ] (m : SortedMap κ α) (k k' : κ) :
    (m.erase k).get? k' = if k' = k then none else m.get? k' :=
  Entries.get?_erase m.ascending k k'

@[simp] theorem get?_insert_self (m : SortedMap κ α) (k : κ) (v : α) :
    (m.insert k v).get? k = some v := by
  let : DecidableEq κ := KeyOrder.decEq
  rw [get?_insert, if_pos rfl]

/-- An entry is listed exactly when the look-up finds it. -/
theorem mem_toList {m : SortedMap κ α} {k : κ} {v : α} : (k, v) ∈ m.toList ↔ m.get? k = some v :=
  ⟨Entries.get?_of_mem m.ascending, Entries.mem_of_get?⟩

/-- **Maps are told apart by their look-ups.** -/
theorem ext_get? {m n : SortedMap κ α} (h : ∀ k, m.get? k = n.get? k) : m = n :=
  ext_toList (Entries.eq_of_get?_eq m.ascending n.ascending h)

end SortedMap

/-! ### Sets of keys -/

/-- A finite set that lists its members in ascending order. -/
abbrev KeySet (κ : Type) [LT κ] [KeyOrder κ] := SortedMap κ Unit

namespace KeySet

/-- The set of the members of a list. -/
def ofList (l : List κ) : KeySet κ := SortedMap.ofList (l.map fun k => (k, ()))

/-- The set with one more member. -/
def add (s : KeySet κ) (k : κ) : KeySet κ := s.insert k ()

/-- The members, ascending. -/
def members (s : KeySet κ) : List κ := s.keys

end KeySet

end RetailReport
