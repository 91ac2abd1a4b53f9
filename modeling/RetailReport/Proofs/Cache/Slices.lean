import RetailReport.Proofs.Cache.Epochs
import RetailReport.Proofs.Outcomes
import RetailReport.Query.Answer

/-!
# Slices by way of the cache

The rollup engine reads slices through its cache, under their texts.  As long as the filter knows the
slices that are stored, every entry is what the store has for its slice, and no two of the slices have
the same text, a slice comes out of the cache as it is stored, and reading it keeps the cache that way.

The text of a slice does not tell where the name of the rollup ends.  Within one rollup it determines
the scope all the same; among several it determines the slice exactly if no name with a slash behind
it begins another name.

## Main definitions

* `SliceId.Apart`: no two of some slices have the same text.
* `SliceId.Unambiguous`: no name with a slash behind it begins another.
* `Cache.Shows`: the cache answers for some slices as the store does.
* `Cache.Knows`, `Cache.Faithful`: the same for the slices of one rollup.
* `RollupEngine.slicesDirectly`: slices without the cache.

## Main results

* `SliceId.apart_iff`: which names keep all slices apart.
* `RollupEngine.slice_eq`: one slice.
* `RollupEngine.slices_eq_directly`, `RollupEngine.slices_eq`: several slices.
-/

namespace RetailReport

/-! ### The texts of slices -/

namespace SliceId

/-- No two of some slices have the same text. -/
def Apart (A : SliceId → Prop) : Prop := ∀ id, A id → ∀ id', A id' → id.key = id'.key → id = id'

/-- No name with a slash behind it begins another. -/
def Unambiguous (names : List String) : Prop :=
  ∀ a ∈ names, ∀ b ∈ names, ¬ a.toList ++ ['/'] <+: b.toList

instance (names : List String) : Decidable (Unambiguous names) :=
  inferInstanceAs (Decidable (∀ a ∈ names, ∀ b ∈ names, ¬ a.toList ++ ['/'] <+: b.toList))

theorem toList_key (id : SliceId) : id.key.toList = id.schema.toList ++ '/' :: id.scope.toList := by
  rw [key, String.toList_append, String.toList_append, List.append_assoc]
  rfl

/-- Two texts are the same only if the slices are, or one name begins the other. -/
theorem eq_or_prefix_of_key_eq {id id' : SliceId} (h : id.key = id'.key) :
    id = id' ∨ id.schema.toList ++ ['/'] <+: id'.schema.toList ∨
      id'.schema.toList ++ ['/'] <+: id.schema.toList := by
  have hlist := congrArg String.toList h
  rw [toList_key, toList_key, List.append_eq_append_iff] at hlist
  rcases hlist with ⟨more, hname, hrest⟩ | ⟨more, hname, hrest⟩
  · cases more with
    | nil =>
      refine .inl (congrArg₂ SliceId.mk ?_ ?_)
      · exact (String.toList_inj.1 (hname.trans (List.append_nil _))).symm
      · exact String.toList_inj.1 (List.cons.inj hrest).2
    | cons c more =>
      obtain rfl := (List.cons.inj hrest).1
      exact .inr (.inl ⟨more, by rw [hname, List.append_assoc]; rfl⟩)
  · cases more with
    | nil =>
      refine .inl (congrArg₂ SliceId.mk ?_ ?_)
      · exact String.toList_inj.1 (hname.trans (List.append_nil _))
      · exact (String.toList_inj.1 (List.cons.inj hrest).2).symm
    | cons c more =>
      obtain rfl := (List.cons.inj hrest).1
      exact .inr (.inr ⟨more, by rw [hname, List.append_assoc]; rfl⟩)

/-- Within a rollup, the text of a slice determines its scope. -/
theorem apart_schema (schema : String) : Apart fun id => id.schema = schema := by
  intro id hid id' hid' hkey
  have hself (l : List Char) : ¬ l ++ ['/'] <+: l := by
    intro h
    have := h.length_le
    rw [List.length_append] at this
    exact Nat.not_succ_le_self _ this
  rcases eq_or_prefix_of_key_eq hkey with heq | hprefix | hprefix
  · exact heq
  · rw [hid, hid'] at hprefix
    exact absurd hprefix (hself _)
  · rw [hid, hid'] at hprefix
    exact absurd hprefix (hself _)

/-- **All slices of some rollups have different texts** exactly if no name with a slash behind it
begins another. -/
theorem apart_iff {names : List String} : (Apart fun id => id.schema ∈ names) ↔ Unambiguous names := by
  constructor
  · rintro h a ha b hb ⟨more, hmore⟩
    -- The rest of the longer name can as well be the beginning of a scope.
    have hname : b = a ++ "/" ++ String.ofList more := by
      apply String.toList_inj.1
      simp only [String.toList_append, String.toList_ofList]
      exact hmore.symm
    have hkey : SliceId.key ⟨b, ""⟩ = SliceId.key ⟨a, String.ofList more ++ "/" ++ ""⟩ := by
      rw [key, key, hname]
      simp only [String.append_assoc]
    have hsame := congrArg (fun id : SliceId => id.schema.toList.length)
      (h ⟨b, ""⟩ hb ⟨a, String.ofList more ++ "/" ++ ""⟩ ha hkey)
    dsimp only at hsame
    rw [← hmore, List.length_append, List.length_append, List.length_singleton] at hsame
    omega
  · intro h id hid id' hid' hkey
    rcases eq_or_prefix_of_key_eq hkey with heq | hprefix | hprefix
    · exact heq
    · exact absurd hprefix (h _ hid _ hid')
    · exact absurd hprefix (h _ hid' _ hid)

end SliceId

/-! ### What a cache answers -/

namespace Cache

/-- The filter knows all slices of a rollup that are stored. -/
def Knows (c : SliceCache) (store : RollupStore) (schema : String) : Prop :=
  c.config.filterEnabled = true → ∀ scope, (store.get? ⟨schema, scope⟩).isSome →
    c.filter.contains (SliceId.key ⟨schema, scope⟩) = true

/-- **The cache answers for a rollup as the store does.** -/
structure Faithful (c : SliceCache) (store : RollupStore) (schema : String) : Prop where
  /-- The filter knows what is stored. -/
  knows : c.Knows store schema
  /-- The entries are what is stored. -/
  entries : ∀ scope e, c.entries.get? (SliceId.key ⟨schema, scope⟩) = some e →
    e.value = store.get? ⟨schema, scope⟩

/-- **The cache answers for some slices as the store does.** -/
structure Shows (c : SliceCache) (store : RollupStore) (A : SliceId → Prop) : Prop where
  /-- The filter knows what is stored. -/
  knows : c.config.filterEnabled = true → ∀ id, A id → (store.get? id).isSome →
    c.filter.contains id.key = true
  /-- The entries are what is stored. -/
  entries : ∀ id, A id → ∀ e, c.entries.get? id.key = some e → e.value = store.get? id

variable {c : SliceCache} {store : RollupStore} {schema : String} {A : SliceId → Prop}

/-- A cache without entries is faithful if its filter knows what is stored. -/
theorem faithful_of_empty (hentries : c.entries = .empty) (hknows : c.Knows store schema) :
    c.Faithful store schema where
  knows := hknows
  entries scope e he := by
    rw [hentries] at he
    cases he

theorem Faithful.shows (hc : c.Faithful store schema) :
    c.Shows store fun id => id.schema = schema where
  knows := by
    rintro henabled ⟨_, scope⟩ rfl hsome
    exact hc.knows henabled scope hsome
  entries := by
    rintro ⟨_, scope⟩ rfl e he
    exact hc.entries scope e he

/-- What happens in the journal, or to the loads, does not matter. -/
theorem Shows.congr {c' : SliceCache} (hc : c.Shows store A) (hconfig : c'.config = c.config)
    (hfilter : c'.filter = c.filter) (hentries : c'.entries = c.entries) : c'.Shows store A where
  knows := by
    rw [hconfig, hfilter]
    exact hc.knows
  entries := by
    rw [hentries]
    exact hc.entries

theorem Shows.record (hc : c.Shows store A) (e : CacheEvent (List RollupRow)) :
    (c.record e).Shows store A := hc.congr rfl rfl rfl

/-- What is stored for a slice can be entered: no other slice is looked up under its text. -/
theorem Shows.enter (hA : SliceId.Apart A) (hc : c.Shows store A) {id : SliceId} (hid : A id)
    (epoch : Nat × Nat) (ttl : Nat) : (c.store id.key epoch ttl (store.get? id)).Shows store A := by
  unfold Cache.store
  split
  · refine ⟨hc.knows, fun id' hid' e he => ?_⟩
    change (c.entries.insert _ _).get? _ = some e at he
    rw [SortedMap.get?_insert] at he
    split at he
    · next hkey =>
      rw [← Option.some.inj he, hA id' hid' id hid hkey]
    · exact hc.entries id' hid' e he
  · exact hc

/-- What is known of a slice is what is stored for it, even when it is over. -/
theorem Shows.of_look (hc : c.Shows store A) {id : SliceId} (hid : A id)
    {value : Option (List RollupRow)}
    (h : c.look id.key = .fresh value ∨ c.look id.key = .expired value) : value = store.get? id := by
  rcases h with h | h
  · obtain ⟨e, he, -, rfl⟩ := entry_of_look_fresh h
    exact hc.entries id hid e he
  · obtain ⟨e, he, rfl⟩ := entry_of_look_expired h
    exact hc.entries id hid e he

end Cache

/-! ### Reading slices -/

namespace RollupEngine

open Cache

/-- The rows of several slices, straight from the store. -/
def slicesDirectly (store : RollupStore) (schema : String) (cancelled : Bool) :
    List String → Except EngineError (List RollupRow)
  | [] => .ok []
  | scope :: rest =>
    if cancelled then .error .cancelled
    else (slicesDirectly store schema cancelled rest).map fun more =>
      (store.get? ⟨schema, scope⟩).getD [] ++ more

variable {c : SliceCache} {store : RollupStore} {schema : String} {A : SliceId → Prop}

theorem compute_loader (hA : SliceId.Apart A) (hc : c.Shows store A) {id : SliceId} (hid : A id)
    {stale : Option (List RollupRow)} (hstale : stale.isSome → stale = store.get? id) (ttl : Nat) :
    (c.compute id.key stale ttl (loader store id)).1.outcome = .ok (store.get? id) ∧
      (c.compute id.key stale ttl (loader store id)).2.Shows store A := by
  unfold compute
  simp only
  split
  · cases stale with
    | some value =>
      refine ⟨?_, (hc.record _).record _⟩
      rw [← hstale rfl]
    | none => exact ⟨rfl, hc.congr rfl rfl rfl⟩
  · split
    · next value hlook => exact ⟨congrArg Except.ok (hc.of_look hid (.inl hlook)), hc.congr rfl rfl rfl⟩
    · refine ⟨rfl, Shows.enter hA ?_ hid _ ttl⟩
      exact hc.congr rfl rfl rfl

/-- **A slice comes out of the cache as it is stored.** -/
theorem slice_eq (hA : SliceId.Apart A) (hc : c.Shows store A) {id : SliceId} (hid : A id) :
    (slice store c id).1 = store.get? id ∧ (slice store c id).2.Shows store A := by
  suffices (c.get id.key c.config.ttlMs (loader store id)).1.outcome = .ok (store.get? id) ∧
      (c.get id.key c.config.ttlMs (loader store id)).2.Shows store A by
    obtain ⟨houtcome, hshows⟩ := this
    refine ⟨?_, hshows⟩
    change ((c.get _ _ _).1.outcome.toOption).join = _
    rw [houtcome]
    rfl
  unfold Cache.get
  split
  · next hrejected =>
    -- The filter forgets nothing, so what it rejects is not stored.
    refine ⟨?_, hc.record _⟩
    rw [rejects, Bool.and_eq_true, Bool.not_eq_true'] at hrejected
    cases hget : store.get? id with
    | none => rfl
    | some rows =>
      have hknown := hc.knows hrejected.1 id hid (by rw [hget]; rfl)
      rw [hknown] at hrejected
      cases hrejected.2
  · split
    · next value hlook => exact ⟨congrArg Except.ok (hc.of_look hid (.inl hlook)), hc.record _⟩
    · next value hlook => exact compute_loader hA hc hid (fun _ => hc.of_look hid (.inr hlook)) _
    · exact compute_loader hA hc hid (fun h => by cases h) _

/-- **Several slices** come out of the cache as they are stored. -/
theorem slices_eq_directly (hA : SliceId.Apart A) (hc : c.Shows store A) (cancelled : Bool)
    {scopes : List String} (hscopes : ∀ scope ∈ scopes, A ⟨schema, scope⟩) :
    (slices store schema cancelled scopes c).1 = slicesDirectly store schema cancelled scopes ∧
      (slices store schema cancelled scopes c).2.Shows store A := by
  induction scopes generalizing c with
  | nil => exact ⟨rfl, hc⟩
  | cons scope scopes ih =>
    unfold slices slicesDirectly
    split
    · exact ⟨rfl, hc⟩
    · obtain ⟨hslice, hshows⟩ := slice_eq hA hc (hscopes scope List.mem_cons_self)
      obtain ⟨hmore, hafter⟩ :=
        ih hshows fun other hother => hscopes other (List.mem_cons_of_mem _ hother)
      refine ⟨?_, hafter⟩
      simp only
      rw [hmore, hslice]

theorem eq_flatMap_of_slicesDirectly {cancelled : Bool} {scopes : List String}
    {rows : List RollupRow} (h : slicesDirectly store schema cancelled scopes = .ok rows) :
    rows = scopes.flatMap fun scope => (store.get? ⟨schema, scope⟩).getD [] := by
  induction scopes generalizing rows with
  | nil => exact (Except.ok.inj h).symm
  | cons scope scopes ih =>
    unfold slicesDirectly at h
    split at h
    · cases h
    · obtain ⟨more, hmore, rfl⟩ := Except.map_eq_ok.1 h
      rw [ih hmore, List.flatMap_cons]

/-- The slices of one rollup, if all of them can be read. -/
theorem slices_eq {cancelled : Bool} {scopes : List String} {rows : List RollupRow}
    (hc : c.Faithful store schema) (h : (slices store schema cancelled scopes c).1 = .ok rows) :
    rows = scopes.flatMap fun scope => (store.get? ⟨schema, scope⟩).getD [] := by
  rw [(slices_eq_directly (SliceId.apart_schema schema) hc.shows cancelled fun _ _ => rfl).1] at h
  exact eq_flatMap_of_slicesDirectly h

end RollupEngine

end RetailReport
