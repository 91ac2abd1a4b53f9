import Mathlib.Algebra.Group.Nat.Defs
import RetailReport.Proofs.Cache.Epochs
import RetailReport.Proofs.Cache.Transparency

/-!
# Slices are announced before they are stored

The filter of the cache never hides a slice that is stored.  A slice is made known before the commit
that stores it, so at no moment is there a stored slice that the filter does not know: not between the
announcement and the commit either, nor while listeners are yet to be told of a commit, and whatever
requests, also those that load a key, do with the cache meanwhile.  The filter could only forget
slices if it were reset.

Behind this is that bits are only ever set, and that each position of a text has a bit.

## Main definitions

* `BloomFilter.Change`, `BloomFilter.remembered`: what happens to a filter, and what it has to know.
* `Cache.Extends`: a cache whose filter was given more texts.
* `CommitFloor`, `CommitFloor.step`: a commit step by step, beside whatever else uses the cache.
* `CommitFloor.Announced`: what is stored or about to be stored is known.

## Main results

* `BloomFilter.contains_of_mem_remembered`: **nothing is forgotten** since a filter was cleared.
* `BloomFilter.div_lt_of_mem_positions`: each position lies in a word.
* `CommitFloor.announced_step`, `CommitFloor.announced_run`: every step keeps stored slices known.
* `CommitFloor.exists_run_perform`: steps make up whatever a synchronizer does.
* `CommitFloor.stored_slices_known`: **no stored slice is hidden**.
-/

namespace RetailReport

-- Powers are those of the core library.
attribute [local instance (high)] instPowNat

/-! ### What a filter remembers -/

namespace BloomFilter

/-- What happens to a filter. -/
inductive Change where
  /-- A text is put in. -/
  | insert (text : String)
  /-- All texts are taken out. -/
  | clear

/-- The filter after a change. -/
def change (f : BloomFilter) : Change → BloomFilter
  | .insert text => f.insert text
  | .clear => f.clear

/-- The texts after a change. -/
def remember (texts : List String) : Change → List String
  | .insert text => text :: texts
  | .clear => []

/-- The texts that were put in since all texts were taken out for the last time. -/
def remembered (changes : List Change) : List String := changes.foldl remember []

/-- **Nothing is forgotten**: a filter knows all texts that were put in since it was cleared. -/
theorem contains_of_mem_remembered (f : BloomFilter) (changes : List Change) {text : String}
    (h : text ∈ remembered changes) : (changes.foldl change f).contains text = true := by
  induction changes using List.reverseRecOn generalizing text with
  | nil => cases h
  | append_singleton changes c ih =>
    rw [remembered, List.foldl_append] at h
    rw [List.foldl_append]
    cases c with
    | insert other =>
      rcases List.mem_cons.1 h with rfl | h
      · exact contains_insert_self _ _
      · exact contains_insert (ih h) other
    | clear => cases h

/-- Each position of a text lies in a word. -/
theorem div_lt_of_mem_positions {f : BloomFilter} {text : String} {i : Nat}
    (h : i ∈ f.positions text) : i / 64 < f.words.size := by
  have hlt := lt_of_mem_positions h
  have hle := f.size_le
  omega

theorem size_insertAll (f : BloomFilter) (texts : List String) :
    (f.insertAll texts).size = f.size ∧ (f.insertAll texts).words.size = f.words.size := by
  unfold insertAll
  induction texts generalizing f with
  | nil => exact ⟨rfl, rfl⟩
  | cons text texts ih =>
    obtain ⟨hsize, hwords⟩ := ih (f.insert text)
    exact ⟨hsize, hwords.trans (size_foldl_setBit _ _)⟩

/-- A filter has as many words as 64-bit numbers give, unless they overflow. -/
theorem size_words_ofCapacity {capacity : Nat} {rate : Float}
    (h : (ofCapacity capacity rate).size ≤ 2 ^ (64 : Nat) - 64) :
    (ofCapacity capacity rate).words.size =
      ((UInt64.ofNat (ofCapacity capacity rate).size + 63) / 64).toNat := by
  have hwords : (ofCapacity capacity rate).words.size =
      ((ofCapacity capacity rate).size + 63) / 64 := Array.size_replicate
  generalize (ofCapacity capacity rate).size = size at h hwords
  rw [hwords, UInt64.toNat_div, UInt64.toNat_add, UInt64.toNat_ofNat']
  change (size + 63) / 64 = (size % 2 ^ (64 : Nat) + 63) % 2 ^ (64 : Nat) / 64
  omega

/-- The positions of a text are what 64-bit numbers give. -/
theorem positions_eq {f : BloomFilter} (h : f.size ≤ 2 ^ (64 : Nat) - 64) (text : String) :
    f.positions text = (List.range f.probes).map fun i =>
      (((hashes text).1 + UInt64.ofNat i * (hashes text).2) % UInt64.ofNat f.size).toNat := by
  refine List.map_congr_left fun i _ => ?_
  have hsize : f.size % 2 ^ (64 : Nat) = f.size := Nat.mod_eq_of_lt (by omega)
  rw [UInt64.toNat_mod, UInt64.toNat_ofNat', hsize]
  rfl

end BloomFilter

/-! ### What requests do to the filter -/

namespace Cache

variable {α ε ρ : Type} {c c' : Cache α} {key : String}

/-- **A cache whose filter was given more texts**, or none. -/
structure Extends (c c' : Cache α) : Prop where
  /-- The configuration is the same. -/
  config : c'.config = c.config
  /-- The filter knows what it knew, and perhaps more. -/
  filter : ∃ texts, c'.filter = c.filter.insertAll texts

namespace Extends

theorem of_eq (hconfig : c'.config = c.config) (hfilter : c'.filter = c.filter) : c.Extends c' :=
  ⟨hconfig, [], hfilter⟩

theorem refl (c : Cache α) : c.Extends c := of_eq rfl rfl

theorem trans {c'' : Cache α} (h : c.Extends c') (h' : c'.Extends c'') : c.Extends c'' := by
  obtain ⟨texts, htexts⟩ := h.filter
  obtain ⟨more, hmore⟩ := h'.filter
  refine ⟨h'.config.trans h.config, texts ++ more, ?_⟩
  rw [hmore, htexts, BloomFilter.insertAll, BloomFilter.insertAll, BloomFilter.insertAll,
    List.foldl_append]

/-- What the filter knows, it still knows. -/
theorem contains (h : c.Extends c') {text : String} (hc : c.filter.contains text = true) :
    c'.filter.contains text = true := by
  obtain ⟨texts, htexts⟩ := h.filter
  rw [htexts]
  exact BloomFilter.contains_insertAll hc texts

theorem register (c : Cache α) (keys : List String) : c.Extends (c.register keys) := by
  unfold Cache.register
  split
  · exact ⟨rfl, keys, rfl⟩
  · exact refl c

theorem onCommitted (c : Cache α) (slices : List SliceId) : c.Extends (c.onCommitted slices) :=
  of_eq (config_onCommitted c slices) (filter_onCommitted c slices)

theorem atLoad (c : Cache α) (key : String) : c.Extends (c.atLoad key) := by
  unfold Cache.atLoad
  split <;> exact of_eq rfl rfl

theorem afterLoad (c : Cache α) (key : String) (ttl : Nat) (outcome : Except ε (Option α))
    (returned : Cache α) : returned.Extends (c.afterLoad key ttl outcome returned) := by
  unfold Cache.afterLoad
  split
  · exact of_eq rfl rfl
  · cases outcome with
    | error e => exact of_eq rfl rfl
    | ok value =>
      simp only [Cache.store]
      split <;> exact of_eq rfl rfl

/-- A request gives the filter what its loader does. -/
theorem get (c : Cache α) (key : String) (ttl : Nat) {loader : Loader ε α ρ}
    (hloader : ∀ c : Cache α, c.Extends (loader c).2) : c.Extends (c.get key ttl loader).2 := by
  have hanswered := get_answered c key ttl loader
  generalize c.get key ttl loader = answer at hanswered ⊢
  cases hanswered with
  | rejected _ => exact of_eq rfl rfl
  | fresh _ e _ _ => exact of_eq rfl rfl
  | stale _ e _ value _ _ => exact of_eq rfl rfl
  | loaded _ loaded returned hloaded =>
    have hreturned := hloader (c.atLoad key)
    rw [hloaded] at hreturned
    exact ((atLoad c key).trans hreturned).trans (afterLoad c key ttl loaded.outcome returned)

end Extends

/-- The journal tells whether the filter has rejected a key. -/
theorem head?_journal_get (c : Cache α) (key : String) (ttl : Nat) (loader : Loader ε α ρ) :
    (c.get key ttl loader).2.journal.head? = some (.rejected key) ↔ c.rejects key = true := by
  have hanswered := get_answered c key ttl loader
  generalize c.get key ttl loader = answer at hanswered ⊢
  cases hanswered with
  | rejected h => exact iff_of_true rfl h
  | fresh h e _ _ => exact iff_of_false nofun (Bool.eq_false_iff.1 h)
  | stale h e _ value _ _ => exact iff_of_false nofun (Bool.eq_false_iff.1 h)
  | loaded h loaded returned _ =>
    refine iff_of_false (fun hhead => ?_) (Bool.eq_false_iff.1 h)
    rw [journal_afterLoad, List.head?_cons] at hhead
    cases hoc : loaded.outcome <;> rw [hoc] at hhead <;> cases hhead

end Cache

namespace CacheOp

variable {ε α : Type}

mutual

/-- The filter is reset in the course of an operation. -/
def resets : CacheOp ε α → Bool
  | .get _ _ during _ => resetsAny during
  | .resetFilter _ => true
  | _ => false

/-- The filter is reset in the course of a program. -/
def resetsAny : List (CacheOp ε α) → Bool
  | [] => false
  | op :: ops => op.resets || resetsAny ops

end

mutual

/-- **No operation makes the filter forget anything**, unless it resets the filter. -/
theorem extends_run : ∀ (op : CacheOp ε α) (c : Cache α), op.resets = false →
    c.Extends (run op c).2
  | .get key ttl during outcome, c, h => by
    rw [run_get]
    rw [resets] at h
    exact .get c key ttl fun c' => extends_runAll during c' h
  | .register keys, c, _ => by
    rw [run]
    exact .register c keys
  | .resetFilter keys, c, h => by
    rw [resets] at h
    cases h
  | .invalidate key, c, _ => by
    rw [run]
    exact .of_eq rfl rfl
  | .clear, c, _ => by
    rw [run]
    exact .of_eq rfl rfl
  | .beforeCommit slices, c, _ => by
    rw [run]
    exact .register c _
  | .onCommitted slices, c, _ => by
    rw [run]
    exact .onCommitted c slices
  | .advance ms, c, _ => by
    rw [run]
    exact .of_eq rfl rfl
  | .stats, c, _ => by
    rw [run]
    exact .refl c

/-- Nor does any program. -/
theorem extends_runAll : ∀ (ops : List (CacheOp ε α)) (c : Cache α), resetsAny ops = false →
    c.Extends (runAll ops c).2
  | [], c, _ => by
    rw [runAll]
    exact .refl c
  | op :: ops, c, h => by
    rw [resetsAny, Bool.or_eq_false_iff] at h
    rw [runAll]
    exact (extends_run op c h.1).trans (extends_runAll ops _ h.2)

end

end CacheOp

/-! ### Commits step by step -/

/-- A site whose cache listens to the synchronizer, in the midst of commits. -/
structure CommitFloor where
  /-- The stores and the synchronizer. -/
  site : SyncSite
  /-- The cache. -/
  cache : SliceCache
  /-- The batch that listeners have been told of and that is about to be committed.  The synchronizer
  lets nobody else commit meanwhile. -/
  announced : Option (String × RollupBatch) := none
  /-- The commits that listeners have not been told of yet. -/
  untold : List (String × List SliceId) := []

/-- What can happen on the floor. -/
inductive CommitAct (ε : Type) where
  /-- The slices of a store, with those that are computed from all lines, are about to be
  committed. -/
  | announce (key : String) (batch : RollupBatch) (globals : Option GlobalSlices)
  /-- They are committed. -/
  | commit
  /-- Listeners are told of one of the commits. -/
  | tell (i : Nat)
  /-- The cache is used. -/
  | use (op : CacheOp ε (List RollupRow))
  /-- Something happens that does not change the stored slices. -/
  | elsewhere (facts : FactStore) (synchronizer : Synchronizer)

/-- The filter is reset. -/
def CommitAct.resets {ε : Type} : CommitAct ε → Bool
  | .use op => op.resets
  | _ => false

namespace CommitFloor

variable {ε : Type}

/-- A floor without slices; the cache listens from the beginning. -/
def start (plans : List RebuildPlan) (config : CacheConfig) : CommitFloor where
  site := .start plans
  cache := .new config

/-- The floor after something has happened.  What cannot happen now changes nothing. -/
def step (w : CommitFloor) : CommitAct ε → CommitFloor
  | .announce key batch globals =>
    match w.announced with
    | some _ => w
    | none =>
      let (batch, synchronizer) := SyncSite.withGlobals w.site.synchronizer batch globals
      { w with
        site := { w.site with synchronizer }
        cache := w.cache.hear (.beforeCommit batch)
        announced := some (key, batch) }
  | .commit =>
    match w.announced with
    | none => w
    | some (key, batch) =>
      { w with
        site := { w.site with rollups := w.site.rollups.commit batch }
        announced := none
        untold := w.untold ++ [(key, batch.sliceIds)] }
  | .tell i =>
    match w.untold[i]? with
    | none => w
    | some (key, slices) =>
      { w with cache := w.cache.hear (.onCommitted key slices), untold := w.untold.eraseIdx i }
  | .use op => { w with cache := (op.run w.cache).2 }
  | .elsewhere facts synchronizer => { w with site := { w.site with facts, synchronizer } }

/-- The floor after some things have happened. -/
def run (w : CommitFloor) (acts : List (CommitAct ε)) : CommitFloor := acts.foldl step w

theorem run_append (w : CommitFloor) (acts more : List (CommitAct ε)) :
    run w (acts ++ more) = run (run w acts) more := List.foldl_append

/-! ### Whatever a synchronizer does -/

/-- A commit in one go, step by step. -/
theorem run_commit {w : CommitFloor} (h : w.announced = none) (key : String) (batch : RollupBatch)
    (globals : Option GlobalSlices) :
    run w [.announce key batch globals, .commit, (.tell w.untold.length : CommitAct ε)] =
      { w with
        site := (w.site.commit key batch globals).2.2
        cache := (w.site.commit key batch globals).2.1.foldl Cache.hear w.cache } := by
  obtain ⟨site, cache, announced, untold⟩ := w
  obtain rfl : announced = none := h
  simp [run, step, SyncSite.commit, List.eraseIdx_append_of_length_le]

/-- **Steps make up whatever listeners are told of**, commit by commit. -/
theorem exists_run_of_told {w : CommitFloor} {r : RollupStore} {events : List SyncEvent}
    (h : w.announced = none) (ht : SyncSite.Told w.site.rollups events r) :
    ∃ acts : List (CommitAct ε), (∀ act ∈ acts, act.resets = false) ∧
      run w acts = { w with
        site := { w.site with rollups := r }
        cache := events.foldl Cache.hear w.cache } := by
  induction ht with
  | nil => exact ⟨[], by simp, rfl⟩
  | complete report _ ih =>
    obtain ⟨acts, hresets, hrun⟩ := ih
    refine ⟨acts, hresets, ?_⟩
    rw [hrun, List.foldl_append]
    rfl
  | @commit r events key batch _ ih =>
    obtain ⟨acts, hresets, hrun⟩ := ih
    -- Each commit is announced, made and told before anything else happens.
    refine ⟨acts ++ [.announce key batch none, .commit, .tell w.untold.length], ?_, ?_⟩
    · intro act hact
      rcases List.mem_append.1 hact with hact | hact
      · exact hresets act hact
      · rcases List.mem_cons.1 hact with rfl | hact
        · rfl
        · rcases List.mem_cons.1 hact with rfl | hact
          · rfl
          · rw [List.mem_singleton.1 hact]
            rfl
    · rw [run_append, hrun, List.foldl_append]
      exact @run_commit ε
        { w with site.rollups := r, cache := events.foldl Cache.hear w.cache } h key batch none

/-- **Steps make up every operation of a synchronizer**: changes, synchronisations and full
rebuilds. -/
theorem exists_run_perform {w : CommitFloor} (h : w.announced = none) (op : SyncOp) :
    ∃ acts : List (CommitAct ε), (∀ act ∈ acts, act.resets = false) ∧
      run w acts = { w with
        site := (w.site.perform op).2
        cache := (w.site.perform op).1.foldl Cache.hear w.cache } := by
  obtain ⟨acts, hresets, hrun⟩ := exists_run_of_told (ε := ε) h (SyncSite.told_perform w.site op)
  refine ⟨acts ++ [.elsewhere (w.site.perform op).2.facts (w.site.perform op).2.synchronizer],
    fun act hact => ?_, ?_⟩
  · rcases List.mem_append.1 hact with hact | hact
    · exact hresets act hact
    · rw [List.mem_singleton.1 hact]
      rfl
  · rw [run_append, hrun]
    rfl

/-! ### What is known -/

/-- **What is stored or about to be stored is known.** -/
structure Announced (config : CacheConfig) (w : CommitFloor) : Prop where
  /-- The filter has only been given texts since the beginning. -/
  since : (Cache.new config).Extends w.cache
  /-- The filter knows all slices that are stored. -/
  stored : ∀ id ∈ w.site.rollups.slices.keys, w.cache.filter.contains id.key = true
  /-- It knows the slices that are about to be stored. -/
  announced : ∀ key batch, w.announced = some (key, batch) → ∀ id ∈ batch.sliceIds,
    w.cache.filter.contains id.key = true

variable {config : CacheConfig} {w : CommitFloor}

theorem announced_start (plans : List RebuildPlan) (config : CacheConfig) :
    (start plans config).Announced config where
  since := .refl _
  stored _ hid := by cases hid
  announced _ _ h := by cases h

/-- A cache that knows more serves as well. -/
theorem Announced.extends (h : w.Announced config) {cache : SliceCache}
    (hcache : w.cache.Extends cache) (untold : List (String × List SliceId)) :
    Announced config { w with cache, untold } where
  since := h.since.trans hcache
  stored id hid := hcache.contains (h.stored id hid)
  announced key batch hb id hid := hcache.contains (h.announced key batch hb id hid)

/-- **Every step keeps stored slices known**, unless it resets the filter. -/
theorem announced_step (henabled : config.filterEnabled = true) (h : w.Announced config)
    {act : CommitAct ε} (hact : act.resets = false) : (step w act).Announced config := by
  cases act with
  | announce key batch globals =>
    cases hw : w.announced with
    | some pending => simpa only [step, hw] using h
    | none =>
      simp only [step, hw]
      -- The slices become known before they are committed.
      have hextends : w.cache.Extends (w.cache.hear (.beforeCommit
          (SyncSite.withGlobals w.site.synchronizer batch globals).1)) := .register _ _
      have hon : w.cache.config.filterEnabled = true := by rw [h.since.config]; exact henabled
      have hfilter := Cache.filter_beforeCommit hon
        (SyncSite.withGlobals w.site.synchronizer batch globals).1.sliceIds
      refine ⟨h.since.trans hextends, fun id hid => hextends.contains (h.stored id hid), ?_⟩
      intro key' batch' hannounced id hid
      cases hannounced
      change BloomFilter.contains (Cache.beforeCommit _ _).filter _ = true
      rw [hfilter]
      exact BloomFilter.contains_insertAll_of_mem _ (List.mem_map_of_mem hid)
  | commit =>
    cases hw : w.announced with
    | none => simpa only [step, hw] using h
    | some pending =>
      obtain ⟨key, batch⟩ := pending
      simp only [step, hw]
      refine ⟨h.since, fun id hid => ?_, fun _ _ hnone => by cases hnone⟩
      rcases RollupStore.mem_keys_commit hid with hid | hid
      · exact h.announced key batch hw id hid
      · exact h.stored id hid
  | tell i =>
    cases hw : w.untold[i]? with
    | none => simpa only [step, hw] using h
    | some commit =>
      simp only [step, hw]
      exact h.extends (.onCommitted _ _) _
  | use op => exact h.extends (CacheOp.extends_run op w.cache hact) _
  | elsewhere facts synchronizer => exact ⟨h.since, h.stored, h.announced⟩

/-- So does every run. -/
theorem announced_run (henabled : config.filterEnabled = true) (h : w.Announced config)
    {acts : List (CommitAct ε)} (hacts : ∀ act ∈ acts, act.resets = false) :
    (run w acts).Announced config := by
  unfold run
  induction acts generalizing w with
  | nil => exact h
  | cons act acts ih =>
    exact ih (announced_step henabled h (hacts act List.mem_cons_self))
      fun act' hact' => hacts act' (List.mem_cons_of_mem _ hact')

/-- **No stored slice is hidden.**  In any run in which the cache listens from the beginning and its
filter is not reset, the filter knows every slice that is stored, at every moment, and so no request
for it is rejected.  For behind this, a filter knows all texts that were put in since it was cleared,
and each position of a text lies in one of its words, of which there are as many as 64-bit numbers
give unless they overflow. -/
theorem stored_slices_known (plans : List RebuildPlan) {config : CacheConfig}
    (henabled : config.filterEnabled = true) {acts : List (CommitAct ε)}
    (hacts : ∀ act ∈ acts, act.resets = false) :
    let w := run (start plans config) acts
    (∀ id rows, w.site.rollups.get? id = some rows →
      w.cache.filter.contains id.key = true ∧
      ∀ (ε ρ : Type) (ttl : Nat) (loader : Cache.Loader ε (List RollupRow) ρ),
        (w.cache.get id.key ttl loader).2.journal.head? ≠ some (.rejected id.key)) ∧
    (w.cache.filter.size ≤ 2 ^ (64 : Nat) - 64 →
      w.cache.filter.words.size = ((UInt64.ofNat w.cache.filter.size + 63) / 64).toNat ∧
      ∀ text, w.cache.filter.positions text = (List.range w.cache.filter.probes).map fun i =>
        (((BloomFilter.hashes text).1 + UInt64.ofNat i * (BloomFilter.hashes text).2) %
          UInt64.ofNat w.cache.filter.size).toNat) ∧
    (∀ (f : BloomFilter) (text : String), ∀ i ∈ f.positions text, i / 64 < f.words.size) ∧
    ∀ (f : BloomFilter) (changes : List BloomFilter.Change),
      ∀ text ∈ BloomFilter.remembered changes,
        (changes.foldl BloomFilter.change f).contains text = true := by
  intro w
  have hannounced : w.Announced config := announced_run henabled (announced_start plans config) hacts
  refine ⟨fun id rows hrows => ?_, fun hsize => ?_, fun _ _ _ => BloomFilter.div_lt_of_mem_positions,
    fun f changes _ => BloomFilter.contains_of_mem_remembered f changes⟩
  · have hknown : w.cache.filter.contains id.key = true :=
      hannounced.stored id (SortedMap.mem_keys.2 ⟨rows, hrows⟩)
    refine ⟨hknown, fun _ _ ttl loader hhead => ?_⟩
    -- A rejection would mean that the filter does not know the key.
    have hrejects := (Cache.head?_journal_get _ _ ttl loader).1 hhead
    rw [Cache.rejects, hknown, Bool.not_true, Bool.and_false] at hrejects
    cases hrejects
  · -- Texts were only added, so the filter has as many words as when it was created.
    obtain ⟨texts, htexts⟩ := hannounced.since.filter
    obtain ⟨hsame, hwords⟩ := BloomFilter.size_insertAll (Cache.emptyFilter config) texts
    refine ⟨?_, BloomFilter.positions_eq hsize⟩
    change w.cache.filter = (Cache.emptyFilter config).insertAll texts at htexts
    rw [htexts, hsame] at hsize
    rw [htexts, hsame, hwords]
    exact BloomFilter.size_words_ofCapacity hsize

/-- A slice is asked for between its announcement and its commit, and its loader forgets it. -/
def askedMeanwhile : List (CommitAct String) :=
  [.announce "S1" [⟨⟨"daily", "S1"⟩, [{ schema := "daily", key := ["S1"], values := .empty }]⟩] none,
    .use (.get "daily/S1" 5 [.invalidate "daily/S1"] (.ok none)), .commit]

/-- The slice is stored and known, although listeners have not been told of its commit. -/
theorem stored_slices_known_meanwhile :
    (∀ act ∈ askedMeanwhile, act.resets = false) ∧
    (run (start [] {}) askedMeanwhile).site.rollups.get? ⟨"daily", "S1"⟩ =
      some [{ schema := "daily", key := ["S1"], values := .empty }] ∧
    (run (start [] {}) askedMeanwhile).untold = [("S1", [⟨"daily", "S1"⟩])] ∧
    (run (start [] {}) askedMeanwhile).cache.filter.contains "daily/S1" = true := by
  have hacts : ∀ act ∈ askedMeanwhile, act.resets = false := by decide
  have hstored : (run (start [] {}) askedMeanwhile).site.rollups.get? ⟨"daily", "S1"⟩ =
      some [{ schema := "daily", key := ["S1"], values := .empty }] := by decide +kernel
  exact ⟨hacts, hstored, rfl, ((stored_slices_known [] rfl hacts).1 _ _ hstored).1⟩

end CommitFloor

end RetailReport
