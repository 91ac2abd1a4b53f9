import RetailReport.Cache.Program
import RetailReport.Proofs.SortedMap

/-!
# The values of the cache are current

What a cache gives for a key without calling a loader was found by a loader of that key, and by one
that was called after the key was forgotten for the last time.  Loaders may use the cache while they
run, so a key can be forgotten, asked for and loaded again during its own load, at any depth.

The journal tells the order of events, so all of this is about the journal.  Two counts tie the cache
to it: the generation is the number of times that the cache was cleared, and the epoch of a key the
number of times that it was invalidated.  Between two moments with the same counts the key was not
forgotten.

## Main definitions

* `CacheEvent.forgets`: the events after which nothing is known of a key.
* `Cache.Supplied`: a loader that was called since then has found a value.
* `Cache.Sound`: the counts are right, and every entry was supplied.
* `CacheOp.Performs`: an operation is performed in the course of a program, at any depth.

## Main results

* `Cache.get_answered`: the four ways in which a cache answers.
* `CacheOp.keeps_run`, `CacheOp.Performs.sound`: every operation keeps the cache sound.
* `CacheOp.current_of_performs`: **values are current**, and what a load enters.
-/

namespace RetailReport

/-! ### What the journal tells -/

namespace CacheEvent

variable {α ε : Type}

/-- Nothing is known of any key any more. -/
def isClearing : CacheEvent α → Bool
  | .cleared => true
  | _ => false

/-- Nothing is known of this key any more. -/
def invalidates (key : String) : CacheEvent α → Bool
  | .invalidated other => other == key
  | _ => false

/-- **The events after which nothing is known of a key.** -/
def forgets (key : String) (e : CacheEvent α) : Bool := e.isClearing || e.invalidates key

/-- A loader is called. -/
def isLoadStart : CacheEvent α → Bool
  | .loadStarted _ _ => true
  | _ => false

theorem forgets_ofOutcome (load : Nat) (outcome : Except ε (Option α)) (key : String) :
    (ofOutcome load outcome).forgets key = false := by
  cases outcome <;> rfl

theorem ofOutcome_ne_loadStarted (load : Nat) (outcome : Except ε (Option α)) (load' : Nat)
    (key : String) : ofOutcome load outcome ≠ .loadStarted load' key := by
  cases outcome <;> exact fun h => by cases h

end CacheEvent

namespace Cache

variable {α ε ρ : Type}

/-! ### Loads in a journal -/

/-- Each load has the number of the loads that started before it. -/
def Numbered : List (CacheEvent α) → Prop
  | [] => True
  | e :: before =>
    (∀ load key, e = .loadStarted load key → load = before.countP CacheEvent.isLoadStart) ∧
      Numbered before

theorem Numbered.cons {before : List (CacheEvent α)} (h : Numbered before) {e : CacheEvent α}
    (he : ∀ load key, e = .loadStarted load key → load = before.countP CacheEvent.isLoadStart) :
    Numbered (e :: before) := ⟨he, h⟩

theorem Numbered.of_append {since before : List (CacheEvent α)} (h : Numbered (since ++ before)) :
    Numbered before := by
  induction since with
  | nil => exact h
  | cons e since ih => exact ih h.2

theorem Numbered.lt_loads {journal : List (CacheEvent α)} (h : Numbered journal) {load : Nat}
    {key : String} (hmem : .loadStarted load key ∈ journal) :
    load < journal.countP CacheEvent.isLoadStart := by
  induction journal with
  | nil => cases hmem
  | cons e before ih =>
    rcases List.mem_cons.1 hmem with rfl | hmem
    · have hload := h.1 load key rfl
      rw [List.countP_cons_of_pos rfl]
      omega
    · have hlt := ih h.2 hmem
      rw [List.countP_cons]
      omega

theorem Numbered.loads_le {since before : List (CacheEvent α)} (h : Numbered (since ++ before))
    {load : Nat} {key : String} (hmem : .loadStarted load key ∈ since) :
    before.countP CacheEvent.isLoadStart ≤ load := by
  induction since with
  | nil => cases hmem
  | cons e since ih =>
    rcases List.mem_cons.1 hmem with rfl | hmem
    · have hload : load = (since ++ before).countP CacheEvent.isLoadStart := h.1 load key rfl
      rw [List.countP_append] at hload
      omega
    · exact ih h.2 hmem

/-- No two loads have the same number. -/
theorem Numbered.notMem {since before : List (CacheEvent α)} {load : Nat} {key : String}
    (h : Numbered (since ++ .loadStarted load key :: before)) (other : String) :
    .loadStarted load other ∉ since ++ before := by
  intro hmem
  have hload := h.of_append.1 load key rfl
  rcases List.mem_append.1 hmem with hsince | hbefore
  · have hle := h.loads_le hsince
    rw [List.countP_cons_of_pos rfl] at hle
    omega
  · have hlt := h.of_append.2.lt_loads hbefore
    omega

/-- **A loader of a key that was called after the key was forgotten for the last time has found a
value.** -/
def Supplied (journal : List (CacheEvent α)) (key : String) (value : Option α) : Prop :=
  ∃ load since before,
    journal = since ++ .loadStarted load key :: before ∧
    .loaded load value ∈ since ∧
    (∀ e ∈ since, e.forgets key = false) ∧
    ∀ other, .loadStarted load other ∉ since ++ before

theorem Supplied.append {journal more : List (CacheEvent α)} {key : String} {value : Option α}
    (h : Supplied journal key value) (hnumbered : Numbered (more ++ journal))
    (hmore : ∀ e ∈ more, e.forgets key = false) : Supplied (more ++ journal) key value := by
  obtain ⟨load, since, before, rfl, hfound, hsince, -⟩ := h
  rw [← List.append_assoc] at hnumbered
  refine ⟨load, more ++ since, before, (List.append_assoc ..).symm, List.mem_append_right _ hfound,
    ?_, hnumbered.notMem⟩
  intro e he
  rcases List.mem_append.1 he with he | he
  · exact hmore e he
  · exact hsince e he

/-! ### What the journal says of a cache -/

/-- **The epochs and the generation are the counts of the journal, and every entry was supplied.** -/
structure Sound (c : Cache α) : Prop where
  /-- The generation is the number of times that the cache was cleared. -/
  generation : c.generation = c.journal.countP CacheEvent.isClearing
  /-- The epoch of a key is the number of times that it was invalidated. -/
  epochs : ∀ key, c.epochs.getD key 0 = c.journal.countP (CacheEvent.invalidates key)
  /-- Loads are numbered. -/
  numbered : Numbered c.journal
  /-- What is known was found by current loads. -/
  entries : ∀ key e, c.entries.get? key = some e → Supplied c.journal key e.value

theorem loadCount_eq (c : Cache α) : c.loadCount = c.journal.countP CacheEvent.isLoadStart := by
  unfold loadCount
  refine List.countP_congr fun e _ => ?_
  cases e <;> rfl

theorem sound_new (config : CacheConfig) : (new config : Cache α).Sound where
  generation := rfl
  epochs := fun _ => rfl
  numbered := trivial
  entries := fun _ _ h => by cases h

variable {c c' : Cache α} {key : String}

/-- The filter, the loads and the time do not matter. -/
theorem Sound.congr (h : c.Sound) (hjournal : c'.journal = c.journal)
    (hgeneration : c'.generation = c.generation) (hepochs : c'.epochs = c.epochs)
    (hentries : c'.entries = c.entries) : c'.Sound where
  generation := by rw [hgeneration, hjournal, h.generation]
  epochs := by
    intro key
    rw [hepochs, hjournal, h.epochs]
  numbered := by
    rw [hjournal]
    exact h.numbered
  entries := by
    rw [hentries, hjournal]
    exact h.entries

/-- Whatever is written down, unless it forgets keys or gives a load a wrong number. -/
theorem Sound.record (h : c.Sound) {e : CacheEvent α} (he : ∀ key, e.forgets key = false)
    (hload : ∀ load key, e = .loadStarted load key → load = c.loadCount) : (c.record e).Sound where
  generation := by
    have hclearing : ¬ e.isClearing = true := by
      have := he ""
      rw [CacheEvent.forgets, Bool.or_eq_false_iff] at this
      simp [this.1]
    exact h.generation.trans (List.countP_cons_of_neg hclearing).symm
  epochs := by
    intro key
    have hinvalidates : ¬ e.invalidates key = true := by
      have := he key
      rw [CacheEvent.forgets, Bool.or_eq_false_iff] at this
      simp [this.2]
    exact (h.epochs key).trans (List.countP_cons_of_neg hinvalidates).symm
  numbered := h.numbered.cons (by rwa [← loadCount_eq])
  entries := by
    intro key entry hentry
    have hnumbered : Numbered ([e] ++ c.journal) := h.numbered.cons (by rwa [← loadCount_eq])
    refine (h.entries key entry hentry).append hnumbered ?_
    intro e' he'
    rw [List.mem_singleton.1 he']
    exact he key

theorem Sound.invalidate (h : c.Sound) (key : String) : (c.invalidate key).Sound where
  generation := h.generation.trans (List.countP_cons_of_neg Bool.false_ne_true).symm
  epochs := by
    intro other
    change (c.epochs.insert key _).getD other 0 =
      (CacheEvent.invalidated key :: c.journal).countP (CacheEvent.invalidates other)
    rw [SortedMap.getD_insert, List.countP_cons, ← h.epochs, CacheEvent.invalidates]
    by_cases heq : other = key
    · subst heq
      rw [if_pos rfl, if_pos (beq_self_eq_true _)]
    · rw [if_neg heq, if_neg fun hbeq => heq (eq_of_beq hbeq).symm]
      rfl
  numbered := h.numbered.cons fun _ _ hstart => by cases hstart
  entries := by
    intro other e he
    change (c.entries.erase key).get? other = some e at he
    rw [SortedMap.get?_erase] at he
    split at he
    · cases he
    · next hne =>
      -- What is left is of another key, which this event does not forget.
      have hnumbered : Numbered ([.invalidated key] ++ c.journal) :=
        h.numbered.cons fun _ _ hstart => by cases hstart
      refine (h.entries other e he).append hnumbered ?_
      intro e' he'
      rw [List.mem_singleton.1 he']
      exact beq_false_of_ne fun heq => hne heq.symm

theorem Sound.clear (h : c.Sound) : c.clear.Sound where
  generation := by
    change c.generation + 1 = _
    rw [h.generation]
    exact (List.countP_cons_of_pos rfl).symm
  epochs := fun key => (h.epochs key).trans (List.countP_cons_of_neg Bool.false_ne_true).symm
  numbered := h.numbered.cons fun _ _ hstart => by cases hstart
  entries := fun _ _ he => by cases he

theorem Sound.onCommitted (h : c.Sound) (slices : List SliceId) : (c.onCommitted slices).Sound := by
  unfold Cache.onCommitted
  induction slices generalizing c with
  | nil => exact h
  | cons id slices ih => exact ih (h.invalidate id.key)

theorem Sound.register (h : c.Sound) (keys : List String) : (c.register keys).Sound := by
  unfold Cache.register
  split
  · exact h.congr rfl rfl rfl rfl
  · exact h

/-- **A key with the same epoch at two moments was not forgotten in between.** -/
theorem epochOf_eq_iff (h : c.Sound) (h' : c'.Sound) {more : List (CacheEvent α)}
    (hmore : c'.journal = more ++ c.journal) :
    c'.epochOf key = c.epochOf key ↔ ∀ e ∈ more, e.forgets key = false := by
  have hclearings := h'.generation
  have hinvalidations := h'.epochs key
  rw [hmore, List.countP_append, ← h.generation] at hclearings
  rw [hmore, List.countP_append, ← h.epochs] at hinvalidations
  have hsame : c'.epochOf key = c.epochOf key ↔ more.countP CacheEvent.isClearing = 0 ∧
      more.countP (CacheEvent.invalidates key) = 0 := by
    rw [epochOf, epochOf, Prod.mk.injEq, hclearings, hinvalidations]
    omega
  rw [hsame, List.countP_eq_zero, List.countP_eq_zero]
  constructor
  · rintro ⟨hclearing, hinvalidates⟩ e he
    rw [CacheEvent.forgets, Bool.or_eq_false_iff]
    exact ⟨Bool.eq_false_iff.2 (hclearing e he), Bool.eq_false_iff.2 (hinvalidates e he)⟩
  · intro hforgets
    refine ⟨fun e he => ?_, fun e he => ?_⟩
    · exact Bool.eq_false_iff.1 (Bool.or_eq_false_iff.1 (hforgets e he)).1
    · exact Bool.eq_false_iff.1 (Bool.or_eq_false_iff.1 (hforgets e he)).2

/-! ### The ways to answer -/

/-- The cache that the loader of a key is called with. -/
def atLoad (c : Cache α) (key : String) : Cache α :=
  if c.loading.contains key then
    ((c.record (.missed key)).record (.gaveUp key)).record (.loadStarted c.loadCount key)
  else
    Cache.record { c.record (.missed key) with loading := c.loading.add key }
      (.loadStarted c.loadCount key)

/-- The cache after the loader of a key has returned; `c` is the cache before the request. -/
def afterLoad (c : Cache α) (key : String) (ttl : Nat) (outcome : Except ε (Option α))
    (returned : Cache α) : Cache α :=
  if c.loading.contains key then returned.record (.ofOutcome c.loadCount outcome)
  else
    let c' : Cache α := { returned.record (.ofOutcome c.loadCount outcome) with
      loading := returned.loading.erase key }
    match outcome with
    | .ok value => c'.store key (c.epochOf key) ttl value
    | .error _ => c'

/-- **The ways to answer for a key.** -/
inductive Answered (c : Cache α) (key : String) (ttl : Nat) (loader : Loader ε α ρ) :
    Reply ε α ρ × Cache α → Prop where
  /-- The filter never saw the key. -/
  | rejected (h : c.rejects key = true) :
    Answered c key ttl loader (⟨.ok none, none⟩, c.record (.rejected key))
  /-- A fresh entry is given. -/
  | fresh (h : c.rejects key = false) (e : CacheEntry α) (he : c.entries.get? key = some e)
      (hfresh : c.isFresh e = true) :
    Answered c key ttl loader (⟨.ok e.value, none⟩, c.record (.served key e.value))
  /-- The key is being loaded, and the expired value is given meanwhile. -/
  | stale (h : c.rejects key = false) (e : CacheEntry α) (he : c.entries.get? key = some e)
      (value : α) (hvalue : e.value = some value) (hloading : c.loading.contains key = true) :
    Answered c key ttl loader
      (⟨.ok (some value), none⟩, (c.record (.missed key)).record (.servedStale key value))
  /-- The loader is called. -/
  | loaded (h : c.rejects key = false) (loaded : Loaded ε α ρ) (returned : Cache α)
      (hloaded : loader (c.atLoad key) = (loaded, returned)) :
    Answered c key ttl loader (loaded.reply, c.afterLoad key ttl loaded.outcome returned)

theorem load_eq (c : Cache α) (key : String) (ttl : Nat) (loader : Loader ε α ρ) :
    c.load key ttl loader =
      let r := callLoader { c with loading := c.loading.add key } key loader
      (r.1, match r.1.outcome with
        | .ok value => Cache.store { r.2 with loading := r.2.loading.erase key } key
            (c.epochOf key) ttl value
        | .error _ => { r.2 with loading := r.2.loading.erase key }) := by
  unfold load
  simp only
  cases (callLoader { c with loading := c.loading.add key } key loader).1.outcome <;> rfl

/-- What is known of a key is read off its entry. -/
theorem entry_of_look_fresh {c : Cache α} {key : String} {value : Option α}
    (h : c.look key = .fresh value) :
    ∃ e, c.entries.get? key = some e ∧ c.isFresh e = true ∧ e.value = value := by
  unfold look at h
  split at h
  · next e he =>
    split at h
    · next hfresh =>
      cases h
      exact ⟨e, he, hfresh, rfl⟩
    · cases h
  · cases h

theorem entry_of_look_expired {c : Cache α} {key : String} {value : Option α}
    (h : c.look key = .expired value) : ∃ e, c.entries.get? key = some e ∧ e.value = value := by
  unfold look at h
  split at h
  · next e he =>
    split at h
    · cases h
    · cases h
      exact ⟨e, he, rfl⟩
  · cases h

/-- A request that comes alone finds at its second look what it has found at the first one. -/
theorem compute_answered {c : Cache α} {key : String} {stale : Option α} {ttl : Nat}
    {loader : Loader ε α ρ} (h : c.rejects key = false) (hfresh : ∀ value, c.look key ≠ .fresh value)
    (hstale : ∀ value, stale = some value → ∃ e, c.entries.get? key = some e ∧ e.value = some value) :
    Answered c key ttl loader (c.compute key stale ttl loader) := by
  have hload : Answered c key ttl loader _ := .loaded h _ _ rfl
  unfold compute
  simp only
  split
  · next hloading =>
    replace hloading : c.loading.contains key = true := hloading
    cases stale with
    | some value =>
      obtain ⟨e, he, hvalue⟩ := hstale value rfl
      exact .stale h e he value hvalue hloading
    | none =>
      rw [atLoad, afterLoad, if_pos hloading, if_pos hloading] at hload
      exact hload
  · next hloading =>
    replace hloading : ¬ c.loading.contains key = true := hloading
    rw [atLoad, afterLoad, if_neg hloading, if_neg hloading] at hload
    split
    · next value hlook => exact absurd hlook (hfresh value)
    · rw [load_eq]
      exact hload

/-- Every request is answered in one of these ways. -/
theorem get_answered (c : Cache α) (key : String) (ttl : Nat) (loader : Loader ε α ρ) :
    Answered c key ttl loader (c.get key ttl loader) := by
  unfold Cache.get
  split
  · next h => exact .rejected h
  · next h =>
    have hrejects : c.rejects key = false := Bool.eq_false_iff.2 h
    split
    · next value hlook =>
      obtain ⟨e, he, hfresh, rfl⟩ := entry_of_look_fresh hlook
      exact .fresh hrejects e he hfresh
    · next value hlook =>
      refine compute_answered hrejects (fun other hother => ?_) fun value' hvalue => ?_
      · rw [hlook] at hother
        cases hother
      · obtain ⟨e, he, rfl⟩ := entry_of_look_expired hlook
        exact ⟨e, he, hvalue⟩
    · next hlook =>
      refine compute_answered hrejects (fun other hother => ?_) fun value' hvalue => ?_
      · rw [hlook] at hother
        cases hother
      · cases hvalue

/-! ### Loads keep the cache sound -/

/-- What an operation leaves behind: a sound cache with a journal that has only grown. -/
structure Keeps (c c' : Cache α) : Prop where
  /-- The cache is sound. -/
  sound : c'.Sound
  /-- The journal has only grown. -/
  journal : c.journal <:+ c'.journal

theorem Keeps.self (h : c.Sound) : c.Keeps c := ⟨h, List.suffix_rfl⟩

theorem Keeps.trans {c'' : Cache α} (h : c.Keeps c') (h' : c'.Keeps c'') : c.Keeps c'' :=
  ⟨h'.sound, h.journal.trans h'.journal⟩

theorem Keeps.record (h : c.Keeps c') {e : CacheEvent α} (he : ∀ key, e.forgets key = false)
    (hload : ∀ load key, e = .loadStarted load key → load = c'.loadCount) : c.Keeps (c'.record e) :=
  ⟨h.sound.record he hload, h.journal.trans (List.suffix_cons _ _)⟩

theorem journal_atLoad (c : Cache α) (key : String) :
    ∃ before, (c.atLoad key).journal = .loadStarted c.loadCount key :: before ∧
      c.journal <:+ before := by
  unfold atLoad
  split
  · exact ⟨_, rfl, List.suffix_append [CacheEvent.gaveUp key, .missed key] _⟩
  · exact ⟨_, rfl, List.suffix_cons _ _⟩

theorem entries_atLoad (c : Cache α) (key : String) : (c.atLoad key).entries = c.entries := by
  unfold atLoad
  split <;> rfl

theorem epochOf_atLoad (c : Cache α) (key : String) :
    (c.atLoad key).epochOf key = c.epochOf key := by
  unfold atLoad
  split <;> rfl

/-- When a loader is called, nothing was forgotten yet. -/
theorem Keeps.atLoad (h : c.Sound) (key : String) : c.Keeps (c.atLoad key) := by
  have hmissed : c.Keeps (c.record (.missed key)) :=
    (Keeps.self h).record (fun _ => rfl) fun _ _ hstart => by cases hstart
  unfold Cache.atLoad
  split
  · have hgaveUp : c.Keeps ((c.record (.missed key)).record (.gaveUp key)) :=
      hmissed.record (fun _ => rfl) fun _ _ hstart => by cases hstart
    refine hgaveUp.record (fun _ => rfl) fun load key' hstart => ?_
    cases hstart
    rfl
  · have hbegun : c.Keeps { c.record (.missed key) with loading := c.loading.add key } :=
      ⟨hmissed.sound.congr rfl rfl rfl rfl, hmissed.journal⟩
    refine hbegun.record (fun _ => rfl) fun load key' hstart => ?_
    cases hstart
    rfl

variable {ttl : Nat} {outcome : Except ε (Option α)} {returned : Cache α}

theorem journal_afterLoad (c : Cache α) (key : String) (ttl : Nat)
    (outcome : Except ε (Option α)) (returned : Cache α) :
    (c.afterLoad key ttl outcome returned).journal =
      .ofOutcome c.loadCount outcome :: returned.journal := by
  unfold afterLoad
  split
  · rfl
  · cases outcome with
    | ok value =>
      simp only [Cache.store]
      split <;> rfl
    | error e => rfl

/-- **What a load enters:** what was found, if nobody else was loading the key and it was not
forgotten meanwhile. -/
theorem entries_afterLoad_of_stored (hloading : c.loading.contains key = false)
    (hepoch : returned.epochOf key = c.epochOf key) (ttl : Nat) (value : Option α) :
    (c.afterLoad key ttl (.ok value : Except ε (Option α)) returned).entries =
      returned.entries.insert key
        ⟨value, returned.now + if value.isSome then ttl else returned.config.nullTtlMs⟩ := by
  unfold afterLoad
  rw [if_neg (Bool.eq_false_iff.1 hloading)]
  unfold Cache.store
  simp only
  split
  · rfl
  · next hne => exact absurd hepoch hne

/-- Otherwise the entries stay as the loader left them. -/
theorem entries_afterLoad_of_not (h : c.loading.contains key = true ∨ (∃ e, outcome = .error e) ∨
    returned.epochOf key ≠ c.epochOf key) :
    (c.afterLoad key ttl outcome returned).entries = returned.entries := by
  unfold afterLoad
  split
  · rfl
  · next hloading =>
    rcases h with h | ⟨e, rfl⟩ | h
    · exact absurd h hloading
    · rfl
    · cases outcome with
      | error e => rfl
      | ok value =>
        simp only [Cache.store]
        split
        · next heq => exact absurd heq h
        · rfl

theorem epochs_afterLoad (c : Cache α) (key : String) (ttl : Nat)
    (outcome : Except ε (Option α)) (returned : Cache α) :
    (c.afterLoad key ttl outcome returned).generation = returned.generation ∧
      (c.afterLoad key ttl outcome returned).epochs = returned.epochs := by
  unfold afterLoad Cache.store
  simp only
  split
  · exact ⟨rfl, rfl⟩
  · cases outcome with
    | ok value =>
      simp only
      split <;> exact ⟨rfl, rfl⟩
    | error e => exact ⟨rfl, rfl⟩

/-- A loader that returns while its key has the epoch of the beginning has supplied a value. -/
theorem supplied_of_load (h : c.Sound) (hreturned : (c.atLoad key).Keeps returned)
    (hepoch : returned.epochOf key = c.epochOf key) (value : Option α) :
    Supplied (.loaded c.loadCount value :: returned.journal) key value := by
  obtain ⟨more, hmore⟩ := hreturned.journal
  obtain ⟨before, hbefore, -⟩ := journal_atLoad c key
  rw [← epochOf_atLoad c key,
    epochOf_eq_iff (Keeps.atLoad h key).sound hreturned.sound hmore.symm] at hepoch
  have hjournal : .loaded c.loadCount value :: returned.journal =
      (.loaded c.loadCount value :: more) ++ .loadStarted c.loadCount key :: before := by
    rw [← hmore, hbefore, List.cons_append]
  have hnumbered : Numbered (.loaded c.loadCount value :: returned.journal) :=
    hreturned.sound.numbered.cons fun _ _ hstart => by cases hstart
  rw [hjournal] at hnumbered ⊢
  refine ⟨_, _, _, rfl, List.mem_cons_self, fun e he => ?_, hnumbered.notMem⟩
  rcases List.mem_cons.1 he with rfl | he
  · rfl
  · exact hepoch e he

/-- Whether a load enters what it found, or not, the cache is sound. -/
theorem Keeps.afterLoad (h : c.Sound) (hreturned : (c.atLoad key).Keeps returned) (ttl : Nat)
    (outcome : Except ε (Option α)) : c.Keeps (c.afterLoad key ttl outcome returned) := by
  have hnoted : c.Keeps (returned.record (.ofOutcome c.loadCount outcome)) :=
    ((Keeps.atLoad h key).trans hreturned).record (CacheEvent.forgets_ofOutcome _ _)
      fun _ _ hstart => absurd hstart (CacheEvent.ofOutcome_ne_loadStarted _ _ _ _)
  have hjournal := journal_afterLoad c key ttl outcome returned
  obtain ⟨hgeneration, hepochs⟩ := epochs_afterLoad c key ttl outcome returned
  refine ⟨?_, by rw [hjournal]; exact hnoted.journal⟩
  -- Either nothing is stored, or what the loader has supplied, with no forgetting in between.
  by_cases hkept : c.loading.contains key = true ∨ (∃ e, outcome = .error e) ∨
      returned.epochOf key ≠ c.epochOf key
  · exact hnoted.sound.congr hjournal hgeneration hepochs (entries_afterLoad_of_not hkept)
  · rw [not_or, not_or, not_not] at hkept
    obtain ⟨hloading, houtcome, hepoch⟩ := hkept
    obtain ⟨value, rfl⟩ : ∃ value, outcome = .ok value := by
      cases outcome with
      | ok value => exact ⟨value, rfl⟩
      | error e => exact absurd ⟨e, rfl⟩ houtcome
    have hentries := entries_afterLoad_of_stored (ε := ε) (Bool.eq_false_iff.2 hloading) hepoch ttl
      value
    refine ⟨?_, fun other => ?_, ?_, fun other e he => ?_⟩
    · rw [hgeneration, hjournal]
      exact hnoted.sound.generation
    · rw [hepochs, hjournal]
      exact hnoted.sound.epochs other
    · rw [hjournal]
      exact hnoted.sound.numbered
    · rw [hentries, SortedMap.get?_insert] at he
      rw [hjournal]
      split at he
      · next heq =>
        obtain rfl := heq
        rw [← Option.some.inj he]
        exact supplied_of_load h hreturned hepoch value
      · exact hnoted.sound.entries other e he

/-- A request keeps the cache sound if its loader does. -/
theorem Keeps.get (h : c.Sound) (key : String) (ttl : Nat) {loader : Loader ε α ρ}
    (hloader : ∀ c : Cache α, c.Sound → c.Keeps (loader c).2) : c.Keeps (c.get key ttl loader).2 := by
  have hanswered := get_answered c key ttl loader
  generalize c.get key ttl loader = answer at hanswered ⊢
  have hneutral {c c' : Cache α} (h : c.Keeps c') {e : CacheEvent α}
      (he : ∀ key, e.forgets key = false) (hstart : e.isLoadStart = false) :
      c.Keeps (c'.record e) :=
    h.record he fun load key heq => by rw [heq] at hstart; cases hstart
  cases hanswered with
  | rejected _ => exact hneutral (.self h) (fun _ => rfl) rfl
  | fresh _ e _ _ => exact hneutral (.self h) (fun _ => rfl) rfl
  | stale _ e _ value _ _ =>
    exact hneutral (hneutral (.self h) (fun _ => rfl) rfl)
      (fun _ => rfl) rfl
  | loaded _ loaded returned hloaded =>
    have hreturned := hloader _ (Keeps.atLoad h key).sound
    rw [hloaded] at hreturned
    exact .afterLoad h hreturned ttl loaded.outcome

theorem Keeps.of_sound (h : c'.Sound) (hjournal : c'.journal = c.journal) : c.Keeps c' :=
  ⟨h, hjournal ▸ List.suffix_rfl⟩

theorem journal_onCommitted (c : Cache α) (slices : List SliceId) :
    c.journal <:+ (c.onCommitted slices).journal := by
  unfold onCommitted
  induction slices generalizing c with
  | nil => exact List.suffix_rfl
  | cons id slices ih => exact (List.suffix_cons _ _).trans (ih (c.invalidate id.key))

theorem journal_register (c : Cache α) (keys : List String) :
    (c.register keys).journal = c.journal := by
  unfold register
  split <;> rfl

end Cache

/-! ### Programs -/

namespace CacheOp

open Cache

variable {ε α : Type}

/-- What runs while a key is being loaded. -/
def loader (during : List (CacheOp ε α)) (outcome : Except ε (Option α)) :
    Loader ε α (List (CacheAnswer ε α)) := fun c =>
  (⟨outcome, (runAll during c).1⟩, (runAll during c).2)

theorem run_get (key : String) (ttl : Nat) (during : List (CacheOp ε α))
    (outcome : Except ε (Option α)) (c : Cache α) :
    run (.get key ttl during outcome) c =
      (.got (c.get key ttl (loader during outcome)).1.outcome
        (c.get key ttl (loader during outcome)).1.report,
        (c.get key ttl (loader during outcome)).2) := by
  rw [run]
  rfl

mutual

/-- **Every operation keeps the cache sound**, whatever its loader does. -/
theorem keeps_run : ∀ (op : CacheOp ε α) {c : Cache α}, c.Sound → c.Keeps (run op c).2
  | .get key ttl during outcome, c, h => by
    rw [run_get]
    exact Keeps.get h key ttl fun c' h' => keeps_runAll during h'
  | .register keys, c, h => by
    rw [run]
    exact .of_sound (h.register keys) (journal_register c keys)
  | .resetFilter keys, c, h => by
    rw [run]
    exact .of_sound (h.congr rfl rfl rfl rfl) rfl
  | .invalidate key, c, h => by
    rw [run]
    exact ⟨h.invalidate key, List.suffix_cons _ _⟩
  | .clear, c, h => by
    rw [run]
    exact ⟨h.clear, List.suffix_cons _ _⟩
  | .beforeCommit slices, c, h => by
    rw [run]
    exact .of_sound (h.register _) (journal_register c _)
  | .onCommitted slices, c, h => by
    rw [run]
    exact ⟨h.onCommitted slices, journal_onCommitted c slices⟩
  | .advance ms, c, h => by
    rw [run]
    exact .of_sound (h.congr rfl rfl rfl rfl) rfl
  | .stats, c, h => by
    rw [run]
    exact .self h

/-- So does every program. -/
theorem keeps_runAll : ∀ (ops : List (CacheOp ε α)) {c : Cache α}, c.Sound →
    c.Keeps (runAll ops c).2
  | [], c, h => by
    rw [runAll]
    exact .self h
  | op :: ops, c, h => by
    rw [runAll]
    have hop := keeps_run op h
    exact hop.trans (keeps_runAll ops hop.sound)

end

/-- **An operation is performed on a cache in the course of a program,** at any depth. -/
inductive Performs : List (CacheOp ε α) → Cache α → CacheOp ε α → Cache α → Prop where
  /-- It is the first of the program. -/
  | here (op : CacheOp ε α) (ops : List (CacheOp ε α)) (c : Cache α) : Performs (op :: ops) c op c
  /-- It is performed later. -/
  | later {op : CacheOp ε α} {ops : List (CacheOp ε α)} {c : Cache α} {op' : CacheOp ε α}
      {c' : Cache α} (h : Performs ops (run op c).2 op' c') : Performs (op :: ops) c op' c'
  /-- It is performed by the loader of a key, which is called. -/
  | during {key : String} {ttl : Nat} {during ops : List (CacheOp ε α)}
      {outcome : Except ε (Option α)} {c : Cache α} {op' : CacheOp ε α} {c' : Cache α}
      {answer : Except ε (Option α)} {answers : List (CacheAnswer ε α)}
      (hcalled : (run (.get key ttl during outcome) c).1 = .got answer (some answers))
      (h : Performs during (c.atLoad key) op' c') :
      Performs (.get key ttl during outcome :: ops) c op' c'

/-- Whatever is performed in the course of a program finds a sound cache. -/
theorem Performs.sound {ops : List (CacheOp ε α)} {c : Cache α} {op : CacheOp ε α} {c' : Cache α}
    (h : Performs ops c op c') (hc : c.Sound) : c'.Sound := by
  induction h with
  | here op ops c => exact hc
  | later h ih => exact ih (keeps_run _ hc).sound
  | during hcalled h ih => exact ih (Keeps.atLoad hc _).sound

/-- **Values are current.**  Wherever in a program a key is asked for, at whatever depth: if no loader
is called and the filter does not reject the key, the answer is a value that a loader of the key has
found which was called after the key was forgotten for the last time; and no entry changes.  If the
loader is called, the journal notes its beginning and its outcome, which is the answer; and afterwards
the entries are as the loader left them if the key was being loaded already, the loader failed, or the
key was forgotten meanwhile.  Otherwise what was found is entered. -/
theorem current_of_performs {config : CacheConfig} {program : List (CacheOp ε α)} {key : String}
    {ttl : Nat} {during : List (CacheOp ε α)} {outcome : Except ε (Option α)} {c : Cache α}
    (h : Performs program (Cache.new config) (.get key ttl during outcome) c) :
    (∀ answer, (run (.get key ttl during outcome) c).1 = .got answer none →
      (run (.get key ttl during outcome) c).2.entries = c.entries ∧
      (c.rejects key = false → ∃ value, answer = .ok value ∧ Supplied c.journal key value)) ∧
    (∀ answer answers, (run (.get key ttl during outcome) c).1 = .got answer (some answers) →
      answer = outcome ∧ (c.atLoad key).entries = c.entries ∧
      ∃ returned before more, (answers, returned) = runAll during (c.atLoad key) ∧
        (c.atLoad key).journal = .loadStarted c.loadCount key :: before ∧
        returned.journal = more ++ (c.atLoad key).journal ∧
        (run (.get key ttl during outcome) c).2.journal =
          .ofOutcome c.loadCount outcome :: returned.journal ∧
        ((c.loading.contains key = true ∨ (∃ e, outcome = .error e) ∨
            ∃ e ∈ more, e.forgets key = true) →
          (run (.get key ttl during outcome) c).2.entries = returned.entries) ∧
        (∀ value, c.loading.contains key = false → outcome = .ok value →
            (∀ e ∈ more, e.forgets key = false) →
          (run (.get key ttl during outcome) c).2.entries = returned.entries.insert key
            ⟨value, returned.now + if value.isSome then ttl else returned.config.nullTtlMs⟩)) := by
  have hc := h.sound (sound_new config)
  have hanswered := get_answered c key ttl (loader during outcome)
  rw [run_get]
  generalize c.get key ttl (loader during outcome) = answer at hanswered ⊢
  -- The answer comes from the filter, from an entry that is fresh or stale, or from the loader.
  cases hanswered with
  | rejected hrejects =>
    refine ⟨fun answer _ => ⟨rfl, fun hseen => ?_⟩, fun answer answers hcalled => ?_⟩
    · rw [hseen] at hrejects
      cases hrejects
    · cases hcalled
  | fresh _ e he _ =>
    refine ⟨fun answer hanswer => ⟨rfl, fun _ => ?_⟩, fun answer answers hcalled => ?_⟩
    · cases hanswer
      exact ⟨e.value, rfl, hc.entries key e he⟩
    · cases hcalled
  | stale _ e he value hvalue _ =>
    refine ⟨fun answer hanswer => ⟨rfl, fun _ => ?_⟩, fun answer answers hcalled => ?_⟩
    · cases hanswer
      refine ⟨some value, rfl, ?_⟩
      rw [← hvalue]
      exact hc.entries key e he
    · cases hcalled
  | loaded _ loaded returned hloaded =>
    cases hloaded
    refine ⟨fun answer hanswer => ?_, fun answer answers hcalled => ?_⟩
    · cases hanswer
    cases hcalled
    -- Whatever the loader does meanwhile only adds to the journal, and the epoch of the key is the
    -- same exactly if nothing of it forgets the key.
    have hreturned := keeps_runAll during (Keeps.atLoad hc key).sound
    obtain ⟨more, hmore⟩ := hreturned.journal
    obtain ⟨before, hbefore, -⟩ := journal_atLoad c key
    have hepoch := @epochOf_eq_iff _ _ _ key (Keeps.atLoad hc key).sound hreturned.sound _ hmore.symm
    rw [epochOf_atLoad] at hepoch
    refine ⟨rfl, entries_atLoad c key, _, before, more, rfl, hbefore, hmore.symm,
      journal_afterLoad .., ?_, ?_⟩
    · rintro (hloading | hfailed | ⟨e, he, hforgets⟩)
      · exact entries_afterLoad_of_not (.inl hloading)
      · exact entries_afterLoad_of_not (.inr (.inl hfailed))
      · refine entries_afterLoad_of_not (.inr (.inr fun heq => ?_))
        have := hepoch.1 heq e he
        rw [hforgets] at this
        cases this
    · rintro value hloading rfl hkept
      exact entries_afterLoad_of_stored hloading (hepoch.2 hkept) ttl value

/-- The key `a` is loaded, is over at once, and is asked for by its own next loader, which is given
the expired value. -/
theorem current_of_performs_stale :
    let again : CacheOp String Nat := .get "a" 5 [] (.ok (some 2))
    ∃ c, Performs [.get "a" 0 [] (.ok (some 1)), .get "a" 5 [again] (.ok (some 3))]
        (Cache.new { filterEnabled := false }) again c ∧
      (run again c).1 = .got (.ok (some 1)) none ∧ Supplied c.journal "a" (some 1) := by
  intro again
  have h : Performs [.get "a" 0 [] (.ok (some 1)), .get "a" 5 [again] (.ok (some 3))]
      (Cache.new { filterEnabled := false }) again _ := .later (.during rfl (.here again [] _))
  refine ⟨_, h, rfl, ?_⟩
  obtain ⟨value, hvalue, hsupplied⟩ := ((current_of_performs h).1 _ rfl).2 rfl
  cases hvalue
  exact hsupplied

end CacheOp

end RetailReport
