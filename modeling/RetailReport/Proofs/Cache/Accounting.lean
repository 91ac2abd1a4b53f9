import Mathlib.Data.List.Perm.Basic
import RetailReport.Cache.Call
import RetailReport.Proofs.Cache.Epochs

/-!
# The statistics of the cache balance

Each request is answered in one of eight ways, and the way decides which counters go up.  They go up
one after the other while the request is under way, and others count between them; a loader may send
requests itself, and it may fail in the end.  So the requests are followed one by one: what a request
has counted so far is told by the place that it has reached, and all that was counted is what all
requests have counted.

A request whose second look finds a fresh entry has counted a miss before and counts a hit then, with
no load.  This takes two callers: a caller that comes alone, and whose loaders ask the cache
themselves, at any depth, never finds at its second look what it has not found at the first one.  What
was asked by such a caller is read off the answers, which do not know of the journal.

## Main definitions

* `CacheCounter`, `Cache.counted`: the counters that have gone up.
* `CacheCall.counts`: those that a request has made go up.
* `CacheFloor.Accounted`: all that was counted comes from requests.
* `CacheCounter.Totals`: what requests that are over have counted.
* `CacheAnswer.requests`: the requests behind an answer, those of loaders included.
* `CacheFloor.Performs`: what a program does can happen on the floor.

## Main results

* `CacheFloor.accounted_act`, `CacheFloor.accounted_run`: every step keeps the accounts.
* `CacheFloor.performs_run`, `CacheFloor.performs_runAll`: operation by operation, a program happens on
  the floor.
* `CacheFloor.statistics_balance`: **the statistics balance**.
* `CacheFloor.unbalanced_secondLooks`: answers at the second look upset the plain balance.
-/

namespace RetailReport

/-! ### Counters -/

/-- The counters of a cache. -/
inductive CacheCounter where
  /-- A fresh value was given. -/
  | hit
  /-- There was no fresh entry. -/
  | miss
  /-- It was known that there is no value. -/
  | nullHit
  /-- The filter never saw the key. -/
  | filterReject
  /-- A loader was called. -/
  | load
  /-- An expired value was given. -/
  | staleServed
  /-- A wait was in vain. -/
  | lockTimeout
deriving DecidableEq

/-- The counter of fresh entries with a value, or of those without one. -/
def CacheCounter.ofValue {α : Type} : Option α → CacheCounter
  | some _ => .hit
  | none => .nullHit

/-- The counter that goes up with an event. -/
def CacheEvent.counter? {α : Type} : CacheEvent α → Option CacheCounter
  | .rejected _ => some .filterReject
  | .served _ value => some (.ofValue value)
  | .missed _ => some .miss
  | .servedStale _ _ => some .staleServed
  | .gaveUp _ => some .lockTimeout
  | .loadStarted _ _ => some .load
  | .loaded _ _ | .loadFailed _ | .invalidated _ | .cleared => none

namespace Cache

variable {α ε ρ : Type}

/-- **The counters that have gone up**, each one as often as it has, the latest first. -/
def counted (c : Cache α) : List CacheCounter := c.journal.filterMap CacheEvent.counter?

/-- The events of a kind are those that a counter goes up with. -/
theorem countP_journal (c : Cache α) (k : CacheCounter) {p : CacheEvent α → Bool}
    (h : ∀ e, p e = (e.counter? == some k)) : c.journal.countP p = c.counted.count k := by
  rw [counted, List.count, List.countP_filterMap]
  refine List.countP_congr fun e _ => ?_
  rw [h]
  cases e.counter? <;> simp

/-- **The statistics of a cache** are its counters, beside the sizes of what it holds. -/
theorem stats_eq (c : Cache α) : c.stats =
    { hits := c.counted.count .hit
      misses := c.counted.count .miss
      nullHits := c.counted.count .nullHit
      filterRejects := c.counted.count .filterReject
      loads := c.counted.count .load
      staleServed := c.counted.count .staleServed
      lockTimeouts := c.counted.count .lockTimeout
      entries := c.entries.size
      filterKeys := c.filter.inserted } := by
  unfold stats loadCount
  congr 1 <;> refine c.countP_journal _ fun e => ?_ <;> cases e <;> try rfl
  all_goals
    next value => cases value <;> rfl

theorem counted_store (c : Cache α) (key : String) (epoch : Nat × Nat) (ttl : Nat)
    (value : Option α) : (c.store key epoch ttl value).counted = c.counted := by
  unfold Cache.store
  split <;> rfl

theorem counted_register (c : Cache α) (keys : List String) :
    (c.register keys).counted = c.counted := by
  rw [counted, journal_register, counted]

end Cache

/-! ### Requests -/

/-- What a request has counted that was answered in a certain way. -/
def CacheExit.counts {ε α : Type} (outcome : Except ε (Option α)) : CacheExit → List CacheCounter
  | .rejected => [.filterReject]
  | .fresh => [.ofValue outcome.toOption.join]
  | .found _ => [.ofValue outcome.toOption.join, .miss]
  | .loaded _ => [.load, .miss]
  | .stale => [.staleServed, .miss]
  | .bypassed => [.load, .lockTimeout, .miss]

namespace CacheCall

variable {ε α : Type}

/-- **What a request has counted so far**, the latest first. -/
def counts (r : CacheCall ε α) : List CacheCounter :=
  match r.stage with
  | .asking | .looking => []
  | .missing _ | .waiting | .holding _ | .lacking _ => [.miss]
  | .loading _ _ _ | .storing _ _ _ => [.load, .miss]
  | .bypassing _ => [.load, .lockTimeout, .miss]
  | .leaving exit outcome | .finished exit outcome => exit.counts outcome

/-- Something happens to a request: what it counts is counted. -/
def CountsWith (r : CacheCall ε α) (c : Cache α) (next : CacheCall ε α × Cache α) : Prop :=
  ∃ more, next.1.counts = more ++ r.counts ∧ next.2.counted = more ++ c.counted

variable {r : CacheCall ε α} {c : Cache α}

/-- A step that counts nothing. -/
theorem CountsWith.none {next : CacheCall ε α × Cache α} (hcall : next.1.counts = r.counts)
    (hcache : next.2.counted = c.counted) : r.CountsWith c next := ⟨[], hcall, hcache⟩

/-- **A step of a request** counts what it counts. -/
theorem countsWith_step (r : CacheCall ε α) (c : Cache α) : r.CountsWith c (r.step c) := by
  obtain ⟨key, ttl, stage⟩ := r
  cases stage with
  | asking =>
    unfold step
    dsimp only
    split
    · exact ⟨[.filterReject], rfl, rfl⟩
    · exact .none rfl rfl
  | looking =>
    unfold step
    dsimp only
    split
    · next value _ => exact ⟨[.ofValue value], rfl, rfl⟩
    · exact ⟨[.miss], rfl, rfl⟩
    · exact ⟨[.miss], rfl, rfl⟩
  | missing stale =>
    unfold step
    dsimp only
    split
    · cases stale with
      | some value => exact ⟨[.staleServed], rfl, rfl⟩
      | none => exact .none rfl rfl
    · exact .none rfl rfl
  | waiting =>
    unfold step
    dsimp only
    split <;> exact .none rfl rfl
  | holding waited =>
    unfold step
    dsimp only
    split
    · next value _ => exact ⟨[.ofValue value], rfl, rfl⟩
    · exact .none rfl rfl
  | lacking waited => exact ⟨[.load], rfl, rfl⟩
  | storing waited epoch value => exact .none rfl (c.counted_store key epoch ttl value)
  | leaving exit outcome => exact .none rfl rfl
  | loading waited load epoch => exact .none rfl rfl
  | bypassing load => exact .none rfl rfl
  | finished exit outcome => exact .none rfl rfl

/-- The second look finds no fresh entry. -/
theorem step_holding {key : String} {ttl : Nat} {waited : Bool}
    (h : ∀ value, c.look key ≠ .fresh value) :
    (⟨key, ttl, .holding waited⟩ : CacheCall ε α).step c = (⟨key, ttl, .lacking waited⟩, c) := by
  unfold step
  dsimp only
  split
  · next value hlook => exact absurd hlook (h value)
  · rfl

theorem countsWith_giveUp (r : CacheCall ε α) (c : Cache α) : r.CountsWith c (r.giveUp c) := by
  obtain ⟨key, ttl, stage⟩ := r
  cases stage with
  | waiting => exact ⟨[.load, .lockTimeout], rfl, rfl⟩
  | _ => exact .none rfl rfl

/-- What a loader gives, or that it fails, is not counted. -/
theorem countsWith_returned (outcome : Except ε (Option α)) (r : CacheCall ε α) (c : Cache α) :
    r.CountsWith c (r.returned outcome c) := by
  obtain ⟨key, ttl, stage⟩ := r
  cases stage with
  | loading waited load epoch => cases outcome <;> exact .none rfl rfl
  | bypassing load => cases outcome <;> exact .none rfl rfl
  | _ => exact .none rfl rfl

end CacheCall

/-! ### The floor -/

/-- One member of a list has some more parts. -/
theorem List.perm_flatMap_set {α β : Type} (f : α → List β) {l : List α} {place : Nat} {a b : α}
    {more : List β} (h : l[place]? = some a) (hb : f b = more ++ f a) :
    ((l.set place b).flatMap f).Perm (more ++ l.flatMap f) := by
  induction l generalizing place with
  | nil => cases h
  | cons x l ih =>
    cases place with
    | zero =>
      obtain rfl := Option.some.inj h
      rw [List.set_cons_zero, List.flatMap_cons, List.flatMap_cons, hb, List.append_assoc]
    | succ place =>
      rw [List.set_cons_succ, List.flatMap_cons, List.flatMap_cons]
      exact ((ih h).append_left (f x)).trans (List.perm_append_comm_assoc _ _ _)

namespace CacheFloor

variable {ε α : Type} {w : CacheFloor ε α}

/-- **All that was counted comes from requests.** -/
def Accounted (w : CacheFloor ε α) : Prop := w.cache.counted.Perm (w.calls.flatMap CacheCall.counts)

theorem Accounted.advance (h : w.Accounted) (place : Nat)
    {f : CacheCall ε α → Cache α → CacheCall ε α × Cache α}
    (hf : ∀ r c, CacheCall.CountsWith r c (f r c)) : (w.advance place f).Accounted := by
  unfold CacheFloor.advance
  split
  · next r hr =>
    obtain ⟨more, hcounts, hcounted⟩ := hf r w.cache
    have hset := List.perm_flatMap_set CacheCall.counts hr hcounts
    unfold Accounted
    dsimp only
    rw [hcounted]
    exact (h.append_left more).trans hset.symm
  · exact h

/-- What is counted stays, and so do the requests. -/
theorem Accounted.of_counted_eq (h : w.Accounted) {c : Cache α} (hc : c.counted = w.cache.counted) :
    Accounted { w with cache := c } := by
  unfold Accounted
  rw [hc]
  exact h

/-- **Whatever happens keeps the accounts.** -/
theorem accounted_act (h : w.Accounted) (a : CacheAct ε α) : (w.act a).Accounted := by
  cases a with
  | ask key ttl =>
    -- A request that has just been made has counted nothing.
    unfold Accounted CacheFloor.act
    rw [List.flatMap_append]
    exact h.trans (List.append_nil _ ▸ .refl _)
  | step place => exact h.advance place CacheCall.countsWith_step
  | giveUp place => exact h.advance place CacheCall.countsWith_giveUp
  | returned place outcome => exact h.advance place (CacheCall.countsWith_returned outcome)
  | register keys => exact h.of_counted_eq (w.cache.counted_register keys)
  | resetFilter _ | outdate _ | drop _ | outdateAll | dropAll | elapse _ => exact h

/-- So does a whole run. -/
theorem accounted_run (h : w.Accounted) (acts : List (CacheAct ε α)) : (w.run acts).Accounted := by
  induction acts generalizing w with
  | nil => exact h
  | cons a acts ih => exact ih (accounted_act h a)

theorem accounted_new (config : CacheConfig) :
    Accounted (⟨Cache.new config, []⟩ : CacheFloor ε α) := .refl []

end CacheFloor

/-! ### Requests that are over -/

/-- **What some requests that are over have counted**, of which some have found their answer at the
second look, and some have called their loader. -/
structure CacheCounter.Totals (counted : List CacheCounter) (requests found called : Nat) : Prop where
  /-- A request is counted once, and once more if the second look has found something. -/
  requests : requests + found = counted.count .filterReject + counted.count .hit +
    counted.count .nullHit + counted.count .miss
  /-- A miss ends in a load, an expired value, or at the second look. -/
  misses : counted.count .miss = counted.count .load + counted.count .staleServed + found
  /-- Whoever has waited in vain loads for himself. -/
  lockTimeouts : counted.count .lockTimeout ≤ counted.count .load
  /-- Loads are calls of loaders. -/
  loads : counted.count .load = called

namespace CacheCounter

theorem Totals.append {counted counted' : List CacheCounter} {n n' found found' called called' : Nat}
    (h : Totals counted n found called) (h' : Totals counted' n' found' called') :
    Totals (counted ++ counted') (n + n') (found + found') (called + called') := by
  have hrequests := h.requests
  have hrequests' := h'.requests
  have hmisses := h.misses
  have hmisses' := h'.misses
  have hlockTimeouts := h.lockTimeouts
  have hlockTimeouts' := h'.lockTimeouts
  constructor
  · simp only [List.count_append]
    omega
  · simp only [List.count_append]
    omega
  · simp only [List.count_append]
    omega
  · rw [List.count_append, h.loads, h'.loads]

theorem Totals.of_perm {counted counted' : List CacheCounter} {n found called : Nat}
    (h : Totals counted n found called) (hperm : counted'.Perm counted) :
    Totals counted' n found called where
  requests := by simpa only [hperm.count_eq] using h.requests
  misses := by simpa only [hperm.count_eq] using h.misses
  lockTimeouts := by simpa only [hperm.count_eq] using h.lockTimeouts
  loads := by simpa only [hperm.count_eq] using h.loads

/-- An answer from a fresh entry, at the first look or at the second one. -/
theorem totals_ofValue {α : Type} (value : Option α) :
    Totals [.ofValue value] 1 0 0 ∧ Totals [.ofValue value, .miss] 1 1 0 := by
  cases value with
  | some value => exact ⟨⟨rfl, rfl, Nat.le_refl _, rfl⟩, ⟨rfl, rfl, Nat.le_refl _, rfl⟩⟩
  | none => exact ⟨⟨rfl, rfl, Nat.le_refl _, rfl⟩, ⟨rfl, rfl, Nat.le_refl _, rfl⟩⟩

end CacheCounter

open CacheCounter (Totals)

variable {ε α : Type}

/-- **A request that is over**, whichever way it was answered. -/
theorem CacheCall.totals_counts {r : CacheCall ε α} (h : r.isOver = true) :
    Totals r.counts 1 (if r.found then 1 else 0) (if r.called then 1 else 0) := by
  obtain ⟨key, ttl, stage⟩ := r
  cases stage with
  | finished exit outcome =>
    cases exit with
    | rejected => exact ⟨rfl, rfl, Nat.le_refl _, rfl⟩
    | fresh => exact (CacheCounter.totals_ofValue outcome.toOption.join).1
    | found waited => exact (CacheCounter.totals_ofValue outcome.toOption.join).2
    | loaded waited => exact ⟨rfl, rfl, Nat.zero_le _, rfl⟩
    | stale => exact ⟨rfl, rfl, Nat.le_refl _, rfl⟩
    | bypassed => exact ⟨rfl, rfl, Nat.le_refl _, rfl⟩
  | _ => cases h

/-- So are any number of them. -/
theorem CacheCall.totals_flatMap {calls : List (CacheCall ε α)} (h : ∀ r ∈ calls, r.isOver = true) :
    Totals (calls.flatMap counts) calls.length (calls.countP (·.found)) (calls.countP (·.called)) := by
  induction calls with
  | nil => exact ⟨rfl, rfl, Nat.le_refl _, rfl⟩
  | cons r calls ih =>
    have hr := totals_counts (h r List.mem_cons_self)
    have hall := hr.append (ih fun r' hr' => h r' (List.mem_cons_of_mem _ hr'))
    rw [List.flatMap_cons, List.length_cons, List.countP_cons, List.countP_cons, Nat.add_comm _ 1,
      Nat.add_comm _ (if r.found then 1 else 0), Nat.add_comm _ (if r.called then 1 else 0)]
    exact hall

/-! ### Programs on the floor -/

/-- A request that has been answered. -/
structure CacheRequest (ε α : Type) where
  /-- The answer. -/
  outcome : Except ε (Option α)
  /-- Whether the loader was called for it. -/
  called : Bool

namespace CacheAnswer

mutual

/-- **The requests behind an answer**, those of loaders included. -/
def requests : CacheAnswer ε α → List (CacheRequest ε α)
  | .got outcome (some during) => ⟨outcome, true⟩ :: requestsAll during
  | .got outcome none => [⟨outcome, false⟩]
  | .filterKeys _ | .entries _ | .stats _ => []

/-- The requests behind the answers of a program. -/
def requestsAll : List (CacheAnswer ε α) → List (CacheRequest ε α)
  | [] => []
  | answer :: answers => requests answer ++ requestsAll answers

end

end CacheAnswer

/-- What a request was answered that is over, unless its second look has found the answer. -/
def CacheCall.request? (r : CacheCall ε α) : Option (CacheRequest ε α) :=
  match r.stage with
  | .finished _ outcome => if r.found then none else some ⟨outcome, r.called⟩
  | _ => none

theorem CacheCall.of_request? {r : CacheCall ε α} {q : CacheRequest ε α} (h : r.request? = some q) :
    r.isOver = true ∧ r.found = false ∧ r.called = q.called := by
  obtain ⟨key, ttl, stage⟩ := r
  cases stage with
  | finished exit outcome =>
    unfold request? at h
    dsimp only at h
    split at h
    · cases h
    · next hfound =>
      obtain rfl := Option.some.inj h
      exact ⟨rfl, Bool.eq_false_iff.2 hfound, rfl⟩
  | _ => cases h

namespace CacheFloor

/-- One floor can become another. -/
def Leads (w w' : CacheFloor ε α) : Prop := ∃ acts, w.run acts = w'

theorem Leads.self (w : CacheFloor ε α) : w.Leads w := ⟨[], rfl⟩

theorem Leads.trans {w w' w'' : CacheFloor ε α} (h : w.Leads w') (h' : w'.Leads w'') :
    w.Leads w'' := by
  obtain ⟨acts, rfl⟩ := h
  obtain ⟨more, rfl⟩ := h'
  exact ⟨acts ++ more, List.foldl_append⟩

theorem Leads.act (w : CacheFloor ε α) (a : CacheAct ε α) : w.Leads (w.act a) := ⟨[a], rfl⟩

variable {c : Cache α} {before after : List (CacheCall ε α)} {r : CacheCall ε α}

theorem advance_length (c : Cache α) (before after : List (CacheCall ε α)) (r : CacheCall ε α)
    (f : CacheCall ε α → Cache α → CacheCall ε α × Cache α) :
    advance ⟨c, before ++ r :: after⟩ before.length f =
      ⟨(f r c).2, before ++ (f r c).1 :: after⟩ := by
  have hget : (before ++ r :: after)[before.length]? = some r := by
    rw [List.getElem?_append_right (Nat.le_refl _), Nat.sub_self]
    rfl
  simp only [advance, hget, List.set_append_right _ _ (Nat.le_refl _), Nat.sub_self,
    List.set_cons_zero]

/-- What happens to a request, with the requests around it. -/
theorem leads_step (c : Cache α) (before after : List (CacheCall ε α)) (r : CacheCall ε α) :
    Leads ⟨c, before ++ r :: after⟩ ⟨(r.step c).2, before ++ (r.step c).1 :: after⟩ :=
  ⟨[.step before.length], advance_length c before after r CacheCall.step⟩

theorem leads_giveUp (c : Cache α) (before after : List (CacheCall ε α)) (r : CacheCall ε α) :
    Leads ⟨c, before ++ r :: after⟩ ⟨(r.giveUp c).2, before ++ (r.giveUp c).1 :: after⟩ :=
  ⟨[.giveUp before.length], advance_length c before after r CacheCall.giveUp⟩

theorem leads_returned (outcome : Except ε (Option α)) (c : Cache α)
    (before after : List (CacheCall ε α)) (r : CacheCall ε α) :
    Leads ⟨c, before ++ r :: after⟩
      ⟨(r.returned outcome c).2, before ++ (r.returned outcome c).1 :: after⟩ :=
  ⟨[.returned before.length outcome], advance_length c before after r (CacheCall.returned outcome)⟩

/-- What the loader of a request does is done by others, and leaves them all answered. -/
def Performs (c : Cache α) (asked : List (CacheRequest ε α)) (c' : Cache α) : Prop :=
  ∀ before : List (CacheCall ε α), ∃ made, Leads ⟨c, before⟩ ⟨c', before ++ made⟩ ∧
    made.map CacheCall.request? = asked.map some

variable {c' : Cache α} {asked : List (CacheRequest ε α)}

theorem Performs.nil (c : Cache α) : Performs c ([] : List (CacheRequest ε α)) c :=
  fun before => ⟨[], by rw [List.append_nil]; exact .self _, rfl⟩

theorem Performs.append {c'' : Cache α} {more : List (CacheRequest ε α)} (h : Performs c asked c')
    (h' : Performs c' more c'') : Performs c (asked ++ more) c'' := by
  intro before
  obtain ⟨made, hleads, hmade⟩ := h before
  obtain ⟨made', hleads', hmade'⟩ := h' (before ++ made)
  refine ⟨made ++ made', ?_, by rw [List.map_append, List.map_append, hmade, hmade']⟩
  rw [← List.append_assoc]
  exact hleads.trans hleads'

/-- Something happens to the cache, and nobody asks. -/
theorem Performs.of_act {a : CacheAct ε α}
    (h : ∀ before : List (CacheCall ε α), act ⟨c, before⟩ a = ⟨c', before⟩) :
    Performs c ([] : List (CacheRequest ε α)) c' := by
  intro before
  refine ⟨[], ?_, rfl⟩
  rw [List.append_nil, ← h before]
  exact .act _ a

/-! ### A request alone -/

/-- **A loader runs without the lock**, with what the request has counted behind it. -/
theorem leads_bypassing (key : String) (ttl load : Nat) (outcome : Except ε (Option α))
    {returned : Cache α} (hduring : Performs c asked returned) (before : List (CacheCall ε α)) :
    ∃ made, Leads ⟨c, before ++ [⟨key, ttl, .bypassing load⟩]⟩
        ⟨returned.record (.ofOutcome load outcome), before ++ made⟩ ∧
      made.map CacheCall.request? = (⟨outcome, true⟩ :: asked).map some := by
  obtain ⟨made, hleads, hmade⟩ := hduring (before ++ [⟨key, ttl, .bypassing load⟩])
  rw [List.append_assoc, List.singleton_append] at hleads
  refine ⟨⟨key, ttl, .finished .bypassed outcome⟩ :: made, hleads.trans ?_, ?_⟩
  · exact leads_returned outcome returned before made ⟨key, ttl, .bypassing load⟩
  · rw [List.map_cons, List.map_cons, hmade]
    rfl

/-- The lock may as well be given back before the value is stored. -/
theorem store_unlock (c : Cache α) (key : String) (epoch : Nat × Nat) (ttl : Nat)
    (value : Option α) :
    { c.store key epoch ttl value with
      loading := (c.store key epoch ttl value).loading.erase key } =
      Cache.store { c with loading := c.loading.erase key } key epoch ttl value := by
  unfold Cache.store Cache.epochOf
  split <;> rfl

/-- **A request loads its key** under the lock, stores what was found, and gives the lock back. -/
theorem leads_load (key : String) (ttl : Nat) {during : List (CacheOp ε α)}
    (outcome : Except ε (Option α)) (c : Cache α)
    (hduring : ∀ c, Performs c (CacheAnswer.requestsAll (CacheOp.runAll during c).1)
      (CacheOp.runAll during c).2) (before : List (CacheCall ε α)) :
    let answer := c.load key ttl (CacheOp.loader during outcome)
    ∃ made, Leads ⟨{ c with loading := c.loading.add key }, before ++ [⟨key, ttl, .lacking false⟩]⟩
        ⟨answer.2, before ++ made⟩ ∧
      made.map CacheCall.request? =
        (CacheAnswer.requests (.got answer.1.outcome (some answer.1.report))).map some := by
  intro answer
  let locked : Cache α := { c with loading := c.loading.add key }
  let loading : CacheCall ε α := ⟨key, ttl, .loading false c.loadCount (c.epochOf key)⟩
  have hcalled : Leads ⟨locked, before ++ [⟨key, ttl, .lacking false⟩]⟩
      ⟨locked.record (.loadStarted c.loadCount key), before ++ [loading]⟩ :=
    leads_step locked before [] ⟨key, ttl, .lacking false⟩
  obtain ⟨made, hleads, hmade⟩ :=
    hduring (locked.record (.loadStarted c.loadCount key)) (before ++ [loading])
  rw [List.append_assoc, List.singleton_append] at hleads
  have hreturned := leads_returned outcome
    (CacheOp.runAll during (locked.record (.loadStarted c.loadCount key))).2 before made loading
  refine ⟨⟨key, ttl, .finished (.loaded false) outcome⟩ :: made,
    (hcalled.trans hleads).trans (hreturned.trans ?_), ?_⟩
  · cases outcome with
    | ok value =>
      refine (leads_step _ before made ⟨key, ttl, .storing false _ value⟩).trans ?_
      refine Eq.subst (motive := fun c => Leads _ ⟨c, _⟩) (store_unlock _ key _ ttl value) ?_
      exact leads_step _ before made ⟨key, ttl, .leaving (.loaded false) (.ok value)⟩
    | error e => exact leads_step _ before made ⟨key, ttl, .leaving (.loaded false) (.error e)⟩
  · have hanswer : answer.1 = ⟨outcome,
        (CacheOp.runAll during (locked.record (.loadStarted c.loadCount key))).1⟩ :=
      congrArg Prod.fst (c.load_eq key ttl (CacheOp.loader during outcome))
    rw [List.map_cons, hmade, hanswer]
    rfl

/-- **A request alone that has missed** is answered step by step as it is in one go: its second look
finds no more than the first one. -/
theorem leads_compute {key : String} (ttl : Nat) {during : List (CacheOp ε α)}
    (outcome : Except ε (Option α)) (hfresh : ∀ value, c.look key ≠ .fresh value)
    (hduring : ∀ c, Performs c (CacheAnswer.requestsAll (CacheOp.runAll during c).1)
      (CacheOp.runAll during c).2) (stale : Option α) (before : List (CacheCall ε α)) :
    let answer := c.compute key stale ttl (CacheOp.loader during outcome)
    ∃ made, Leads ⟨c.record (.missed key), before ++ [⟨key, ttl, .missing stale⟩]⟩
        ⟨answer.2, before ++ made⟩ ∧
      made.map CacheCall.request? =
        (CacheAnswer.requests (.got answer.1.outcome answer.1.report)).map some := by
  intro answer
  have htried := leads_step (c.record (.missed key)) before [] ⟨key, ttl, .missing stale⟩
  by_cases hloading : (c.record (.missed key)).loading.contains key = true
  · cases stale with
    | some value =>
      have hanswer : answer = (⟨.ok (some value), none⟩,
          (c.record (.missed key)).record (.servedStale key value)) := if_pos hloading
      simp only [CacheCall.step, if_pos hloading] at htried
      rw [hanswer]
      exact ⟨_, htried, rfl⟩
    | none =>
      have hanswer : answer = _ := if_pos hloading
      simp only [CacheCall.step, if_pos hloading] at htried
      obtain ⟨made, hleads, hmade⟩ := leads_bypassing key ttl c.loadCount outcome (hduring _)
        before
      rw [hanswer]
      exact ⟨made, (htried.trans (leads_giveUp _ before [] ⟨key, ttl, .waiting⟩)).trans hleads, hmade⟩
  · -- The lock is free, and nobody has stored anything between the two looks.
    have hanswer : answer = (((c.record (.missed key)).load key ttl
        (CacheOp.loader during outcome)).1.reply, ((c.record (.missed key)).load key ttl
        (CacheOp.loader during outcome)).2) := by
      refine (if_neg hloading).trans ?_
      split
      · next value hlook => exact absurd hlook (hfresh value)
      · rfl
    let locked : Cache α := { c.record (.missed key) with loading := c.loading.add key }
    have hlocked : Leads ⟨c.record (.missed key), before ++ [⟨key, ttl, .missing stale⟩]⟩
        ⟨locked, before ++ [⟨key, ttl, .holding false⟩]⟩ := by
      simp only [CacheCall.step, if_neg hloading] at htried
      exact htried
    have hlooked := leads_step locked before [] ⟨key, ttl, .holding false⟩
    rw [CacheCall.step_holding (c := locked) hfresh] at hlooked
    obtain ⟨made, hleads, hmade⟩ := leads_load key ttl outcome (c.record (.missed key)) hduring before
    rw [hanswer]
    exact ⟨made, (hlocked.trans hlooked).trans hleads, hmade⟩

/-- **A request alone** is answered step by step as it is in one go, and so are those that its loader
makes before it returns. -/
theorem performs_get (key : String) (ttl : Nat) {during : List (CacheOp ε α)}
    (outcome : Except ε (Option α)) (c : Cache α)
    (hduring : ∀ c, Performs c (CacheAnswer.requestsAll (CacheOp.runAll during c).1)
      (CacheOp.runAll during c).2) :
    Performs c (CacheAnswer.requests (CacheOp.run (.get key ttl during outcome) c).1)
      (CacheOp.run (.get key ttl during outcome) c).2 := by
  intro before
  rw [CacheOp.run_get]
  have hasked : Leads ⟨c, before⟩ ⟨c, before ++ [⟨key, ttl, .asking⟩]⟩ := .act _ (.ask key ttl)
  have hfilter := hasked.trans (leads_step c before [] ⟨key, ttl, .asking⟩)
  unfold Cache.get
  by_cases hrejects : c.rejects key = true
  · simp only [CacheCall.step, if_pos hrejects] at hfilter
    rw [if_pos hrejects]
    exact ⟨_, hfilter, rfl⟩
  · simp only [CacheCall.step, if_neg hrejects] at hfilter
    rw [if_neg hrejects]
    have hlooked := hfilter.trans (leads_step c before [] ⟨key, ttl, .looking⟩)
    cases hlook : c.look key with
    | fresh value =>
      simp only [CacheCall.step, hlook] at hlooked
      exact ⟨_, hlooked, rfl⟩
    | expired value =>
      simp only [CacheCall.step, hlook] at hlooked
      obtain ⟨made, hleads, hmade⟩ := leads_compute ttl outcome
        (fun _ => by rw [hlook]; exact nofun) hduring value before
      exact ⟨made, hlooked.trans hleads, hmade⟩
    | absent =>
      simp only [CacheCall.step, hlook] at hlooked
      obtain ⟨made, hleads, hmade⟩ := leads_compute ttl outcome
        (fun _ => by rw [hlook]; exact nofun) hduring none before
      exact ⟨made, hlooked.trans hleads, hmade⟩

theorem performs_invalidate (c : Cache α) (key : String) :
    Performs c ([] : List (CacheRequest ε α)) (c.invalidate key) := by
  have houtdated : Performs c ([] : List (CacheRequest ε α)) (c.outdate key) :=
    .of_act (a := .outdate key) fun _ => rfl
  exact houtdated.append (.of_act (a := .drop key) fun _ => rfl)

theorem performs_onCommitted (c : Cache α) (slices : List SliceId) :
    Performs c ([] : List (CacheRequest ε α)) (c.onCommitted slices) := by
  unfold Cache.onCommitted
  induction slices generalizing c with
  | nil => exact .nil c
  | cons id slices ih => exact (performs_invalidate c id.key).append (ih (c.invalidate id.key))

mutual

/-- **Every operation of a program** can happen on the floor, with the requests that it makes. -/
theorem performs_run : ∀ (op : CacheOp ε α) (c : Cache α),
    Performs c (CacheAnswer.requests (op.run c).1) (op.run c).2
  | .get key ttl during outcome, c => performs_get key ttl outcome c (performs_runAll during)
  | .register keys, c => by
    rw [CacheOp.run]
    exact .of_act (a := .register keys) fun _ => rfl
  | .resetFilter keys, c => by
    rw [CacheOp.run]
    exact .of_act (a := .resetFilter keys) fun _ => rfl
  | .invalidate key, c => by
    rw [CacheOp.run]
    exact performs_invalidate c key
  | .clear, c => by
    rw [CacheOp.run]
    have houtdated : Performs c ([] : List (CacheRequest ε α)) c.outdateAll :=
      .of_act (a := .outdateAll) fun _ => rfl
    exact houtdated.append (.of_act (a := .dropAll) fun _ => rfl)
  | .beforeCommit slices, c => by
    rw [CacheOp.run]
    exact .of_act (a := .register (slices.map SliceId.key)) fun _ => rfl
  | .onCommitted slices, c => by
    rw [CacheOp.run]
    exact performs_onCommitted c slices
  | .advance ms, c => by
    rw [CacheOp.run]
    exact .of_act (a := .elapse ms) fun _ => rfl
  | .stats, c => by
    rw [CacheOp.run]
    exact .nil c

/-- So can a whole program. -/
theorem performs_runAll : ∀ (ops : List (CacheOp ε α)) (c : Cache α),
    Performs c (CacheAnswer.requestsAll (CacheOp.runAll ops c).1) (CacheOp.runAll ops c).2
  | [], c => by
    rw [CacheOp.runAll]
    exact .nil c
  | op :: ops, c => by
    rw [CacheOp.runAll]
    exact (performs_run op c).append (performs_runAll ops _)

end

/-! ### The statistics balance -/

/-- The requests of a program, which are over, have counted as they were answered. -/
theorem totals_of_requests {made : List (CacheCall ε α)} {asked : List (CacheRequest ε α)}
    (h : made.map CacheCall.request? = asked.map some) :
    Totals (made.flatMap CacheCall.counts) asked.length 0 (asked.countP (·.called)) := by
  induction made generalizing asked with
  | nil =>
    obtain rfl := List.map_eq_nil_iff.1 h.symm
    exact ⟨rfl, rfl, Nat.le_refl _, rfl⟩
  | cons r made ih =>
    cases asked with
    | nil => cases h
    | cons q asked =>
      rw [List.map_cons, List.map_cons, List.cons.injEq] at h
      obtain ⟨hover, hfound, hcalled⟩ := CacheCall.of_request? h.1
      have hr := CacheCall.totals_counts hover
      rw [hfound, hcalled, if_neg Bool.false_ne_true] at hr
      rw [List.flatMap_cons, List.length_cons, List.countP_cons, Nat.add_comm _ 1,
        Nat.add_comm _ (if q.called then 1 else 0)]
      exact hr.append (ih h.2)

/-- **The statistics balance**, whenever no request is under way.

With any number of callers side by side, the requests, and once more those that were answered at the
second look, are the rejects of the filter, the hits, the hits without a value and the misses; the
misses are the loads, the expired values that were given and the answers at the second look; no more
waits were in vain than loaders were called; and the loads are the requests that the loader was called
for, whether it has failed or not.

A caller alone, whose loaders may ask the cache themselves to any depth, finds nothing at the second
look.  So after any program the requests, those of loaders included, are the rejects, the hits, the
hits without a value and the misses; and the misses are the loads and the expired values. -/
theorem statistics_balance (config : CacheConfig) :
    (∀ acts : List (CacheAct ε α),
      let floor := run ⟨Cache.new config, []⟩ acts
      let stats := floor.cache.stats
      let found := floor.calls.countP (·.found)
      (∀ r ∈ floor.calls, r.isOver = true) →
        floor.calls.length + found =
          stats.filterRejects + stats.hits + stats.nullHits + stats.misses ∧
        stats.misses = stats.loads + stats.staleServed + found ∧
        stats.lockTimeouts ≤ stats.loads ∧
        stats.loads = floor.calls.countP (·.called)) ∧
    ∀ program : List (CacheOp ε α),
      let stats := (CacheOp.runAll program (Cache.new config)).2.stats
      let asked := CacheAnswer.requestsAll (CacheOp.runAll program (Cache.new config)).1
      asked.length = stats.filterRejects + stats.hits + stats.nullHits + stats.misses ∧
      stats.misses = stats.loads + stats.staleServed ∧
      stats.lockTimeouts ≤ stats.loads ∧
      stats.loads = asked.countP (·.called) := by
  constructor
  · intro acts floor stats found hover
    have hcounted : Accounted floor := accounted_run (accounted_new config) acts
    have htotals := (CacheCall.totals_flatMap hover).of_perm hcounted
    rw [show stats = _ from Cache.stats_eq _]
    exact ⟨htotals.requests, htotals.misses, htotals.lockTimeouts, htotals.loads⟩
  · intro program stats asked
    -- What the program does happens on a floor, too, and the counters of a floor are known.
    obtain ⟨made, ⟨acts, hrun⟩, hmade⟩ := performs_runAll program (Cache.new config) []
    have hcounted := accounted_run (accounted_new config) acts
    rw [hrun, List.nil_append] at hcounted
    have htotals := (totals_of_requests hmade).of_perm hcounted
    rw [show stats = _ from Cache.stats_eq _]
    exact ⟨htotals.requests, htotals.misses, htotals.lockTimeouts, htotals.loads⟩

/-- Three callers ask for `a`, which nobody knows yet.  The first one loads it, while the second one
waits for the lock; the third one goes for the lock when it is free again. -/
def secondLooks : List (CacheAct String Nat) :=
  [.ask "a" 5, .ask "a" 5, .ask "a" 5] ++
    [.step 0, .step 0, .step 0, .step 0, .step 0] ++ [.step 1, .step 1, .step 1] ++
    [.step 2, .step 2] ++ [.returned 0 (.ok (some 7)), .step 0, .step 0] ++
    [.step 1, .step 1, .step 1] ++ [.step 2, .step 2, .step 2]

/-- All three miss, and two of them hit then, after a wait and without one; the balance has both. -/
theorem statistics_balance_secondLooks :
    let floor := run ⟨Cache.new { filterEnabled := false }, []⟩ secondLooks
    (∀ r ∈ floor.calls, r.isOver = true) ∧
      floor.calls.map (·.stage.exit?) =
        [some (.loaded false), some (.found true), some (.found false)] ∧
      3 + 2 = floor.cache.stats.filterRejects + floor.cache.stats.hits +
        floor.cache.stats.nullHits + floor.cache.stats.misses ∧
      floor.cache.stats.misses = floor.cache.stats.loads + floor.cache.stats.staleServed + 2 := by
  intro floor
  have hover : ∀ r ∈ floor.calls, r.isOver = true := by decide +kernel
  obtain ⟨hrequests, hmisses, -, -⟩ :=
    (statistics_balance { filterEnabled := false }).1 secondLooks hover
  refine ⟨hover, ?_, hrequests, hmisses⟩
  decide +kernel

/-- **An answer at the second look counts twice**: the requests are not the rejects, hits and misses,
and the misses are not the loads and the expired values. -/
theorem unbalanced_secondLooks :
    let floor := run ⟨Cache.new { filterEnabled := false }, []⟩ secondLooks
    (∀ r ∈ floor.calls, r.isOver = true) ∧
      floor.calls.length ≠ floor.cache.stats.filterRejects + floor.cache.stats.hits +
        floor.cache.stats.nullHits + floor.cache.stats.misses ∧
      floor.cache.stats.misses ≠ floor.cache.stats.loads + floor.cache.stats.staleServed := by
  decide +kernel

end CacheFloor

end RetailReport
