import Mathlib.Algebra.Order.Group.Multiset
import Mathlib.Logic.Relation

/-!
# The books of the retries

A notification whose job is queued begins a chain for each of its stores: a rebuild is due, and after
each failure another one, until a rebuild succeeds or the retries are used up.  The books list the
rebuilds that are due, the failures that nothing has been planned for, and what has happened so far.

Entries come and go one at a time, so two equations hold of each chain at any time: what was due by
acceptance or retry has been rebuilt or is due, and what has failed was retried, given up or is still
open.  Hence an accepted chain has exactly one entry, or has ended in one of two ways.  Everything else
follows by counting.

## Main definitions

* `Chain`, `Attempt`, `ChainEvent`, `Ledger`.
* `Ledger.Step`: one entry.
* `Tally`, `Tally.Entry`, `Ledger.tally`: what the books say of one chain, and an entry of it.
* `Tally.Right`, `Ledger.Balanced`: the books are right.

## Main results

* `Ledger.Step.entry`: an entry is one of its chain, and of no other.
* `Tally.Right.entry`, `Ledger.Balanced.step`: every entry keeps the books right.
* `Tally.Right.accepted_eq`: **where an accepted chain is.**
* `Ledger.Balanced.rebuilds_le`, `Ledger.Balanced.of_rebuilt`, `Ledger.Balanced.of_failed`: how a chain
  runs.
* `Ledger.Ended.steps`: nothing happens to a chain that has ended.
-/

namespace RetailReport

/-- **A store of a notification**, whose rebuilds are one chain. -/
structure Chain where
  /-- The number of the notification. -/
  origin : Nat
  /-- The store. -/
  key : String
deriving DecidableEq

/-- One of the rebuilds of a chain. -/
structure Attempt where
  /-- The chain. -/
  chain : Chain
  /-- How often the store has been tried again. -/
  number : Nat
deriving DecidableEq

/-- What happens to a chain. -/
inductive ChainEvent where
  /-- Its first rebuild is due. -/
  | accepted (c : Chain)
  /-- A rebuild succeeds. -/
  | rebuilt (c : Chain)
  /-- A rebuild fails. -/
  | failed (c : Chain)
  /-- After a failure another rebuild is due. -/
  | retried (c : Chain)
  /-- After a failure no other rebuild is due. -/
  | exhausted (c : Chain)
deriving DecidableEq

namespace ChainEvent

/-- The chain of an event. -/
def chain : ChainEvent → Chain
  | .accepted c | .rebuilt c | .failed c | .retried c | .exhausted c => c

/-- A rebuild fails. -/
def isFailed : ChainEvent → Bool
  | .failed _ => true
  | _ => false

/-- Another rebuild is due. -/
def isRetried : ChainEvent → Bool
  | .retried _ => true
  | _ => false

/-- No other rebuild is due. -/
def isExhausted : ChainEvent → Bool
  | .exhausted _ => true
  | _ => false

end ChainEvent

/-- **The books**: what is due, what is open, and what has happened. -/
structure Ledger where
  /-- The rebuilds that are to come. -/
  due : Multiset Attempt
  /-- The rebuilds that have failed, and that nothing has been planned for. -/
  unplanned : Multiset Attempt
  /-- What has happened, in order. -/
  journal : List ChainEvent

namespace Ledger

/-- **One entry.** -/
inductive Step (limit : Nat) : Ledger → Ledger → Prop
  /-- A new chain begins. -/
  | accept {due failed : Multiset Attempt} {journal : List ChainEvent} (c : Chain)
      (h : .accepted c ∉ journal) :
      Step limit ⟨due, failed, journal⟩ ⟨⟨c, 0⟩ ::ₘ due, failed, journal ++ [.accepted c]⟩
  /-- A rebuild that is due succeeds. -/
  | succeed {due failed : Multiset Attempt} {journal : List ChainEvent} (a : Attempt) :
      Step limit ⟨a ::ₘ due, failed, journal⟩ ⟨due, failed, journal ++ [.rebuilt a.chain]⟩
  /-- A rebuild that is due fails. -/
  | fail {due failed : Multiset Attempt} {journal : List ChainEvent} (a : Attempt) :
      Step limit ⟨a ::ₘ due, failed, journal⟩ ⟨due, a ::ₘ failed, journal ++ [.failed a.chain]⟩
  /-- A failed rebuild is tried again. -/
  | retry {due failed : Multiset Attempt} {journal : List ChainEvent} (a : Attempt)
      (h : a.number < limit) :
      Step limit ⟨due, a ::ₘ failed, journal⟩
        ⟨⟨a.chain, a.number + 1⟩ ::ₘ due, failed, journal ++ [.retried a.chain]⟩
  /-- A failed rebuild has been tried often enough. -/
  | exhaust {due failed : Multiset Attempt} {journal : List ChainEvent} (a : Attempt)
      (h : limit ≤ a.number) :
      Step limit ⟨due, a ::ₘ failed, journal⟩ ⟨due, failed, journal ++ [.exhausted a.chain]⟩

/-- Any number of entries. -/
abbrev Steps (limit : Nat) : Ledger → Ledger → Prop := Relation.ReflTransGen (Step limit)

end Ledger

/-! ### One chain -/

/-- **What the books say of a chain.** -/
structure Tally where
  /-- How often it has begun. -/
  accepted : Nat
  /-- How many rebuilds have succeeded. -/
  rebuilt : Nat
  /-- How many rebuilds have failed. -/
  failed : Nat
  /-- How many retries there were. -/
  retried : Nat
  /-- How often it was given up. -/
  exhausted : Nat
  /-- The numbers of the rebuilds that are due. -/
  due : Multiset Nat
  /-- The numbers of those that have failed, and that nothing has been planned for. -/
  unplanned : Multiset Nat

namespace Tally

/-- An entry of the chain. -/
inductive Entry (limit : Nat) (t : Tally) : Tally → Prop
  | accept (h : t.accepted = 0) :
      Entry limit t { t with accepted := t.accepted + 1, due := 0 ::ₘ t.due }
  | succeed {n : Nat} {due : Multiset Nat} (h : t.due = n ::ₘ due) :
      Entry limit t { t with rebuilt := t.rebuilt + 1, due }
  | fail {n : Nat} {due : Multiset Nat} (h : t.due = n ::ₘ due) :
      Entry limit t { t with failed := t.failed + 1, due, unplanned := n ::ₘ t.unplanned }
  | retry {n : Nat} {unplanned : Multiset Nat} (h : t.unplanned = n ::ₘ unplanned)
      (hlimit : n < limit) :
      Entry limit t { t with retried := t.retried + 1, due := (n + 1) ::ₘ t.due, unplanned }
  | exhaust {n : Nat} {unplanned : Multiset Nat} (h : t.unplanned = n ::ₘ unplanned)
      (hlimit : limit ≤ n) :
      Entry limit t { t with exhausted := t.exhausted + 1, unplanned }

/-- **What the books say is right.** -/
structure Right (limit : Nat) (t : Tally) : Prop where
  /-- The chain does not begin twice. -/
  accepted_le : t.accepted ≤ 1
  /-- There are no retries before it has begun. -/
  begun : t.accepted = 0 → t.retried = 0
  /-- What was due by acceptance or retry has been rebuilt, or is due. -/
  due : t.accepted + t.retried = t.rebuilt + t.failed + t.due.card
  /-- What has failed was retried or given up, or is unplanned. -/
  failed : t.failed = t.retried + t.exhausted + t.unplanned.card
  /-- The retries are limited. -/
  retried_le : t.retried ≤ limit
  /-- The chain is given up when its retries are used up. -/
  exhausted : 0 < t.exhausted → t.retried = limit
  /-- A rebuild has the number of the retries before it. -/
  number : ∀ n, n ∈ t.due ∨ n ∈ t.unplanned → n = t.retried

variable {limit : Nat} {t t' : Tally}

/-- **Where an accepted chain is**: it has succeeded or was given up, or it has one rebuild due or
unplanned. -/
theorem Right.accepted_eq (h : t.Right limit) :
    t.accepted = t.rebuilt + t.exhausted + t.due.card + t.unplanned.card := by
  have hdue := h.due
  have hfailed := h.failed
  omega

/-- **Every entry keeps the books of a chain right.** -/
theorem Right.entry (h : t.Right limit) (hentry : Entry limit t t') : t'.Right limit := by
  have haccepted := h.accepted_le
  have hplace := h.accepted_eq
  have hdue := h.due
  have hfailed := h.failed
  have hretried := h.retried_le
  cases hentry with
  | accept hnew =>
    have hnone : t.due = 0 := Multiset.card_eq_zero.1 (by omega)
    have hnothing : t.unplanned = 0 := Multiset.card_eq_zero.1 (by omega)
    have hbegun := h.begun hnew
    refine ⟨?_, ?_, ?_, hfailed, hretried, h.exhausted, fun n hn => ?_⟩
    · exact Nat.le_of_eq (congrArg (· + 1) hnew)
    · exact fun hzero => absurd hzero (Nat.succ_ne_zero _)
    · simp only [Multiset.card_cons]
      omega
    · simpa [hnone, hnothing, hbegun] using hn
  | @succeed n due hn =>
    rw [hn, Multiset.card_cons] at hdue hplace
    refine ⟨haccepted, h.begun, ?_, hfailed, hretried, h.exhausted, fun m hm => h.number m ?_⟩
    · dsimp only
      omega
    · exact hm.imp_left fun hm => hn ▸ Multiset.mem_cons_of_mem hm
  | @fail n due hn =>
    rw [hn, Multiset.card_cons] at hdue hplace
    refine ⟨haccepted, h.begun, ?_, ?_, hretried, h.exhausted, fun m hm => h.number m ?_⟩
    · dsimp only
      omega
    · simp only [Multiset.card_cons]
      omega
    · rw [hn, Multiset.mem_cons]
      simp only [Multiset.mem_cons] at hm
      tauto
  | @retry n unplanned hn hlimit =>
    have hnumber : n = t.retried := h.number n (.inr (hn ▸ Multiset.mem_cons_self n unplanned))
    rw [hn, Multiset.card_cons] at hfailed hplace
    -- The chain has no other entry, so no number but the new one depends on the new retry.
    have hnone : t.due = 0 := Multiset.card_eq_zero.1 (by omega)
    have hnothing : unplanned = 0 := Multiset.card_eq_zero.1 (by omega)
    refine ⟨haccepted, ?_, ?_, ?_, ?_, ?_, fun m hm => ?_⟩
    · dsimp only
      omega
    · simp only [Multiset.card_cons]
      omega
    · dsimp only
      omega
    · dsimp only
      omega
    · dsimp only
      omega
    · simpa [hnone, hnothing, hnumber] using hm
  | @exhaust n unplanned hn hlimit =>
    have hnumber : n = t.retried := h.number n (.inr (hn ▸ Multiset.mem_cons_self n unplanned))
    rw [hn, Multiset.card_cons] at hfailed
    refine ⟨haccepted, h.begun, hdue, ?_, hretried, ?_, fun m hm => h.number m ?_⟩
    · dsimp only
      omega
    · dsimp only
      omega
    · exact hm.imp_right fun hm => hn ▸ Multiset.mem_cons_of_mem hm

end Tally

namespace Ledger

/-- The numbers of some rebuilds, as far as they are of a chain. -/
def numbers (attempts : Multiset Attempt) (c : Chain) : Multiset Nat :=
  (attempts.filter (·.chain = c)).map (·.number)

theorem numbers_cons (a : Attempt) (attempts : Multiset Attempt) (c : Chain) :
    numbers (a ::ₘ attempts) c =
      if a.chain = c then a.number ::ₘ numbers attempts c else numbers attempts c := by
  unfold numbers
  split
  · next hac => rw [Multiset.filter_cons_of_pos (p := (·.chain = c)) attempts hac, Multiset.map_cons]
  · next hac => rw [Multiset.filter_cons_of_neg (p := (·.chain = c)) attempts hac]

theorem numbers_cons_self (a : Attempt) (attempts : Multiset Attempt) :
    numbers (a ::ₘ attempts) a.chain = a.number ::ₘ numbers attempts a.chain :=
  (numbers_cons a attempts a.chain).trans (if_pos rfl)

theorem numbers_eq_zero_iff {attempts : Multiset Attempt} {c : Chain} :
    numbers attempts c = 0 ↔ ∀ a ∈ attempts, a.chain ≠ c := by
  rw [numbers, Multiset.map_eq_zero, Multiset.filter_eq_nil]

/-- What the books say of a chain. -/
def tally (l : Ledger) (c : Chain) : Tally where
  accepted := l.journal.count (.accepted c)
  rebuilt := l.journal.count (.rebuilt c)
  failed := l.journal.count (.failed c)
  retried := l.journal.count (.retried c)
  exhausted := l.journal.count (.exhausted c)
  due := numbers l.due c
  unplanned := numbers l.unplanned c

variable {limit : Nat} {l l' : Ledger}

/-- **An entry is one of its chain, and of no other.** -/
theorem Step.entry (hstep : Step limit l l') : ∃ e, l'.journal = l.journal ++ [e] ∧
    (l.tally e.chain).Entry limit (l'.tally e.chain) ∧ ∀ c ≠ e.chain, l'.tally c = l.tally c := by
  -- Each step writes one event, and moves one rebuild of the chain that the event is of.
  cases hstep with
  | @accept due failed journal c hc =>
    have hentry : Tally.Entry limit (tally ⟨due, failed, journal⟩ c) _ :=
      .accept (List.count_eq_zero.2 hc)
    refine ⟨_, rfl, ?_, fun c' hc' => ?_⟩
    · simpa [tally, numbers_cons, ChainEvent.chain] using hentry
    · have hne : c ≠ c' := hc'.symm
      simp [tally, numbers_cons, hne]
  | @succeed due failed journal a =>
    have hentry : Tally.Entry limit (tally ⟨a ::ₘ due, failed, journal⟩ a.chain) _ :=
      .succeed (numbers_cons_self a due)
    refine ⟨_, rfl, ?_, fun c hc => ?_⟩
    · simpa [tally, numbers_cons, ChainEvent.chain] using hentry
    · have hne : a.chain ≠ c := hc.symm
      simp [tally, numbers_cons, hne]
  | @fail due failed journal a =>
    have hentry : Tally.Entry limit (tally ⟨a ::ₘ due, failed, journal⟩ a.chain) _ :=
      .fail (numbers_cons_self a due)
    refine ⟨_, rfl, ?_, fun c hc => ?_⟩
    · simpa [tally, numbers_cons, ChainEvent.chain] using hentry
    · have hne : a.chain ≠ c := hc.symm
      simp [tally, numbers_cons, hne]
  | @retry due failed journal a hlimit =>
    have hentry : Tally.Entry limit (tally ⟨due, a ::ₘ failed, journal⟩ a.chain) _ :=
      .retry (numbers_cons_self a failed) hlimit
    refine ⟨_, rfl, ?_, fun c hc => ?_⟩
    · simpa [tally, numbers_cons, ChainEvent.chain] using hentry
    · have hne : a.chain ≠ c := hc.symm
      simp [tally, numbers_cons, hne]
  | @exhaust due failed journal a hlimit =>
    have hentry : Tally.Entry limit (tally ⟨due, a ::ₘ failed, journal⟩ a.chain) _ :=
      .exhaust (numbers_cons_self a failed) hlimit
    refine ⟨_, rfl, ?_, fun c hc => ?_⟩
    · simpa [tally, numbers_cons, ChainEvent.chain] using hentry
    · have hne : a.chain ≠ c := hc.symm
      simp [tally, numbers_cons, hne]

/-- **The books are right.** -/
structure Balanced (limit : Nat) (l : Ledger) : Prop where
  /-- They are right for each chain. -/
  chains : ∀ c, (l.tally c).Right limit
  /-- Over all chains, what has failed was retried or given up, or is unplanned. -/
  total : l.journal.countP ChainEvent.isFailed = l.journal.countP ChainEvent.isRetried +
    l.journal.countP ChainEvent.isExhausted + l.unplanned.card

theorem balanced_empty (limit : Nat) : Balanced limit ⟨0, 0, []⟩ where
  chains _ :=
    { accepted_le := Nat.zero_le 1
      begun := fun _ => rfl
      due := rfl
      failed := rfl
      retried_le := Nat.zero_le limit
      exhausted := fun h => absurd h (Nat.lt_irrefl 0)
      number := fun n hn => by simp [tally, numbers] at hn }
  total := rfl

namespace Balanced

/-- **Every entry keeps the books right.** -/
theorem step (h : l.Balanced limit) (hstep : Step limit l l') : l'.Balanced limit := by
  refine ⟨fun c => ?_, ?_⟩
  · obtain ⟨e, -, hself, hothers⟩ := hstep.entry
    by_cases hc : c = e.chain
    · rw [hc]
      exact (h.chains e.chain).entry hself
    · rw [hothers c hc]
      exact h.chains c
  · have htotal := h.total
    cases hstep <;> simp [List.countP_append, ChainEvent.isFailed, ChainEvent.isRetried,
      ChainEvent.isExhausted] at htotal ⊢ <;> omega

/-- So does any number of entries. -/
theorem steps (h : l.Balanced limit) (hsteps : Steps limit l l') : l'.Balanced limit := by
  induction hsteps with
  | refl => exact h
  | tail _ hstep ih => exact ih.step hstep

/-! ### How a chain runs -/

/-- The rebuilds of a chain are limited. -/
theorem rebuilds_le (h : l.Balanced limit) (c : Chain) :
    l.journal.count (.rebuilt c) + l.journal.count (.failed c) ≤ 1 + limit := by
  have hdue := (h.chains c).due
  have haccepted := (h.chains c).accepted_le
  have hretried := (h.chains c).retried_le
  simp only [tally] at hdue haccepted hretried
  omega

/-- **A chain that has ended all in failures** has used up its retries, and is given up once. -/
theorem of_failed (h : l.Balanced limit) {c : Chain} (hfailed : l.journal.count (.failed c) = 1 + limit)
    (hplanned : ∀ a ∈ l.unplanned, a.chain ≠ c) :
    l.journal.count (.retried c) = limit ∧ l.journal.count (.exhausted c) = 1 := by
  have hnone : (l.tally c).unplanned = 0 := numbers_eq_zero_iff.2 hplanned
  have heq := (h.chains c).failed
  have haccepted := (h.chains c).accepted_le
  have hplace := (h.chains c).accepted_eq
  have hretried := (h.chains c).retried_le
  rw [hnone, Multiset.card_zero] at heq
  simp only [tally] at heq haccepted hplace hretried
  omega

end Balanced

/-! ### Chains that have ended -/

/-- What has happened to a chain. -/
def eventsOf (l : Ledger) (c : Chain) : List ChainEvent := l.journal.filter (·.chain = c)

/-- **A chain has ended**: nothing of it is due or unplanned. -/
structure Ended (l : Ledger) (c : Chain) : Prop where
  accepted : .accepted c ∈ l.journal
  due : ∀ a ∈ l.due, a.chain ≠ c
  unplanned : ∀ a ∈ l.unplanned, a.chain ≠ c

/-- **A success ends a chain**, and it is not given up. -/
theorem Balanced.of_rebuilt (h : l.Balanced limit) {c : Chain} (hrebuilt : .rebuilt c ∈ l.journal) :
    l.Ended c ∧ .exhausted c ∉ l.journal := by
  have hplace := (h.chains c).accepted_eq
  have haccepted := (h.chains c).accepted_le
  have hpos : 0 < (l.tally c).rebuilt := List.count_pos_iff.2 hrebuilt
  have hbegun : 0 < (l.tally c).accepted := by omega
  have hdue : (l.tally c).due = 0 := Multiset.card_eq_zero.1 (by omega)
  have hunplanned : (l.tally c).unplanned = 0 := Multiset.card_eq_zero.1 (by omega)
  have hexhausted : (l.tally c).exhausted = 0 := by omega
  exact ⟨⟨List.count_pos_iff.1 hbegun, numbers_eq_zero_iff.1 hdue, numbers_eq_zero_iff.1 hunplanned⟩,
    List.count_eq_zero.1 hexhausted⟩

namespace Ended

variable {c : Chain}

/-- An entry is not one of a chain that has ended. -/
theorem step (h : l.Ended c) (hstep : Step limit l l') : l'.Ended c ∧ l'.eventsOf c = l.eventsOf c := by
  obtain ⟨e, hjournal, hself, hothers⟩ := hstep.entry
  have hdue : (l.tally c).due = 0 := numbers_eq_zero_iff.2 h.due
  have hunplanned : (l.tally c).unplanned = 0 := numbers_eq_zero_iff.2 h.unplanned
  have haccepted : 0 < (l.tally c).accepted := List.count_pos_iff.2 h.accepted
  have hne : c ≠ e.chain := by
    rintro rfl
    generalize l'.tally e.chain = t at hself
    cases hself with
    | accept hnone => omega
    | succeed hcons | fail hcons => exact Multiset.zero_ne_cons (hdue.symm.trans hcons)
    | retry hcons | exhaust hcons => exact Multiset.zero_ne_cons (hunplanned.symm.trans hcons)
  have hsame := hothers c hne
  refine ⟨⟨?_, ?_, ?_⟩, ?_⟩
  · exact hjournal ▸ List.mem_append_left _ h.accepted
  · exact numbers_eq_zero_iff.1 ((congrArg Tally.due hsame).trans hdue)
  · exact numbers_eq_zero_iff.1 ((congrArg Tally.unplanned hsame).trans hunplanned)
  · simp [eventsOf, hjournal, hne.symm]

/-- **Nothing happens to a chain that has ended.** -/
theorem steps (h : l.Ended c) (hsteps : Steps limit l l') :
    l'.Ended c ∧ l'.eventsOf c = l.eventsOf c := by
  induction hsteps with
  | refl => exact ⟨h, rfl⟩
  | tail _ hstep ih =>
    obtain ⟨hended, hevents⟩ := ih.1.step hstep
    exact ⟨hended, hevents.trans ih.2⟩

end Ended

/-! ### Several entries -/

section Several

variable (due failed : Multiset Attempt) (journal : List ChainEvent)

variable {due failed journal} in
theorem Steps.of_eq {due' : Multiset Attempt} (h : due = due') :
    Steps limit ⟨due, failed, journal⟩ ⟨due', failed, journal⟩ := h ▸ .refl

/-- Several chains begin. -/
theorem Steps.accept {chains : List Chain} (hnodup : chains.Nodup)
    (hnew : ∀ c ∈ chains, .accepted c ∉ journal) :
    Steps limit ⟨due, failed, journal⟩
      ⟨chains.map (fun c => Attempt.mk c 0) + due, failed, journal ++ chains.map .accepted⟩ := by
  induction chains generalizing due journal with
  | nil => simpa using Relation.ReflTransGen.refl
  | cons c chains ih =>
    obtain ⟨hc, hnodup⟩ := List.nodup_cons.1 hnodup
    refine .head (.accept c (hnew c List.mem_cons_self)) ?_
    have hnew' : ∀ c' ∈ chains, .accepted c' ∉ journal ++ [.accepted c] := by
      intro c' hc'
      rw [List.mem_append, List.mem_singleton, ChainEvent.accepted.injEq, not_or]
      exact ⟨hnew c' (List.mem_cons_of_mem _ hc'), fun heq => hc (heq ▸ hc')⟩
    have hrest := ih (⟨c, 0⟩ ::ₘ due) (journal ++ [.accepted c]) hnodup hnew'
    simpa [List.append_assoc, ← Multiset.cons_coe] using hrest

/-- Several rebuilds succeed. -/
theorem Steps.succeed (attempts : List Attempt) :
    Steps limit ⟨attempts + due, failed, journal⟩
      ⟨due, failed, journal ++ attempts.map (.rebuilt ·.chain)⟩ := by
  induction attempts generalizing journal with
  | nil => simpa using Relation.ReflTransGen.refl
  | cons a attempts ih =>
    have hrest := ih (journal ++ [.rebuilt a.chain])
    rw [← Multiset.cons_coe, Multiset.cons_add]
    refine .head (.succeed a) ?_
    simpa [List.append_assoc] using hrest

/-- Several rebuilds fail. -/
theorem Steps.fail (attempts : List Attempt) :
    Steps limit ⟨attempts + due, failed, journal⟩
      ⟨due, attempts + failed, journal ++ attempts.map (.failed ·.chain)⟩ := by
  induction attempts generalizing failed journal with
  | nil => simpa using Relation.ReflTransGen.refl
  | cons a attempts ih =>
    have hrest := ih (a ::ₘ failed) (journal ++ [.failed a.chain])
    rw [← Multiset.cons_coe, Multiset.cons_add]
    refine .head (.fail a) ?_
    simpa [List.append_assoc, ← Multiset.cons_coe] using hrest

/-- Several retries. -/
theorem Steps.retry {attempts : List Attempt} (h : ∀ a ∈ attempts, a.number < limit) :
    Steps limit ⟨due, attempts + failed, journal⟩
      ⟨attempts.map (fun a => Attempt.mk a.chain (a.number + 1)) + due, failed,
        journal ++ attempts.map (.retried ·.chain)⟩ := by
  induction attempts generalizing due journal with
  | nil => simpa using Relation.ReflTransGen.refl
  | cons a attempts ih =>
    obtain ⟨hlimit, h⟩ := List.forall_mem_cons.1 h
    have hrest := ih (⟨a.chain, a.number + 1⟩ ::ₘ due) (journal ++ [.retried a.chain]) h
    rw [← Multiset.cons_coe, Multiset.cons_add]
    refine .head (.retry a hlimit) ?_
    simpa [List.append_assoc, ← Multiset.cons_coe] using hrest

/-- Several chains are given up. -/
theorem Steps.exhaust {attempts : List Attempt} (h : ∀ a ∈ attempts, limit ≤ a.number) :
    Steps limit ⟨due, attempts + failed, journal⟩
      ⟨due, failed, journal ++ attempts.map (.exhausted ·.chain)⟩ := by
  induction attempts generalizing journal with
  | nil => simpa using Relation.ReflTransGen.refl
  | cons a attempts ih =>
    obtain ⟨hlimit, h⟩ := List.forall_mem_cons.1 h
    have hrest := ih (journal ++ [.exhausted a.chain]) h
    rw [← Multiset.cons_coe, Multiset.cons_add]
    refine .head (.exhaust a hlimit) ?_
    simpa [List.append_assoc, ← Multiset.cons_coe] using hrest

end Several

end Ledger

end RetailReport
