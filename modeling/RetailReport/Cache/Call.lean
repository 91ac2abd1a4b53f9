import RetailReport.Cache.Basic

/-!
# Callers of the cache side by side

Several callers may ask a cache at the same time, and whatever keeps it current may happen between any
two of their steps.  A `CacheCall` is one request with the place that it has reached, and
`CacheCall.step` is what it does next: ask the filter, look the key up, go for its lock, look once
more, call the loader, store what was found, give the lock back.  Two things are not up to the caller:
a loader returns when it has done what it does, which may be to ask the cache itself; and a wait for a
lock is in vain if it takes too long.

So there are eight ways to an answer.  Two of them end at the second look: the lock was free again, or
came free during the wait, and whoever held it has stored a value.

## Main definitions

* `CacheExit`, `CacheStage`, `CacheCall`.
* `CacheCall.step`, `CacheCall.giveUp`, `CacheCall.returned`: what happens to a request.
* `CacheFloor`, `CacheAct`, `CacheFloor.run`: a cache with all requests that were made.
-/

namespace RetailReport

/-- **The ways to an answer.** -/
inductive CacheExit where
  /-- The filter never saw the key. -/
  | rejected
  /-- There was a fresh entry. -/
  | fresh
  /-- There was a fresh entry at the second look, after a wait for the lock or without. -/
  | found (waited : Bool)
  /-- The loader was called under the lock, after a wait for it or without. -/
  | loaded (waited : Bool)
  /-- The lock was held by another, and the expired value was given. -/
  | stale
  /-- The wait for the lock was in vain, and the loader was called without it. -/
  | bypassed
deriving DecidableEq, Repr

/-- The place that a request has reached. -/
inductive CacheStage (ε α : Type) where
  /-- It asks the filter. -/
  | asking
  /-- The filter may know the key, and it looks the key up. -/
  | looking
  /-- There is no fresh entry, perhaps an expired value, and it goes for the lock. -/
  | missing (stale : Option α)
  /-- It waits for the lock. -/
  | waiting
  /-- It has the lock, after a wait or without, and looks the key up once more. -/
  | holding (waited : Bool)
  /-- There is still no fresh entry, and it calls its loader. -/
  | lacking (waited : Bool)
  /-- Its loader runs; the load has a number, and the key had an epoch. -/
  | loading (waited : Bool) (load : Nat) (epoch : Nat × Nat)
  /-- Its loader has found a value, or that there is none, which is to be stored. -/
  | storing (waited : Bool) (epoch : Nat × Nat) (value : Option α)
  /-- Its loader runs, but it does not have the lock. -/
  | bypassing (load : Nat)
  /-- It has its answer, and gives the lock back. -/
  | leaving (exit : CacheExit) (outcome : Except ε (Option α))
  /-- It is over. -/
  | finished (exit : CacheExit) (outcome : Except ε (Option α))

/-- How a request was answered that is over. -/
def CacheStage.exit? {ε α : Type} : CacheStage ε α → Option CacheExit
  | .finished exit _ => some exit
  | _ => none

/-- A request and the place that it has reached. -/
structure CacheCall (ε α : Type) where
  /-- The key that is asked for. -/
  key : String
  /-- How long what is found stays fresh, in milliseconds. -/
  ttl : Nat
  /-- The place that it has reached. -/
  stage : CacheStage ε α := .asking

namespace CacheCall

variable {ε α : Type}

/-- Goes on to another place. -/
def goTo (r : CacheCall ε α) (stage : CacheStage ε α) : CacheCall ε α := { r with stage }

/-- Whether a request is over. -/
def isOver (r : CacheCall ε α) : Bool := r.stage.exit?.isSome

/-- Whether the loader of a request has been called. -/
def called (r : CacheCall ε α) : Bool :=
  match r.stage with
  | .loading _ _ _ | .storing _ _ _ | .bypassing _ => true
  | .leaving exit _ | .finished exit _ =>
    match exit with
    | .loaded _ | .bypassed => true
    | _ => false
  | _ => false

/-- Whether a request has found its answer at the second look. -/
def found (r : CacheCall ε α) : Bool :=
  match r.stage with
  | .leaving (.found _) _ | .finished (.found _) _ => true
  | _ => false

/-- **The next step of a request**, and the cache after it.  A request that is over, or has to wait,
does nothing. -/
def step (r : CacheCall ε α) (c : Cache α) : CacheCall ε α × Cache α :=
  match r.stage with
  | .asking =>
    if c.rejects r.key then (r.goTo (.finished .rejected (.ok none)), c.record (.rejected r.key))
    else (r.goTo .looking, c)
  | .looking =>
    match c.look r.key with
    | .fresh value => (r.goTo (.finished .fresh (.ok value)), c.record (.served r.key value))
    | .expired value => (r.goTo (.missing value), c.record (.missed r.key))
    | .absent => (r.goTo (.missing none), c.record (.missed r.key))
  | .missing stale =>
    if c.loading.contains r.key then
      match stale with
      | some value =>
        (r.goTo (.finished .stale (.ok (some value))), c.record (.servedStale r.key value))
      | none => (r.goTo .waiting, c)
    else (r.goTo (.holding false), { c with loading := c.loading.add r.key })
  | .waiting =>
    if c.loading.contains r.key then (r, c)
    else (r.goTo (.holding true), { c with loading := c.loading.add r.key })
  | .holding waited =>
    match c.look r.key with
    | .fresh value => (r.goTo (.leaving (.found waited) (.ok value)), c.record (.served r.key value))
    | _ => (r.goTo (.lacking waited), c)
  | .lacking waited =>
    (r.goTo (.loading waited c.loadCount (c.epochOf r.key)),
      c.record (.loadStarted c.loadCount r.key))
  | .storing waited epoch value =>
    (r.goTo (.leaving (.loaded waited) (.ok value)), c.store r.key epoch r.ttl value)
  | .leaving exit outcome =>
    (r.goTo (.finished exit outcome), { c with loading := c.loading.erase r.key })
  | .loading _ _ _ | .bypassing _ | .finished _ _ => (r, c)

/-- The wait for the lock takes too long, and the loader is called without it. -/
def giveUp (r : CacheCall ε α) (c : Cache α) : CacheCall ε α × Cache α :=
  match r.stage with
  | .waiting =>
    (r.goTo (.bypassing c.loadCount),
      (c.record (.gaveUp r.key)).record (.loadStarted c.loadCount r.key))
  | _ => (r, c)

/-- The loader returns. -/
def returned (outcome : Except ε (Option α)) (r : CacheCall ε α) (c : Cache α) :
    CacheCall ε α × Cache α :=
  match r.stage with
  | .loading waited load epoch =>
    (r.goTo (match outcome with
      | .ok value => .storing waited epoch value
      | .error _ => .leaving (.loaded waited) outcome), c.record (.ofOutcome load outcome))
  | .bypassing load => (r.goTo (.finished .bypassed outcome), c.record (.ofOutcome load outcome))
  | _ => (r, c)

end CacheCall

/-- **A cache with all requests that were made.** -/
structure CacheFloor (ε α : Type) where
  /-- The cache. -/
  cache : Cache α
  /-- The requests, in the order in which they were made. -/
  calls : List (CacheCall ε α) := []

/-- What can happen on the floor.  What is invalidated is outdated first and dropped then. -/
inductive CacheAct (ε α : Type) where
  /-- A key is asked for. -/
  | ask (key : String) (ttl : Nat)
  /-- The request at a place makes a step. -/
  | step (place : Nat)
  /-- The wait of the request at a place is in vain. -/
  | giveUp (place : Nat)
  /-- The loader of the request at a place returns. -/
  | returned (place : Nat) (outcome : Except ε (Option α))
  /-- The filter is told of keys. -/
  | register (keys : List String)
  /-- A new filter is told of keys. -/
  | resetFilter (keys : List String)
  /-- What is loaded for a key is outdated. -/
  | outdate (key : String)
  /-- The entry of a key is dropped. -/
  | drop (key : String)
  /-- Whatever is loaded is outdated. -/
  | outdateAll
  /-- All entries are dropped. -/
  | dropAll
  /-- Time passes. -/
  | elapse (ms : Nat)

namespace CacheFloor

variable {ε α : Type}

/-- Something happens to the request at a place, if there is one. -/
def advance (w : CacheFloor ε α) (place : Nat)
    (f : CacheCall ε α → Cache α → CacheCall ε α × Cache α) : CacheFloor ε α :=
  match w.calls[place]? with
  | some r =>
    let (r, cache) := f r w.cache
    { cache, calls := w.calls.set place r }
  | none => w

/-- The floor after something has happened. -/
def act (w : CacheFloor ε α) : CacheAct ε α → CacheFloor ε α
  | .ask key ttl => { w with calls := w.calls ++ [{ key, ttl }] }
  | .step place => w.advance place CacheCall.step
  | .giveUp place => w.advance place CacheCall.giveUp
  | .returned place outcome => w.advance place (CacheCall.returned outcome)
  | .register keys => { w with cache := w.cache.register keys }
  | .resetFilter keys => { w with cache := w.cache.resetFilter keys }
  | .outdate key => { w with cache := w.cache.outdate key }
  | .drop key => { w with cache := w.cache.drop key }
  | .outdateAll => { w with cache := w.cache.outdateAll }
  | .dropAll => { w with cache := w.cache.dropAll }
  | .elapse ms => { w with cache := w.cache.advance ms }

/-- The floor after a number of things have happened. -/
def run (w : CacheFloor ε α) (acts : List (CacheAct ε α)) : CacheFloor ε α := acts.foldl act w

end CacheFloor

end RetailReport
