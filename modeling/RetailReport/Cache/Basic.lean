import RetailReport.Cache.Bloom
import RetailReport.Rollup.Store

/-!
# The slice cache

A `Cache` stands between those who ask for values and the loaders that find them.  It answers from
its entries as long as they are fresh, remembers for a shorter time that a value does not exist, and
guards the loaders in three ways: a text that its filter never saw is answered without a load; a key
has a lock, which its loader holds, and whoever asks meanwhile gets the expired value, or waits for
the lock, and if that is in vain, loads for himself without storing; and what was invalidated during a
load is not stored when the load ends.

For the last of these every key has an epoch, which an invalidation advances, and the whole cache a
generation, which clearing it advances.

A loader may use the cache while it runs, so a load is a function on caches.  What happens is written
into a journal, from which the statistics are counted.

## Main definitions

* `CacheConfig`, `CacheEntry`, `CacheEvent`, `Cache`.
* `Cache.look`: what is known of a key.
* `Cache.get`: answers for a key, with a loader for the case that the cache cannot.
* `Cache.register`, `Cache.invalidate`, `Cache.clear`, …: what keeps the cache current.
* `Cache.stats`: what the journal amounts to.
-/

namespace RetailReport

/-- How a cache is set up. -/
structure CacheConfig where
  /-- How long values stay fresh, in milliseconds. -/
  ttlMs : Nat := 30000
  /-- How long it is remembered that there is no value, in milliseconds. -/
  nullTtlMs : Nat := 2000
  /-- How long to wait for the load of another, in milliseconds. -/
  lockWaitMs : Nat := 200
  /-- By which part of it the time that values stay fresh may vary. -/
  jitterRatio : Float := 0.1
  /-- Whether the filter is asked. -/
  filterEnabled : Bool := true
  /-- How many keys the filter is meant for. -/
  filterCapacity : Nat := 100000
  /-- At which rate the filter may err. -/
  filterErrorRate : Float := 0.01
deriving Repr, Inhabited

/-- The value of a key, or that it has none. -/
structure CacheEntry (α : Type) where
  /-- The value. -/
  value : Option α
  /-- The moment from which on it is no longer fresh. -/
  expiresAt : Nat
deriving Repr

/-- What happens in a cache.  Loads are numbered in the order in which they start. -/
inductive CacheEvent (α : Type) where
  /-- The filter never saw the key, so there is no value. -/
  | rejected (key : String)
  /-- A fresh entry is given. -/
  | served (key : String) (value : Option α)
  /-- There is no fresh entry. -/
  | missed (key : String)
  /-- An expired value is given while another loads the key. -/
  | servedStale (key : String) (value : α)
  /-- The wait for the load of another was in vain. -/
  | gaveUp (key : String)
  /-- A loader is called. -/
  | loadStarted (load : Nat) (key : String)
  /-- A loader has found a value, or that there is none. -/
  | loaded (load : Nat) (value : Option α)
  /-- A loader has failed. -/
  | loadFailed (load : Nat)
  /-- What is known of a key is no longer true. -/
  | invalidated (key : String)
  /-- What is known of any key is no longer true. -/
  | cleared
deriving Repr

/-- What is written down when a loader returns. -/
def CacheEvent.ofOutcome {ε α : Type} (load : Nat) : Except ε (Option α) → CacheEvent α
  | .ok value => .loaded load value
  | .error _ => .loadFailed load

/-- What is known of a key at some moment. -/
inductive Found (α : Type) where
  /-- Its entry is fresh. -/
  | fresh (value : Option α)
  /-- Its entry is no longer fresh. -/
  | expired (value : Option α)
  /-- It has no entry. -/
  | absent
deriving Repr

/-- What is known of the values of keys. -/
structure Cache (α : Type) where
  /-- How the cache is set up. -/
  config : CacheConfig
  /-- The keys that there are values for. -/
  filter : BloomFilter
  /-- What is known. -/
  entries : SortedMap String (CacheEntry α) := .empty
  /-- How often each key was invalidated. -/
  epochs : SortedMap String Nat := .empty
  /-- How often the cache was cleared. -/
  generation : Nat := 0
  /-- The keys whose lock is held. -/
  loading : KeySet String := .empty
  /-- The present moment, in milliseconds. -/
  now : Nat := 0
  /-- What has happened, the latest first. -/
  journal : List (CacheEvent α) := []

/-- What the journal of a cache amounts to. -/
structure CacheStats where
  /-- How often a fresh value was given. -/
  hits : Nat
  /-- How often there was no fresh entry. -/
  misses : Nat
  /-- How often it was known that there is no value. -/
  nullHits : Nat
  /-- How often the filter never saw the key. -/
  filterRejects : Nat
  /-- How often a loader was called. -/
  loads : Nat
  /-- How often an expired value was given. -/
  staleServed : Nat
  /-- How often the wait for the load of another was in vain. -/
  lockTimeouts : Nat
  /-- How many entries there are. -/
  entries : Nat
  /-- How many keys the filter was given. -/
  filterKeys : Nat
deriving DecidableEq, Repr

/-- The part of the requests that passed the filter which were answered from fresh entries. -/
def CacheStats.hitRate (s : CacheStats) : Float :=
  let total := s.hits + s.nullHits + s.misses
  if total = 0 then 0.0
  else (UInt64.ofNat (s.hits + s.nullHits)).toFloat / (UInt64.ofNat total).toFloat

namespace Cache

variable {α ε ρ : Type}

/-- An empty filter as the configuration asks for. -/
def emptyFilter (config : CacheConfig) : BloomFilter :=
  BloomFilter.ofCapacity config.filterCapacity config.filterErrorRate

/-- A cache that knows nothing. -/
def new (config : CacheConfig) : Cache α := { config, filter := emptyFilter config }

/-- Writes an event into the journal. -/
def record (c : Cache α) (e : CacheEvent α) : Cache α := { c with journal := e :: c.journal }

/-- The cache some time later. -/
def advance (c : Cache α) (ms : Nat) : Cache α := { c with now := c.now + ms }

/-! ### Keeping the cache current -/

/-- Tells the filter of keys that have values. -/
def register (c : Cache α) (keys : List String) : Cache α :=
  if c.config.filterEnabled then { c with filter := c.filter.insertAll keys } else c

/-- Tells a new filter of all keys that have values. -/
def resetFilter (c : Cache α) (keys : List String) : Cache α :=
  { c with filter := (emptyFilter c.config).insertAll keys }

/-- From now on what a load of a key finds is not stored, if the load has begun. -/
def outdate (c : Cache α) (key : String) : Cache α :=
  { c.record (.invalidated key) with epochs := c.epochs.insert key (c.epochs.getD key 0 + 1) }

/-- Removes the entry of a key. -/
def drop (c : Cache α) (key : String) : Cache α := { c with entries := c.entries.erase key }

/-- Forgets what is known of a key. -/
def invalidate (c : Cache α) (key : String) : Cache α := (c.outdate key).drop key

/-- From now on what any load finds is not stored, if the load has begun. -/
def outdateAll (c : Cache α) : Cache α :=
  { c.record .cleared with generation := c.generation + 1 }

/-- Removes all entries. -/
def dropAll (c : Cache α) : Cache α := { c with entries := .empty }

/-- Forgets everything but the filter. -/
def clear (c : Cache α) : Cache α := c.outdateAll.dropAll

/-- Makes the slices known that are about to be committed. -/
def beforeCommit (c : Cache α) (slices : List SliceId) : Cache α :=
  c.register (slices.map SliceId.key)

/-- Forgets the slices that have been committed. -/
def onCommitted (c : Cache α) (slices : List SliceId) : Cache α :=
  slices.foldl (fun c id => c.invalidate id.key) c

/-! ### Asking -/

/-- What a loader gives: a value, that there is none, or an error, and whatever else. -/
structure Loaded (ε α ρ : Type) where
  /-- The value. -/
  outcome : Except ε (Option α)
  /-- Whatever else. -/
  report : ρ

/-- An answer of the cache. -/
structure Reply (ε α ρ : Type) where
  /-- The value, or that there is none, or an error of the loader. -/
  outcome : Except ε (Option α)
  /-- What else the loader gave, if it was called. -/
  report : Option ρ

/-- A loader, which may use the cache while it runs. -/
abbrev Loader (ε α ρ : Type) := Cache α → Loaded ε α ρ × Cache α

/-- The generation and the epoch of a key. -/
def epochOf (c : Cache α) (key : String) : Nat × Nat := (c.generation, c.epochs.getD key 0)

/-- Whether an entry is fresh. -/
def isFresh (c : Cache α) (e : CacheEntry α) : Bool := decide (c.now < e.expiresAt)

/-- Whether the filter never saw a key. -/
def rejects (c : Cache α) (key : String) : Bool := c.config.filterEnabled && !c.filter.contains key

/-- What is known of a key. -/
def look (c : Cache α) (key : String) : Found α :=
  match c.entries.get? key with
  | some e => if c.isFresh e then .fresh e.value else .expired e.value
  | none => .absent

/-- How many loaders have been called. -/
def loadCount (c : Cache α) : Nat :=
  c.journal.countP fun
    | .loadStarted _ _ => true
    | _ => false

/-- Calls a loader and writes down what it gives. -/
def callLoader (c : Cache α) (key : String) (loader : Loader ε α ρ) : Loaded ε α ρ × Cache α :=
  let load := c.loadCount
  let (loaded, c) := loader (c.record (.loadStarted load key))
  (loaded, c.record (.ofOutcome load loaded.outcome))

/-- Stores a value, unless the key has another epoch than when its load began. -/
def store (c : Cache α) (key : String) (epoch : Nat × Nat) (ttl : Nat) (value : Option α) : Cache α :=
  if c.epochOf key = epoch then
    let ttl := if value.isSome then ttl else c.config.nullTtlMs
    { c with entries := c.entries.insert key ⟨value, c.now + ttl⟩ }
  else c

/-- Loads a key that nobody else is loading. -/
def load (c : Cache α) (key : String) (ttl : Nat) (loader : Loader ε α ρ) : Loaded ε α ρ × Cache α :=
  let epoch := c.epochOf key
  let (loaded, c) := callLoader { c with loading := c.loading.add key } key loader
  let c := { c with loading := c.loading.erase key }
  match loaded.outcome with
  | .ok value => (loaded, c.store key epoch ttl value)
  | .error _ => (loaded, c)

/-- The answer after a loader was called. -/
def Loaded.reply (l : Loaded ε α ρ) : Reply ε α ρ := ⟨l.outcome, some l.report⟩

/-- Answers for a key without a fresh entry; `stale` is the value of its expired entry.  Whoever gets
the key's lock looks once more, since the one who had it before may have stored a value.  If the lock
is held, then by a load that this request comes from, and so the wait for it is in vain; `CacheCall`
has callers side by side, for whom it may not be. -/
def compute (c : Cache α) (key : String) (stale : Option α) (ttl : Nat) (loader : Loader ε α ρ) :
    Reply ε α ρ × Cache α :=
  let c := c.record (.missed key)
  if c.loading.contains key then
    match stale with
    | some value => (⟨.ok (some value), none⟩, c.record (.servedStale key value))
    | none =>
      let (loaded, c) := callLoader (c.record (.gaveUp key)) key loader
      (loaded.reply, c)
  else
    match c.look key with
    | .fresh value => (⟨.ok value, none⟩, c.record (.served key value))
    | _ =>
      let (loaded, c) := c.load key ttl loader
      (loaded.reply, c)

/-- **Answers for a key.**  The loader is called if the filter may know the key and there is no
fresh entry; what it finds stays fresh for `ttl` milliseconds. -/
def get (c : Cache α) (key : String) (ttl : Nat) (loader : Loader ε α ρ) : Reply ε α ρ × Cache α :=
  if c.rejects key then (⟨.ok none, none⟩, c.record (.rejected key))
  else
    match c.look key with
    | .fresh value => (⟨.ok value, none⟩, c.record (.served key value))
    | .expired value => c.compute key value ttl loader
    | .absent => c.compute key none ttl loader

/-! ### Statistics -/

/-- What the journal amounts to. -/
def stats (c : Cache α) : CacheStats where
  hits := c.journal.countP fun
    | .served _ (some _) => true
    | _ => false
  misses := c.journal.countP fun
    | .missed _ => true
    | _ => false
  nullHits := c.journal.countP fun
    | .served _ none => true
    | _ => false
  filterRejects := c.journal.countP fun
    | .rejected _ => true
    | _ => false
  loads := c.loadCount
  staleServed := c.journal.countP fun
    | .servedStale _ _ => true
    | _ => false
  lockTimeouts := c.journal.countP fun
    | .gaveUp _ => true
    | _ => false
  entries := c.entries.size
  filterKeys := c.filter.inserted

end Cache

end RetailReport
