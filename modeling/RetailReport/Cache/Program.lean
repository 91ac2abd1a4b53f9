import RetailReport.Cache.Basic

/-!
# Programs of a cache

A program is a list of operations on a cache.  A load may itself be a program that runs while its key
is being loaded, and so on to any depth; what an operation answers has the same shape.

## Main definitions

* `CacheOp`, `CacheAnswer`.
* `CacheOp.run`, `CacheOp.runAll`: what operations answer and what they leave behind.
-/

namespace RetailReport

/-- An operation on a cache. -/
inductive CacheOp (ε α : Type) where
  /-- Asks for a key, with the program and the outcome of its loader. -/
  | get (key : String) (ttl : Nat) (during : List (CacheOp ε α)) (outcome : Except ε (Option α))
  /-- Makes keys known. -/
  | register (keys : List String)
  /-- Makes keys known to a new filter. -/
  | resetFilter (keys : List String)
  /-- Forgets a key. -/
  | invalidate (key : String)
  /-- Forgets all keys. -/
  | clear
  /-- Makes slices known that are about to be committed. -/
  | beforeCommit (slices : List SliceId)
  /-- Forgets slices that have been committed. -/
  | onCommitted (slices : List SliceId)
  /-- Lets time pass. -/
  | advance (ms : Nat)
  /-- Asks for the statistics. -/
  | stats

/-- What an operation answers. -/
inductive CacheAnswer (ε α : Type) where
  /-- The value of a key, and what the program of its loader answered, if it ran. -/
  | got (outcome : Except ε (Option α)) (during : Option (List (CacheAnswer ε α)))
  /-- The number of keys that the filter was given. -/
  | filterKeys (count : Nat)
  /-- The number of entries. -/
  | entries (count : Nat)
  /-- The statistics. -/
  | stats (stats : CacheStats)

namespace CacheOp

variable {ε α : Type}

mutual

/-- What an operation answers, and the cache after it. -/
def run : CacheOp ε α → Cache α → CacheAnswer ε α × Cache α
  | .get key ttl during outcome, c =>
    let (reply, c) := c.get key ttl fun c =>
      let (answers, c) := runAll during c
      (⟨outcome, answers⟩, c)
    (.got reply.outcome reply.report, c)
  | .register keys, c =>
    let c := c.register keys
    (.filterKeys c.filter.inserted, c)
  | .resetFilter keys, c =>
    let c := c.resetFilter keys
    (.filterKeys c.filter.inserted, c)
  | .invalidate key, c =>
    let c := c.invalidate key
    (.entries c.entries.size, c)
  | .clear, c =>
    let c := c.clear
    (.entries c.entries.size, c)
  | .beforeCommit slices, c =>
    let c := c.beforeCommit slices
    (.filterKeys c.filter.inserted, c)
  | .onCommitted slices, c =>
    let c := c.onCommitted slices
    (.entries c.entries.size, c)
  | .advance ms, c =>
    let c := c.advance ms
    (.entries c.entries.size, c)
  | .stats, c => (.stats c.stats, c)

/-- What the operations of a program answer, and the cache after them. -/
def runAll : List (CacheOp ε α) → Cache α → List (CacheAnswer ε α) × Cache α
  | [], c => ([], c)
  | op :: ops, c =>
    let (answer, c) := run op c
    let (answers, c) := runAll ops c
    (answer :: answers, c)

end

end CacheOp

end RetailReport
