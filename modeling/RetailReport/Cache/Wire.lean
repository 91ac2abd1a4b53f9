import RetailReport.Cache.Basic
import RetailReport.Json.Encode

/-!
# What a cache has done, as JSON

## Main definitions

* `CacheStats.toJson`.
-/

namespace RetailReport

/-- What the cache has done as JSON. -/
def CacheStats.toJson (s : CacheStats) : Json :=
  .object
    [("hits", .int s.hits), ("misses", .int s.misses), ("null_hits", .int s.nullHits),
     ("bloom_rejects", .int s.filterRejects), ("loads", .int s.loads),
     ("stale_served", .int s.staleServed), ("lock_timeouts", .int s.lockTimeouts),
     ("entries", .int s.entries), ("bloom_keys", .int s.filterKeys)]

instance : Json.Encode CacheStats := ⟨CacheStats.toJson⟩

end RetailReport
