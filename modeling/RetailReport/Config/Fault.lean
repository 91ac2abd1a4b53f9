/-!
# Configurations that cannot be used

## Main definitions

* `ConfigFault`: what is wrong with the values of a configuration.
* `ConfigError`: why there is no configuration.
-/

namespace RetailReport

/-- What is wrong with the values of a configuration. -/
inductive ConfigFault where
  /-- There are no workers. -/
  | noWorkers
  /-- The queue of the workers has no room. -/
  | noQueue
  /-- The times that values stay fresh would vary by their whole length. -/
  | jitterRange
  /-- Summaries are to be computed for a rollup that is not declared. -/
  | undeclaredSummary (schema : String)
deriving DecidableEq, Repr

/-- The wording of a fault. -/
def ConfigFault.message : ConfigFault → String
  | .noWorkers => "sync.worker_count must be > 0"
  | .noQueue => "sync.queue_capacity must be > 0"
  | .jitterRange => "cache.jitter_ratio must be in [0, 1)"
  | .undeclaredSummary schema => "partition.summary_schema " ++ schema ++ " is not declared"

/-- Why there is no configuration. -/
inductive ConfigError where
  /-- The file cannot be read. -/
  | unreadable (path : String)
  /-- The text is not a configuration. -/
  | unparsable
  /-- The values cannot be used. -/
  | invalid (fault : ConfigFault)
deriving DecidableEq, Repr

/-- The wording of an error. -/
def ConfigError.message : ConfigError → String
  | .unreadable path => "Failed to read config file " ++ path
  | .unparsable => "Failed to parse config file"
  | .invalid fault => "Invalid config: " ++ fault.message

/-- The name of an error, whatever its wording. -/
def ConfigError.code : ConfigError → String
  | .unreadable _ => "Read"
  | .unparsable => "Parse"
  | .invalid _ => "Invalid"

/-- Whether the file or its format is to blame, and not the values in it. -/
def ConfigError.isExternal : ConfigError → Bool
  | .invalid _ => false
  | _ => true

end RetailReport
