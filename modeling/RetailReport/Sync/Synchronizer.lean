import RetailReport.Rollup.Plan
import RetailReport.Sync.Report

/-!
# The synchronizer

The synchronizer keeps the rollup store in line with the fact store, store by store.  For one store it
reads the lines, computes the slices of all rollups that are grouped by store, adds the slices of the
other rollups, which it computes from all lines, and commits all of them in one step.  If anything
cannot be computed, nothing of this store is committed.

A store has at most one rebuild at a time, its flight.  A second caller waits for it, and makes do
with its outcome if the flight began after the last change that the caller knows of.  Slices that
are computed from all lines carry the version of the fact store that they were read at, and are left
out of a commit if slices of a later version have been committed.

## Main definitions

* `Flight`, `Synchronizer`, `SyncSite`.
* `Synchronizer.recordMutation`, `Synchronizer.openFlight`, `Synchronizer.closeFlight`.
* `Rebuild.storeBatch`, `Rebuild.globalSlices`: what is to be committed.
* `SyncSite.commit`: the commit.
* `SyncSite.sync`, `SyncSite.rebuildAll`: synchronisations that nothing else runs beside.
-/

namespace RetailReport

/-- A rebuild of a store. -/
structure Flight where
  /-- The store. -/
  key : String
  /-- The number of the last change of the store when the rebuild began. -/
  covered : Nat
  /-- What has become of it, once it is over. -/
  outcome : Option KeyOutcome := none

/-- The slices of the rollups that are not grouped by store. -/
structure GlobalSlices where
  /-- The version of the fact store that the lines were read at. -/
  version : Nat
  /-- The rows by rollup. -/
  rows : List (String × List RollupRow)
deriving DecidableEq, Repr

/-- The slices that are computed from all lines, once for each synchronisation. -/
abbrev GlobalOutcome := Except SyncFailure GlobalSlices

/-- What the synchronizer knows. -/
structure Synchronizer where
  /-- The rollups. -/
  plans : List RebuildPlan
  /-- All rebuilds, in the order in which they began. -/
  flights : List Flight := []
  /-- The rebuild that each store has at present. -/
  inFlight : SortedMap String Nat := .empty
  /-- How often each store has changed. -/
  sequences : SortedMap String Nat := .empty
  /-- The version of the fact store behind the committed slices of the rollups that are not grouped
  by store. -/
  globalVersion : Option Nat := none
  /-- What has been done. -/
  stats : SyncStats := {}

/-! ### Changes and flights -/

namespace Synchronizer

/-- The number of the last change of a store. -/
def sequenceOf (s : Synchronizer) (key : String) : Nat := s.sequences.getD key 0

/-- Takes note of a change of some stores. -/
def recordMutation (s : Synchronizer) (keys : KeySet String) : Synchronizer :=
  { s with sequences := keys.members.foldl (fun m k => m.insert k (m.getD k 0 + 1)) s.sequences }

/-- Begins a rebuild of a store that has none, and gives its number. -/
def openFlight (s : Synchronizer) (key : String) : Nat × Synchronizer :=
  let number := s.flights.length
  (number, { s with
    flights := s.flights ++ [{ key, covered := s.sequenceOf key }]
    inFlight := s.inFlight.insert key number })

/-- Sets the outcome of a rebuild. -/
def setOutcome (number : Nat) (outcome : KeyOutcome) (flights : List Flight) : List Flight :=
  flights.modify number fun f => { f with outcome := some outcome }

/-- Counts a rebuild. -/
def count (stats : SyncStats) (outcome : KeyOutcome) : SyncStats :=
  match outcome with
  | .ok _ => { stats with keysRebuilt := stats.keysRebuilt + 1 }
  | .error _ => { stats with failures := stats.failures + 1 }

/-- Ends a rebuild of a store. -/
def closeFlight (s : Synchronizer) (key : String) (number : Nat) (outcome : KeyOutcome) :
    Synchronizer :=
  { s with
    inFlight := if s.inFlight.get? key = some number then s.inFlight.erase key else s.inFlight
    flights := setOutcome number outcome s.flights
    stats := count s.stats outcome }

/-- Counts a synchronisation that begins. -/
def begin (s : Synchronizer) : Synchronizer :=
  { s with stats := { s.stats with syncs := s.stats.syncs + 1 } }

/-- Counts a wait for the rebuild of another. -/
def countCoalesced (s : Synchronizer) : Synchronizer :=
  { s with stats := { s.stats with coalesced := s.stats.coalesced + 1 } }

/-- Takes note of the version of a synchronisation that ends. -/
def finish (s : Synchronizer) (report : SyncReport) : Synchronizer :=
  { s with stats := { s.stats with lastVersion := max s.stats.lastVersion report.version } }

/-- The plan of a rollup. -/
def plan? (s : Synchronizer) (schema : String) : Option RebuildPlan :=
  s.plans.find? fun p => p.name = schema

end Synchronizer

/-! ### What is to be committed -/

namespace Rebuild

/-- The rollups that are grouped by store. -/
def storePlans (plans : List RebuildPlan) : List RebuildPlan := plans.filter (·.isStoreScoped)

/-- The rollups that are not. -/
def globalPlans (plans : List RebuildPlan) : List RebuildPlan := plans.filter fun p => !p.isStoreScoped

/-- The rows of a rollup, or why they cannot be computed. -/
def rows (p : RebuildPlan) (key : String) (facts : List FactRecord) :
    Except SyncFailure (List RollupRow) :=
  match p.execute facts with
  | .ok rows => .ok rows
  | .error e => .error ⟨key, some p.name, .aggregation e⟩

/-- The slices of a store, from its lines. -/
def storeBatch (plans : List RebuildPlan) (key : String) (facts : List FactRecord) :
    Except SyncFailure RollupBatch :=
  (storePlans plans).mapM fun p => do
    let rows ← rows p key facts
    return ⟨⟨p.name, key⟩, rows⟩

/-- The slices of the rollups that are not grouped by store, from all lines. -/
def globalSlices (plans : List RebuildPlan) (snapshot : FactSnapshot) : GlobalOutcome := do
  let rows ← (globalPlans plans).mapM fun p => do
    let rows ← rows p globalScope snapshot.records
    return (p.name, rows)
  return ⟨snapshot.version, rows⟩

/-- The slices of the rollups that are not grouped by store, from what a scan of all lines gave. -/
def ofScan (plans : List RebuildPlan) (scan : Except FactStoreError FactSnapshot) : GlobalOutcome :=
  match scan with
  | .ok snapshot => globalSlices plans snapshot
  | .error e => .error ⟨globalScope, none, .factStore e⟩

/-- The slices of a store, from what a scan of its lines gave. -/
def ofKeyScan (plans : List RebuildPlan) (key : String)
    (scan : Except FactStoreError (List FactRecord)) : Except SyncFailure RollupBatch :=
  match scan with
  | .ok facts => storeBatch plans key facts
  | .error e => .error ⟨key, none, .factStore e⟩

/-- A failure that all stores share, as that of one store. -/
def sharedFailure (key : String) (f : SyncFailure) : SyncFailure := { f with key }

end Rebuild

/-! ### Commits -/

/-- The synchronizer and the two stores that it stands between. -/
structure SyncSite where
  /-- The fact store. -/
  facts : FactStore
  /-- The rollup store. -/
  rollups : RollupStore
  /-- The synchronizer. -/
  synchronizer : Synchronizer

namespace SyncSite

/-- Whether slices of some version may be committed. -/
def admits (s : Synchronizer) (version : Nat) : Bool := s.globalVersion.all fun v => v ≤ version

/-- The slices of a batch and those that are computed from all lines, unless later ones have been
committed. -/
def withGlobals (s : Synchronizer) (batch : RollupBatch) (globals : Option GlobalSlices) :
    RollupBatch × Synchronizer :=
  match globals with
  | some g =>
    if admits s g.version then
      (batch ++ g.rows.map (fun (schema, rows) => ⟨⟨schema, globalScope⟩, rows⟩),
        { s with globalVersion := some g.version })
    else (batch, s)
  | none => (batch, s)

/-- **Commits the slices of a store**: gives the new version of the rollup store and what listeners
are told. -/
def commit (w : SyncSite) (key : String) (batch : RollupBatch) (globals : Option GlobalSlices) :
    Nat × List SyncEvent × SyncSite :=
  let (batch, synchronizer) := withGlobals w.synchronizer batch globals
  let rollups := w.rollups.commit batch
  (rollups.version, [.beforeCommit batch, .onCommitted key batch.sliceIds],
    { w with rollups, synchronizer })

/-! ### Synchronisations that nothing runs beside -/

/-- The slices that are computed from all lines: those that the synchronisation has computed before,
or new ones. -/
def globalsFor (w : SyncSite) (known : Option GlobalOutcome) : Option GlobalOutcome :=
  if (Rebuild.globalPlans w.synchronizer.plans).isEmpty then none
  else some (known.getD (Rebuild.ofScan w.synchronizer.plans w.facts.scanAll))

/-- Computes and commits the slices of a store. -/
def rebuild (w : SyncSite) (key : String) (known : Option GlobalOutcome) :
    KeyOutcome × Option GlobalOutcome × List SyncEvent × SyncSite :=
  let scan := w.facts.scanKeys (KeySet.ofList [key])
  match Rebuild.ofKeyScan w.synchronizer.plans key scan with
  | .error f => (.error f, known, [], w)
  | .ok batch =>
    match w.globalsFor known with
    | none =>
      let (version, events, w) := w.commit key batch none
      (.ok version, known, events, w)
    | some (.error f) => (.error (Rebuild.sharedFailure key f), some (.error f), [], w)
    | some (.ok g) =>
      let (version, events, w) := w.commit key batch (some g)
      (.ok version, some (.ok g), events, w)

/-- A synchronisation under way: what it has reported, computed from all lines, and told listeners. -/
structure Progress where
  /-- The report so far. -/
  report : SyncReport := {}
  /-- The slices that are computed from all lines, once they have been needed. -/
  globals : Option GlobalOutcome := none
  /-- What listeners were told. -/
  events : List SyncEvent := []

/-- Rebuilds one store. -/
def syncKey (step : SyncSite × Progress) (key : String) : SyncSite × Progress :=
  let (w, p) := step
  let (number, s) := w.synchronizer.openFlight key
  let (outcome, globals, events, w) := rebuild { w with synchronizer := s } key p.globals
  ({ w with synchronizer := w.synchronizer.closeFlight key number outcome },
    { report := p.report.add key outcome false, globals, events := p.events ++ events })

/-- **Rebuilds some stores.** -/
def sync (w : SyncSite) (keys : KeySet String) : SyncReport × List SyncEvent × SyncSite :=
  let (w, p) := keys.members.foldl syncKey ({ w with synchronizer := w.synchronizer.begin }, {})
  (p.report, p.events ++ [.onBatchComplete p.report],
    { w with synchronizer := w.synchronizer.finish p.report })

/-- Commits the slices that are computed from all lines, without those of a store. -/
def commitGlobals (w : SyncSite) : Except SyncFailure Unit × List SyncEvent × SyncSite :=
  match w.globalsFor none with
  | none => (.ok (), [], w)
  | some (.error f) => (.error f, [], w)
  | some (.ok g) =>
    let (_, events, w) := w.commit globalScope [] (some g)
    (.ok (), events, w)

/-- The report of a full rebuild that does not even know the stores. -/
def blindReport (e : FactStoreError) : SyncReport :=
  { failures := [⟨globalScope, none, .factStore e⟩] }

/-- **Rebuilds all stores that have lines**; if there are none, the slices that are computed from all
lines nevertheless. -/
def rebuildAll (w : SyncSite) : SyncReport × List SyncEvent × SyncSite :=
  match w.facts.partitionKeys with
  | .error e => (blindReport e, [], w)
  | .ok keys =>
    let (report, events, w) := w.sync (KeySet.ofList keys)
    if keys.isEmpty then
      match w.commitGlobals with
      | (.ok (), more, w) => (report, events ++ more, w)
      | (.error f, more, w) =>
        ({ report with failures := report.failures ++ [f] }, events ++ more, w)
    else (report, events, w)

end SyncSite

end RetailReport
