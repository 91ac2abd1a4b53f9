import RetailReport.Sync.Synchronizer

/-!
# Synchronisations side by side

Several synchronisations may run at the same time, and lines may change between any two of their
steps.  A `SyncCall` is one synchronisation with the place that it has reached, and `SyncCall.step`
is what it does next: open the flight of a store or join the one that is under way, scan the lines of
the store, scan all lines, commit, close the flight.  A call that waits for the flight of another has
no next step until that flight is over.

## Main definitions

* `SyncPhase`, `SyncCall`, `SyncCall.start`, `SyncCall.startAll`.
* `SyncCall.step`: the next step of a call, if it has one.
* `SyncCall.run`: steps until the call is finished, or has to wait, or somebody wants to look.
-/

namespace RetailReport

/-- The place that a synchronisation has reached. -/
inductive SyncPhase where
  /-- It turns to the next store. -/
  | choosing
  /-- It wants a store rebuilt with all changes up to a number. -/
  | wanting (key : String) (requested : Nat)
  /-- It waits for a flight. -/
  | waiting (key : String) (requested : Nat) (flight : Nat)
  /-- It has opened a flight. -/
  | leading (key : String) (flight : Nat)
  /-- It has scanned the lines of the store. -/
  | scanned (key : String) (flight : Nat) (scan : Except FactStoreError (List FactRecord))
  /-- It has computed the slices of the store and wants those that need all lines. -/
  | built (key : String) (flight : Nat) (batch : RollupBatch)
  /-- It has scanned all lines. -/
  | scannedAll (key : String) (flight : Nat) (batch : RollupBatch)
      (scan : Except FactStoreError FactSnapshot)
  /-- It has computed all slices. -/
  | ready (key : String) (flight : Nat) (batch : RollupBatch) (globals : Option GlobalSlices)
  /-- It knows what has become of the store. -/
  | decided (key : String) (flight : Nat) (outcome : KeyOutcome)
  /-- There are no stores, and it has scanned all lines nevertheless. -/
  | scannedAlone (scan : Except FactStoreError FactSnapshot)
  /-- It is over. -/
  | finished

/-- A synchronisation and the place that it has reached. -/
structure SyncCall where
  /-- The stores that are still to be rebuilt. -/
  keys : List String
  /-- The place that it has reached. -/
  phase : SyncPhase := .choosing
  /-- The slices that are computed from all lines, once they have been needed. -/
  globals : Option GlobalOutcome := none
  /-- Whether the slices that are computed from all lines are still to be committed at the end. -/
  globalsAlone : Bool := false
  /-- The report so far. -/
  report : SyncReport := {}

namespace SyncCall

/-- Begins a synchronisation of some stores. -/
def start (w : SyncSite) (keys : KeySet String) : SyncCall × SyncSite :=
  ({ keys := keys.members }, { w with synchronizer := w.synchronizer.begin })

/-- Begins a synchronisation of all stores that have lines; if there are none, the slices that are
computed from all lines are committed nevertheless.  If the stores are not known, there is only a
report. -/
def startAll (w : SyncSite) : Except SyncReport (SyncCall × SyncSite) :=
  match w.facts.partitionKeys with
  | .error e => .error (SyncSite.blindReport e)
  | .ok keys =>
    let (c, w) := start w (KeySet.ofList keys)
    .ok ({ c with
      globalsAlone := keys.isEmpty && !(Rebuild.globalPlans w.synchronizer.plans).isEmpty }, w)

/-- Whether a call is over. -/
def isFinished (c : SyncCall) : Bool :=
  match c.phase with
  | .finished => true
  | _ => false

/-- Turns to the next store with the outcome for one. -/
def settle (c : SyncCall) (key : String) (outcome : KeyOutcome) (coalesced : Bool) : SyncCall :=
  { c with phase := .choosing, report := c.report.add key outcome coalesced }

/-- What the slices that are computed from all lines mean for a store. -/
def withGlobals (key : String) (flight : Nat) (batch : RollupBatch) : GlobalOutcome → SyncPhase
  | .ok g => .ready key flight batch (some g)
  | .error f => .decided key flight (.error (Rebuild.sharedFailure key f))

/-- What a step leaves behind: the call, the stores, and what listeners are told. -/
structure Next where
  /-- The call. -/
  call : SyncCall
  /-- The stores. -/
  site : SyncSite
  /-- What listeners are told. -/
  events : List SyncEvent := []

/-- **The next step of a call**, unless it is over or has to wait. -/
def step (c : SyncCall) (w : SyncSite) : Option Next :=
  let s := w.synchronizer
  match c.phase with
  | .choosing =>
    match c.keys with
    | [] =>
      some {
        call := { c with
          phase := if c.globalsAlone then .scannedAlone w.facts.scanAll else .finished }
        site := { w with synchronizer := s.finish c.report }
        events := [.onBatchComplete c.report] }
    | key :: keys =>
      some { call := { c with keys, phase := .wanting key (s.sequenceOf key) }, site := w }
  | .wanting key requested =>
    match s.inFlight.get? key with
    | some flight => some { call := { c with phase := .waiting key requested flight }, site := w }
    | none =>
      let (flight, s) := s.openFlight key
      some { call := { c with phase := .leading key flight }, site := { w with synchronizer := s } }
  | .waiting key requested flight =>
    match s.flights[flight]? with
    | none => none
    | some f =>
      f.outcome.map fun outcome =>
        if requested ≤ f.covered then
          { call := c.settle key outcome true, site := { w with synchronizer := s.countCoalesced } }
        else { call := { c with phase := .wanting key requested }, site := w }
  | .leading key flight =>
    let scan := w.facts.scanKeys (KeySet.ofList [key])
    some { call := { c with phase := .scanned key flight scan }, site := w }
  | .scanned key flight scan =>
    some {
      call := { c with
        phase := match Rebuild.ofKeyScan s.plans key scan with
          | .ok batch => .built key flight batch
          | .error f => .decided key flight (.error f) }
      site := w }
  | .built key flight batch =>
    some {
      call := { c with
        phase :=
          if (Rebuild.globalPlans s.plans).isEmpty then .ready key flight batch none
          else
            match c.globals with
            | some known => withGlobals key flight batch known
            | none => .scannedAll key flight batch w.facts.scanAll }
      site := w }
  | .scannedAll key flight batch scan =>
    let globals := Rebuild.ofScan s.plans scan
    some {
      call := { c with globals := some globals, phase := withGlobals key flight batch globals }
      site := w }
  | .ready key flight batch globals =>
    let (version, events, w) := w.commit key batch globals
    some { call := { c with phase := .decided key flight (.ok version) }, site := w, events }
  | .decided key flight outcome =>
    some {
      call := c.settle key outcome false
      site := { w with synchronizer := s.closeFlight key flight outcome } }
  | .scannedAlone scan =>
    match Rebuild.ofScan s.plans scan with
    | .error f =>
      some {
        call := { c with
          phase := .finished, report := { c.report with failures := c.report.failures ++ [f] } }
        site := w }
    | .ok g =>
      let (_, events, w) := w.commit globalScope [] (some g)
      some { call := { c with phase := .finished }, site := w, events }
  | .finished => none

/-- The most steps that a call can take while nothing runs beside it: nine for each store. -/
def stepBound (c : SyncCall) : Nat := 9 * (c.keys.length + 1) + 9

/-- At most a number of steps, until the call has no next one or `watch` wants to look at it. -/
def runFor (watch : SyncPhase → Bool) : (fuel : Nat) → SyncCall → SyncSite → List SyncEvent → Next
  | 0, call, site, events => { call, site, events }
  | fuel + 1, call, site, events =>
    match call.step site with
    | none => { call, site, events }
    | some next =>
      let events := events ++ next.events
      if watch next.call.phase then { next with events }
      else runFor watch fuel next.call next.site events

/-- Steps until the call is over, or has to wait, or `watch` wants to look at it. -/
def run (watch : SyncPhase → Bool) (c : SyncCall) (w : SyncSite) : Next :=
  runFor watch c.stepBound c w []

end SyncCall

end RetailReport
