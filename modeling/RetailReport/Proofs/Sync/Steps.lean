import RetailReport.Proofs.SortedMap
import RetailReport.Sync.Call

/-!
# How a synchronisation goes on

What a call does next depends on the place that it has reached, and at some places also on what it
finds: whether there are stores left, whether a store is being rebuilt already, whether the lines can
be read and computed with.  Here each of these ways has a name and says what it leaves behind, so that
nobody else has to look into the step.

## Main definitions

* `SyncCall.GoesOn`: the ways in which a call goes on.

## Main results

* `SyncCall.goesOn_of_step`: a step goes one of these ways.
* `SyncCall.startAll_eq_ok`: a synchronisation of all stores begins like any other one.
-/

namespace RetailReport

namespace SyncCall

variable {c : SyncCall} {w : SyncSite}

/-- **The ways in which a call goes on.** -/
inductive GoesOn (c : SyncCall) (w : SyncSite) : Next → Prop where
  /-- No stores are left. -/
  | finish (hphase : c.phase = .choosing) (hkeys : c.keys = []) (halone : c.globalsAlone = false) :
      GoesOn c w {
        call := { c with phase := .finished }
        site := { w with synchronizer := w.synchronizer.finish c.report }
        events := [.onBatchComplete c.report] }
  /-- No stores are left, and it scans all lines nevertheless. -/
  | scanAlone (hphase : c.phase = .choosing) (hkeys : c.keys = []) (halone : c.globalsAlone = true) :
      GoesOn c w {
        call := { c with phase := .scannedAlone w.facts.scanAll }
        site := { w with synchronizer := w.synchronizer.finish c.report }
        events := [.onBatchComplete c.report] }
  /-- It turns to the next store. -/
  | choose {key : String} {keys : List String} (hphase : c.phase = .choosing)
      (hkeys : c.keys = key :: keys) :
      GoesOn c w {
        call := { c with keys, phase := .wanting key (w.synchronizer.sequenceOf key) }, site := w }
  /-- The store is being rebuilt already. -/
  | join {key : String} {requested flight : Nat} (hphase : c.phase = .wanting key requested)
      (hflight : w.synchronizer.inFlight.get? key = some flight) :
      GoesOn c w { call := { c with phase := .waiting key requested flight }, site := w }
  /-- It opens a flight. -/
  | lead {key : String} {requested : Nat} (hphase : c.phase = .wanting key requested)
      (hnone : w.synchronizer.inFlight.get? key = none) :
      GoesOn c w {
        call := { c with phase := .leading key w.synchronizer.flights.length }
        site := { w with synchronizer := (w.synchronizer.openFlight key).2 } }
  /-- The flight that it has waited for has covered what it wants. -/
  | share {key : String} {requested flight : Nat} {f : Flight} {outcome : KeyOutcome}
      (hphase : c.phase = .waiting key requested flight)
      (hflight : w.synchronizer.flights[flight]? = some f) (houtcome : f.outcome = some outcome)
      (hcovered : requested ≤ f.covered) :
      GoesOn c w {
        call := c.settle key outcome true
        site := { w with synchronizer := w.synchronizer.countCoalesced } }
  /-- The flight that it has waited for has not. -/
  | wantAgain {key : String} {requested flight : Nat} {f : Flight}
      (hphase : c.phase = .waiting key requested flight)
      (hflight : w.synchronizer.flights[flight]? = some f) (hover : f.outcome.isSome = true)
      (hmissed : f.covered < requested) :
      GoesOn c w { call := { c with phase := .wanting key requested }, site := w }
  /-- It scans the lines of the store. -/
  | scan {key : String} {flight : Nat} (hphase : c.phase = .leading key flight) :
      GoesOn c w {
        call := { c with phase := .scanned key flight (w.facts.scanKeys (KeySet.ofList [key])) }
        site := w }
  /-- It computes the slices of the store. -/
  | build {key : String} {flight : Nat} {scan : Except FactStoreError (List FactRecord)}
      {batch : RollupBatch} (hphase : c.phase = .scanned key flight scan)
      (hbatch : Rebuild.ofKeyScan w.synchronizer.plans key scan = .ok batch) :
      GoesOn c w { call := { c with phase := .built key flight batch }, site := w }
  /-- The slices of the store cannot be computed. -/
  | buildFails {key : String} {flight : Nat} {scan : Except FactStoreError (List FactRecord)}
      {f : SyncFailure} (hphase : c.phase = .scanned key flight scan)
      (hbatch : Rebuild.ofKeyScan w.synchronizer.plans key scan = .error f) :
      GoesOn c w { call := { c with phase := .decided key flight (.error f) }, site := w }
  /-- No slices from all lines are wanted. -/
  | needNone {key : String} {flight : Nat} {batch : RollupBatch}
      (hphase : c.phase = .built key flight batch)
      (hplans : Rebuild.globalPlans w.synchronizer.plans = []) :
      GoesOn c w { call := { c with phase := .ready key flight batch none }, site := w }
  /-- It has computed the slices from all lines before. -/
  | reuse {key : String} {flight : Nat} {batch : RollupBatch} {known : GlobalOutcome}
      (hphase : c.phase = .built key flight batch)
      (hplans : Rebuild.globalPlans w.synchronizer.plans ≠ []) (hknown : c.globals = some known) :
      GoesOn c w { call := { c with phase := withGlobals key flight batch known }, site := w }
  /-- It scans all lines. -/
  | scanAll {key : String} {flight : Nat} {batch : RollupBatch}
      (hphase : c.phase = .built key flight batch)
      (hplans : Rebuild.globalPlans w.synchronizer.plans ≠ []) (hknown : c.globals = none) :
      GoesOn c w {
        call := { c with phase := .scannedAll key flight batch w.facts.scanAll }, site := w }
  /-- It computes the slices from all lines. -/
  | gather {key : String} {flight : Nat} {batch : RollupBatch}
      {scan : Except FactStoreError FactSnapshot}
      (hphase : c.phase = .scannedAll key flight batch scan) :
      GoesOn c w {
        call := { c with
          globals := some (Rebuild.ofScan w.synchronizer.plans scan)
          phase := withGlobals key flight batch (Rebuild.ofScan w.synchronizer.plans scan) }
        site := w }
  /-- It commits the slices. -/
  | commit {key : String} {flight : Nat} {batch : RollupBatch} {globals : Option GlobalSlices}
      (hphase : c.phase = .ready key flight batch globals) :
      GoesOn c w {
        call := { c with phase := .decided key flight (.ok (w.commit key batch globals).1) }
        site := (w.commit key batch globals).2.2
        events := (w.commit key batch globals).2.1 }
  /-- It ends the flight. -/
  | close {key : String} {flight : Nat} {outcome : KeyOutcome}
      (hphase : c.phase = .decided key flight outcome) :
      GoesOn c w {
        call := c.settle key outcome false
        site := { w with synchronizer := w.synchronizer.closeFlight key flight outcome } }
  /-- It commits the slices from all lines, without those of a store. -/
  | commitAlone {scan : Except FactStoreError FactSnapshot} {g : GlobalSlices}
      (hphase : c.phase = .scannedAlone scan)
      (hscan : Rebuild.ofScan w.synchronizer.plans scan = .ok g) :
      GoesOn c w {
        call := { c with phase := .finished }
        site := (w.commit globalScope [] (some g)).2.2
        events := (w.commit globalScope [] (some g)).2.1 }
  /-- The slices from all lines cannot be computed. -/
  | failAlone {scan : Except FactStoreError FactSnapshot} {f : SyncFailure}
      (hphase : c.phase = .scannedAlone scan)
      (hscan : Rebuild.ofScan w.synchronizer.plans scan = .error f) :
      GoesOn c w {
        call := { c with
          phase := .finished, report := { c.report with failures := c.report.failures ++ [f] } }
        site := w }

/-- **A step goes one of these ways.** -/
theorem goesOn_of_step {next : Next} (h : c.step w = some next) : GoesOn c w next := by
  unfold step at h
  dsimp only at h
  -- One case for each phase; the guards of its branches become those of the constructors.
  cases hphase : c.phase with
  | choosing =>
    simp only [hphase] at h
    split at h
    · next hkeys =>
      cases h
      split
      · next halone => exact .scanAlone hphase hkeys halone
      · next halone => exact .finish hphase hkeys (Bool.eq_false_iff.2 halone)
    · next hkeys =>
      cases h
      exact .choose hphase hkeys
  | wanting key requested =>
    simp only [hphase] at h
    split at h
    · next hflight =>
      cases h
      exact .join hphase hflight
    · next hnone =>
      cases h
      exact .lead hphase hnone
  | waiting key requested flight =>
    simp only [hphase] at h
    split at h
    · cases h
    · next f hflight =>
      obtain ⟨outcome, houtcome, rfl⟩ := Option.map_eq_some_iff.1 h
      split
      · next hle => exact .share hphase hflight houtcome hle
      · next hlt => exact .wantAgain hphase hflight (houtcome ▸ rfl) (Nat.lt_of_not_le hlt)
  | leading key flight =>
    simp only [hphase] at h
    cases h
    exact .scan hphase
  | scanned key flight scan =>
    simp only [hphase] at h
    cases h
    cases hbatch : Rebuild.ofKeyScan w.synchronizer.plans key scan with
    | ok batch => exact .build hphase hbatch
    | error f => exact .buildFails hphase hbatch
  | built key flight batch =>
    simp only [hphase] at h
    cases h
    split
    · next hempty => exact .needNone hphase (List.isEmpty_iff.1 hempty)
    · next hnonempty =>
      have hplans := fun hnil => hnonempty (List.isEmpty_iff.2 hnil)
      split
      · next known hknown => exact .reuse hphase hplans hknown
      · next hknown => exact .scanAll hphase hplans hknown
  | scannedAll key flight batch scan =>
    simp only [hphase] at h
    cases h
    exact .gather hphase
  | ready key flight batch globals =>
    simp only [hphase] at h
    cases h
    exact .commit hphase
  | decided key flight outcome =>
    simp only [hphase] at h
    cases h
    exact .close hphase
  | scannedAlone scan =>
    simp only [hphase] at h
    split at h
    · next hscan =>
      cases h
      exact .failAlone hphase hscan
    · next hscan =>
      cases h
      exact .commitAlone hphase hscan
  | finished =>
    simp only [hphase] at h
    cases h

/-- **A synchronisation of all stores begins like any other one.** -/
theorem startAll_eq_ok {begun : SyncCall × SyncSite} (h : startAll w = .ok begun) :
    ∃ c : SyncCall, begun = (c, { w with synchronizer := w.synchronizer.begin }) ∧
      c.phase = .choosing ∧ c.globals = none ∧ c.keys.Nodup := by
  unfold startAll at h
  split at h
  · cases h
  · cases h
    exact ⟨_, rfl, rfl, rfl, KeySet.nodup_members _⟩

end SyncCall

end RetailReport
