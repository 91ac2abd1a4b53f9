import Mathlib.Logic.Function.Basic
import RetailReport.Proofs.Fact.Consistency
import RetailReport.Proofs.Sync.Rebuild
import RetailReport.Proofs.Sync.Steps

/-!
# Synchronisations side by side

Any number of synchronisations run at the same time, one step of one of them after another, while
lines change and changes are noted in between.  A store has one flight at a time, and each flight
scans the store after all flights of that store before it; so its slices are never replaced by
slices from an earlier scan.  The slices from all lines carry the version of the fact store that
they come from, which never goes back.

## Main definitions

* `SyncWorld`, `SyncWorld.Step`, `SyncWorld.Reachable`: the states that the synchronisations can
  come to.
* `Settlement`: which flight a synchronisation has the outcome for a store from.
* `SyncWorld.Landed`: the slices of a store come from a scan that is not older than some flight.
* `SyncWorld.Sound`: the invariant.

## Main results

* `SyncWorld.Sound.step`: every step keeps the invariant.
-/

namespace RetailReport

/-- A synchronisation, and the version of the fact store when it began. -/
structure Running where
  /-- The version of the fact store when it began. -/
  began : Nat
  /-- The synchronisation. -/
  call : SyncCall

/-- What is noted of the beginning of a flight. -/
structure Departure where
  /-- The version of the fact store. -/
  version : Nat
  /-- The number of the synchronisation that leads the flight. -/
  leader : Nat

/-- **A synchronisation has the outcome for a store from a flight**, which it has led or waited for. -/
structure Settlement where
  /-- The number of the synchronisation. -/
  call : Nat
  /-- The store. -/
  key : String
  /-- The number of the flight. -/
  flight : Nat
deriving DecidableEq

/-- The store and the flight whose outcome a synchronisation turns to its next store with, given the
places before and after a step. -/
def SyncPhase.settled? : SyncPhase → SyncPhase → Option (String × Nat)
  | .waiting key _ flight, .choosing => some (key, flight)
  | .decided key flight _, .choosing => some (key, flight)
  | _, _ => none

/-- The stores, the synchronisations that have begun, and what was before. -/
structure SyncWorld where
  /-- The synchronizer and the stores. -/
  site : SyncSite
  /-- All states that the fact store was in. -/
  past : List FactStore
  /-- The synchronisations in the order in which they began. -/
  running : List Running := []
  /-- The departures of the flights.  What stands there for a flight that has not begun is of no
  account. -/
  departures : Nat → Departure := fun _ => ⟨0, 0⟩
  /-- Which flights the synchronisations have their outcomes from. -/
  settled : List Settlement := []

/-! ### Changes and flights -/

namespace Synchronizer

theorem getD_foldl_advance {l : List String} (hl : l.Nodup) (m : SortedMap String Nat)
    (key : String) :
    (l.foldl (fun m k => m.insert k (m.getD k 0 + 1)) m).getD key 0 =
      if key ∈ l then m.getD key 0 + 1 else m.getD key 0 := by
  induction l generalizing m with
  | nil => rfl
  | cons k l ih =>
    rw [List.nodup_cons] at hl
    rw [List.foldl_cons, ih hl.2, SortedMap.getD_insert]
    by_cases hk : key = k
    · subst hk
      rw [if_neg hl.1, if_pos rfl, if_pos List.mem_cons_self]
    · rw [if_neg hk]
      simp only [List.mem_cons, hk, false_or]

/-- A change that is noted advances the numbers of its stores by one. -/
theorem sequenceOf_recordMutation (s : Synchronizer) (keys : KeySet String) (key : String) :
    (s.recordMutation keys).sequenceOf key =
      if key ∈ keys.members then s.sequenceOf key + 1 else s.sequenceOf key :=
  getD_foldl_advance keys.nodup_members s.sequences key

theorem sequenceOf_le_recordMutation (s : Synchronizer) (keys : KeySet String) (key : String) :
    s.sequenceOf key ≤ (s.recordMutation keys).sequenceOf key := by
  rw [sequenceOf_recordMutation]
  split <;> omega

/-- A new flight has the next number. -/
theorem getElem?_openFlight (s : Synchronizer) (key : String) (n : Nat) :
    (s.openFlight key).2.flights[n]? = if n = s.flights.length
      then some { key, covered := s.sequenceOf key } else s.flights[n]? := by
  change (s.flights ++ [_])[n]? = _
  split
  · next h => rw [h, List.getElem?_concat_length]
  · next h =>
    rcases Nat.lt_or_gt_of_ne h with hlt | hgt
    · rw [List.getElem?_append_left hlt]
    · rw [List.getElem?_eq_none (by simp; omega), List.getElem?_eq_none (by omega)]

/-- After a flight was opened each flight is the new one or was there before. -/
theorem flight_of_openFlight {s : Synchronizer} {key : String} {n : Nat} {f : Flight}
    (hf : (s.openFlight key).2.flights[n]? = some f) :
    n = s.flights.length ∧ f = { key, covered := s.sequenceOf key } ∨ s.flights[n]? = some f := by
  rw [getElem?_openFlight] at hf
  split at hf
  · next hn => exact .inl ⟨hn, (Option.some.inj hf).symm⟩
  · exact .inr hf

theorem length_flights_openFlight (s : Synchronizer) (key : String) :
    (s.openFlight key).2.flights.length = s.flights.length + 1 := List.length_append

/-- A new flight is the one that its store has at present. -/
theorem get?_inFlight_openFlight (s : Synchronizer) (key key' : String) :
    (s.openFlight key).2.inFlight.get? key' =
      if key' = key then some s.flights.length else s.inFlight.get? key' := SortedMap.get?_insert ..

/-- The end of a flight changes the outcome of that flight only. -/
theorem getElem?_closeFlight (s : Synchronizer) (key : String) (number : Nat) (outcome : KeyOutcome)
    (n : Nat) :
    (s.closeFlight key number outcome).flights[n]? = (s.flights[n]?).map fun f =>
      if number = n then { f with outcome := some outcome } else f := by
  change (s.flights.modify number _)[n]? = _
  rw [List.getElem?_modify]
  rfl

/-- After the end of a flight each flight is as it was, but for the outcome of that one. -/
theorem flight_of_closeFlight {s : Synchronizer} {key : String} {number n : Nat}
    {outcome : KeyOutcome} {f : Flight}
    (hf : (s.closeFlight key number outcome).flights[n]? = some f) :
    ∃ f', s.flights[n]? = some f' ∧ f.key = f'.key ∧ f.covered = f'.covered ∧
      (n = number ∧ f.outcome = some outcome ∨ n ≠ number ∧ f = f') := by
  rw [getElem?_closeFlight] at hf
  obtain ⟨f', hf', rfl⟩ := Option.map_eq_some_iff.1 hf
  refine ⟨f', hf', ?_⟩
  by_cases hn : number = n
  · rw [if_pos hn]
    exact ⟨rfl, rfl, .inl ⟨hn.symm, rfl⟩⟩
  · rw [if_neg hn]
    exact ⟨rfl, rfl, .inr ⟨Ne.symm hn, rfl⟩⟩

theorem length_flights_closeFlight (s : Synchronizer) (key : String) (number : Nat)
    (outcome : KeyOutcome) :
    (s.closeFlight key number outcome).flights.length = s.flights.length := List.length_modify ..

/-- A store whose flight has ended has none. -/
theorem get?_inFlight_closeFlight {s : Synchronizer} {key : String} {number : Nat}
    (h : s.inFlight.get? key = some number) (outcome : KeyOutcome) (key' : String) :
    (s.closeFlight key number outcome).inFlight.get? key' =
      if key' = key then none else s.inFlight.get? key' := by
  change (if s.inFlight.get? key = some number then _ else _ :
    SortedMap String Nat).get? key' = _
  rw [if_pos h]
  exact SortedMap.get?_erase ..

end Synchronizer

namespace SyncWorld

/-- The world before anything happens. -/
def start (plans : List RebuildPlan) : SyncWorld where
  site := { facts := {}, rollups := {}, synchronizer := { plans } }
  past := [{}]

/-- Changes the lines. -/
def change (w : SyncWorld) (facts : FactStore) : SyncWorld :=
  { w with site := { w.site with facts }, past := w.past ++ [facts] }

/-- Notes a change of some stores. -/
def note (w : SyncWorld) (keys : KeySet String) : SyncWorld :=
  { w with site := { w.site with synchronizer := w.site.synchronizer.recordMutation keys } }

/-- Begins a synchronisation. -/
def begin (w : SyncWorld) (begun : SyncCall × SyncSite) : SyncWorld :=
  { w with site := begun.2, running := w.running ++ [⟨w.site.facts.version, begun.1⟩] }

/-- Goes one step further in a synchronisation. -/
def advance (w : SyncWorld) (i : Nat) (r : Running) (next : SyncCall.Next) : SyncWorld :=
  { w with
    site := next.site
    running := w.running.set i { r with call := next.call }
    departures := Function.update w.departures w.site.synchronizer.flights.length
      ⟨w.site.facts.version, i⟩
    settled := w.settled ++ (r.call.phase.settled? next.call.phase).toList.map fun (key, flight) =>
      ⟨i, key, flight⟩ }

/-- **One step of the world.** -/
inductive Step (w : SyncWorld) : SyncWorld → Prop
  /-- Lines of some stores change. -/
  | change {facts : FactStore} {keys : KeySet String} :
      w.site.facts.Change keys facts → Step w (w.change facts)
  /-- A change of some stores is noted. -/
  | note (keys : KeySet String) : Step w (w.note keys)
  /-- Somebody begins to synchronise some stores. -/
  | begin (keys : KeySet String) : Step w (w.begin (SyncCall.start w.site keys))
  /-- Somebody begins to synchronise all stores. -/
  | beginAll {begun : SyncCall × SyncSite} :
      SyncCall.startAll w.site = .ok begun → Step w (w.begin begun)
  /-- A synchronisation goes one step further. -/
  | advance {i : Nat} {r : Running} {next : SyncCall.Next} :
      w.running[i]? = some r → r.call.step w.site = some next → Step w (w.advance i r next)
  /-- The fact store becomes available or unavailable. -/
  | setAvailable (available : Bool) : Step w (w.change (w.site.facts.setAvailable available))

/-- The states that the world can come to. -/
inductive Reachable (plans : List RebuildPlan) : SyncWorld → Prop
  | start : Reachable plans (start plans)
  | step {w w' : SyncWorld} : Reachable plans w → Step w w' → Reachable plans w'

/-! ### The invariant -/

variable (plans : List RebuildPlan) (w : SyncWorld)

/-- The slices of a store come from a scan that is not older than some flight. -/
def Landed (n : Nat) (key : String) : Prop :=
  ∃ F ∈ w.past, (w.departures n).version ≤ F.version ∧
    ∀ p ∈ Rebuild.storePlans plans, w.site.rollups.Holds p key (F.linesOf key)

/-- The slices from all lines are not older than those that a synchronisation knows. -/
def UpToDate (known : Option GlobalOutcome) : Prop :=
  Rebuild.globalPlans plans ≠ [] →
    ∃ g, known = some (.ok g) ∧ ∃ u ∈ w.site.synchronizer.globalVersion, g.version ≤ u

/-- A synchronisation leads the flight that a store has at present. -/
structure Leads (i began : Nat) (key : String) (n : Nat) : Prop where
  /-- The flight is that of the store. -/
  inFlight : w.site.synchronizer.inFlight.get? key = some n
  /-- The synchronisation has opened it. -/
  leader : (w.departures n).leader = i
  /-- It had begun before. -/
  began_le : began ≤ (w.departures n).version

/-- Slices of a store were computed from a scan that is not older than some flight. -/
def Scanned (n : Nat) (key : String) (batch : RollupBatch) : Prop :=
  ∃ F ∈ w.past, (w.departures n).version ≤ F.version ∧
    Rebuild.OfStore plans key (F.linesOf key) batch

/-- What holds of a synchronisation at the place that it has reached. -/
def AtPhase (i began : Nat) (known : Option GlobalOutcome) : SyncPhase → Prop
  | .choosing | .wanting _ _ | .finished => True
  | .waiting key _ n => ∃ f, w.site.synchronizer.flights[n]? = some f ∧ f.key = key
  | .leading key n => w.Leads i began key n
  | .scanned key n scan => w.Leads i began key n ∧
      ∃ F ∈ w.past, (w.departures n).version ≤ F.version ∧ scan = F.scanKeys (KeySet.ofList [key])
  | .built key n batch => w.Leads i began key n ∧ w.Scanned plans n key batch
  | .scannedAll key n batch scan => w.Leads i began key n ∧ w.Scanned plans n key batch ∧
      known = none ∧ ∃ F ∈ w.past, began ≤ F.version ∧ scan = F.scanAll
  | .ready key n batch globals => w.Leads i began key n ∧ w.Scanned plans n key batch ∧
      (∀ g ∈ globals, known = some (.ok g)) ∧ (globals = none → Rebuild.globalPlans plans = [])
  | .decided key n outcome => w.Leads i began key n ∧
      ∀ v, outcome = .ok v → w.Landed plans n key ∧ w.UpToDate plans known
  | .scannedAlone scan => ∃ F ∈ w.past, began ≤ F.version ∧ scan = F.scanAll

/-- What holds of a synchronisation. -/
structure Runs (i : Nat) (r : Running) : Prop where
  /-- It has begun. -/
  began_le : r.began ≤ w.site.facts.version
  /-- What it knows of all lines it has scanned since then. -/
  known : ∀ g, r.call.globals = some (.ok g) → ∃ F ∈ w.past, r.began ≤ F.version ∧
    Rebuild.OfSnapshot plans ⟨F.version, F.lines⟩ g
  /-- What holds of the place that it has reached. -/
  phase : w.AtPhase plans i r.began r.call.globals r.call.phase

/-- **What every step keeps.** -/
structure Sound : Prop where
  /-- The rollups are those of the start. -/
  plans_eq : w.site.synchronizer.plans = plans
  /-- The present lines are the last of those that were. -/
  present : w.site.facts ∈ w.past
  /-- Versions never go back. -/
  past_le : ∀ F ∈ w.past, F.version ≤ w.site.facts.version
  /-- A flight covers no change that is not noted. -/
  covered_le : ∀ (n : Nat) f, w.site.synchronizer.flights[n]? = some f →
    f.covered ≤ w.site.synchronizer.sequenceOf f.key
  /-- No flight begins in the future. -/
  departed_le : ∀ n < w.site.synchronizer.flights.length,
    (w.departures n).version ≤ w.site.facts.version
  /-- Flights are numbered in the order in which they begin. -/
  departed_mono : ∀ m n, m ≤ n → n < w.site.synchronizer.flights.length →
    (w.departures m).version ≤ (w.departures n).version
  /-- The flight that a store has is one of that store, under way, and the last one. -/
  inFlight : ∀ key n, w.site.synchronizer.inFlight.get? key = some n →
    (∃ f, w.site.synchronizer.flights[n]? = some f ∧ f.key = key ∧ f.outcome = none) ∧
    ∀ (m : Nat) f, w.site.synchronizer.flights[m]? = some f → f.key = key → m ≤ n
  /-- The slices from all lines come from the lines of the version that they carry. -/
  globals : ∀ u ∈ w.site.synchronizer.globalVersion, ∃ F ∈ w.past, F.version = u ∧
    ∀ q ∈ Rebuild.globalPlans plans, w.site.rollups.Holds q globalScope F.lines
  /-- A flight that was successful has brought its store up to date, and is reported by its leader.
  -/
  landed : ∀ (n : Nat) f v, w.site.synchronizer.flights[n]? = some f → f.outcome = some (.ok v) →
    w.Landed plans n f.key ∧ ∃ r, w.running[(w.departures n).leader]? = some r ∧
      f.key ∈ r.call.report.rebuilt ∧ w.UpToDate plans r.call.globals
  /-- The synchronisations that have begun. -/
  runs : ∀ i r, w.running[i]? = some r → w.Runs plans i r

theorem sound_start : (start plans).Sound plans where
  plans_eq := rfl
  present := List.mem_singleton_self _
  past_le := fun F h => by rw [List.mem_singleton.1 h]; exact Nat.le_refl _
  covered_le := fun n f h => by simp [start] at h
  departed_le := fun n h => by simp [start] at h
  departed_mono := fun m n _ h => by simp [start] at h
  inFlight := fun key n h => by simp [start] at h
  globals := fun u h => by simp [start] at h
  landed := fun n f v h => by simp [start] at h
  runs := fun i r h => by simp [start] at h

variable {plans : List RebuildPlan} {w w' : SyncWorld}

/-! ### What one synchronisation leaves to the others -/

theorem Landed.mono {n : Nat} {key : String} (h : w.Landed plans n key)
    (hpast : ∀ F ∈ w.past, F ∈ w'.past) (hn : w'.departures n = w.departures n)
    (hrollups : w'.site.rollups = w.site.rollups) : w'.Landed plans n key := by
  obtain ⟨F, hF, hle, hp⟩ := h
  exact ⟨F, hpast F hF, hn ▸ hle, hrollups ▸ hp⟩

theorem UpToDate.mono {known : Option GlobalOutcome} (h : w.UpToDate plans known)
    (hversion : ∀ u ∈ w.site.synchronizer.globalVersion,
      ∃ u' ∈ w'.site.synchronizer.globalVersion, u ≤ u') : w'.UpToDate plans known := by
  intro hne
  obtain ⟨g, hg, u, hu, hle⟩ := h hne
  obtain ⟨u', hu', hle'⟩ := hversion u hu
  exact ⟨g, hg, u', hu', Nat.le_trans hle hle'⟩

/-- What a synchronisation relies on while others go on. -/
structure Frame (plans : List RebuildPlan) (w w' : SyncWorld) (i began : Nat) : Prop where
  /-- Versions do not go back. -/
  version_le : w.site.facts.version ≤ w'.site.facts.version
  /-- What was before stays. -/
  past : ∀ F ∈ w.past, F ∈ w'.past
  /-- Flights stay those of their stores. -/
  flights : ∀ (n : Nat) f, w.site.synchronizer.flights[n]? = some f →
    ∃ f', w'.site.synchronizer.flights[n]? = some f' ∧ f'.key = f.key
  /-- Its own flight stays its own. -/
  leads : ∀ key n, w.Leads i began key n →
    w'.site.synchronizer.inFlight.get? key = some n ∧ w'.departures n = w.departures n
  /-- The slices of its store stay as late as they are. -/
  landed : ∀ key n, w.Leads i began key n → w.Landed plans n key → w'.Landed plans n key
  /-- So do the slices from all lines. -/
  globals : ∀ u ∈ w.site.synchronizer.globalVersion,
    ∃ u' ∈ w'.site.synchronizer.globalVersion, u ≤ u'

theorem AtPhase.frame {i began : Nat} {known : Option GlobalOutcome} {phase : SyncPhase}
    (h : w.AtPhase plans i began known phase) (hf : Frame plans w w' i began) :
    w'.AtPhase plans i began known phase := by
  -- A call that leads a flight goes on leading it, and what it has scanned is still of that time.
  have hleads {key : String} {n : Nat} (hl : w.Leads i began key n) : w'.Leads i began key n := by
    obtain ⟨hin, hdep⟩ := hf.leads key n hl
    exact ⟨hin, by rw [hdep, hl.leader], by rw [hdep]; exact hl.began_le⟩
  have hscanned {key : String} {n : Nat} {batch : RollupBatch} (hl : w.Leads i began key n)
      (hs : w.Scanned plans n key batch) : w'.Scanned plans n key batch := by
    obtain ⟨F, hF, hle, hb⟩ := hs
    exact ⟨F, hf.past F hF, by rw [(hf.leads key n hl).2]; exact hle, hb⟩
  cases phase with
  | choosing => trivial
  | wanting key requested => trivial
  | waiting key requested n =>
    obtain ⟨f, hfl, hkey⟩ := h
    obtain ⟨f', hfl', hkey'⟩ := hf.flights n f hfl
    exact ⟨f', hfl', hkey'.trans hkey⟩
  | leading key n => exact hleads h
  | scanned key n scan =>
    obtain ⟨hl, F, hF, hle, hs⟩ := h
    exact ⟨hleads hl, F, hf.past F hF, by rw [(hf.leads key n hl).2]; exact hle, hs⟩
  | built key n batch => exact ⟨hleads h.1, hscanned h.1 h.2⟩
  | scannedAll key n batch scan =>
    obtain ⟨hl, hb, hnone, F, hF, hle⟩ := h
    exact ⟨hleads hl, hscanned hl hb, hnone, F, hf.past F hF, hle⟩
  | ready key n batch globals => exact ⟨hleads h.1, hscanned h.1 h.2.1, h.2.2⟩
  | decided key n outcome =>
    refine ⟨hleads h.1, fun v hv => ⟨?_, ?_⟩⟩
    · exact hf.landed key n h.1 (h.2 v hv).1
    · exact (h.2 v hv).2.mono hf.globals
  | scannedAlone scan =>
    obtain ⟨F, hF, hle⟩ := h
    exact ⟨F, hf.past F hF, hle⟩
  | finished => trivial

/-- What holds of a synchronisation goes on holding while it waits for its turn. -/
theorem Runs.frame {i : Nat} {r : Running} (h : w.Runs plans i r)
    (hf : Frame plans w w' i r.began) : w'.Runs plans i r where
  began_le := Nat.le_trans h.began_le hf.version_le
  known := fun g hg => by
    obtain ⟨F, hF, hle⟩ := h.known g hg
    exact ⟨F, hf.past F hF, hle⟩
  phase := h.phase.frame hf

namespace Sound

theorem inFlight_lt (h : w.Sound plans) {key : String} {n : Nat}
    (hn : w.site.synchronizer.inFlight.get? key = some n) :
    n < w.site.synchronizer.flights.length := by
  obtain ⟨⟨f, hf, -⟩, -⟩ := h.inFlight key n hn
  exact (List.getElem?_eq_some_iff.1 hf).1

/-- Noted changes, counts and the synchronisations themselves are nothing that another one relies
on. -/
theorem frame {i began : Nat} (h : w.Sound plans) (halike : w.site.Alike w'.site)
    (hpast : w'.past = w.past)
    (hflights : w'.site.synchronizer.flights = w.site.synchronizer.flights)
    (hinFlight : w'.site.synchronizer.inFlight = w.site.synchronizer.inFlight)
    (hdep : ∀ n < w.site.synchronizer.flights.length, w'.departures n = w.departures n) :
    Frame plans w w' i began where
  version_le := halike.facts ▸ Nat.le_refl _
  past := fun _ hF => hpast ▸ hF
  flights := fun _ f hf => ⟨f, hflights ▸ hf, rfl⟩
  leads := fun _ n hl => ⟨hinFlight ▸ hl.inFlight, hdep n (h.inFlight_lt hl.inFlight)⟩
  landed := fun _ n hl hlanded => hlanded.mono (fun _ hF => hpast ▸ hF)
    (hdep n (h.inFlight_lt hl.inFlight)) halike.rollups
  globals := fun u hu => ⟨u, halike.globalVersion ▸ hu, Nat.le_refl u⟩

/-! ### Steps beside the synchronisations -/

theorem change (h : w.Sound plans) {facts : FactStore}
    (hle : w.site.facts.version ≤ facts.version) : (w.change facts).Sound plans := by
  have hpast (F : FactStore) (hF : F ∈ w.past) : F ∈ (w.change facts).past :=
    List.mem_append_left _ hF
  have hlanded {n : Nat} {key : String} (hl : w.Landed plans n key) :
      (w.change facts).Landed plans n key := hl.mono hpast rfl rfl
  refine ⟨h.plans_eq, List.mem_append_right _ (List.mem_singleton_self _), fun F hF => ?_,
    h.covered_le, fun n hn => Nat.le_trans (h.departed_le n hn) hle, h.departed_mono, h.inFlight,
    fun u hu => ?_, fun n f v hf hv => ?_, fun i r hr => ?_⟩
  · rcases List.mem_append.1 hF with hF | hF
    · exact Nat.le_trans (h.past_le F hF) hle
    · rw [List.mem_singleton.1 hF]
      exact Nat.le_refl _
  · obtain ⟨F, hF, hu⟩ := h.globals u hu
    exact ⟨F, hpast F hF, hu⟩
  · exact ⟨hlanded (h.landed n f v hf hv).1, (h.landed n f v hf hv).2⟩
  · exact (h.runs i r hr).frame ⟨hle, hpast, fun _ f hf => ⟨f, hf, rfl⟩,
      fun _ _ hl => ⟨hl.inFlight, rfl⟩, fun _ _ _ hl => hlanded hl,
      fun u hu => ⟨u, hu, Nat.le_refl u⟩⟩

theorem note (h : w.Sound plans) (keys : KeySet String) : (w.note keys).Sound plans where
  plans_eq := h.plans_eq
  present := h.present
  past_le := h.past_le
  covered_le := fun n f hf => Nat.le_trans (h.covered_le n f hf)
    (Synchronizer.sequenceOf_le_recordMutation ..)
  departed_le := h.departed_le
  departed_mono := h.departed_mono
  inFlight := h.inFlight
  globals := h.globals
  landed := h.landed
  runs := fun i r hr => (h.runs i r hr).frame
    (h.frame ⟨rfl, rfl, rfl, rfl⟩ rfl rfl rfl fun _ _ => rfl)

/-- A synchronisation that begins has done nothing yet. -/
theorem begin (h : w.Sound plans) {c : SyncCall} (hphase : c.phase = .choosing)
    (hglobals : c.globals = none) :
    (w.begin (c, { w.site with synchronizer := w.site.synchronizer.begin })).Sound plans := by
  refine ⟨h.plans_eq, h.present, h.past_le, h.covered_le, h.departed_le, h.departed_mono,
    h.inFlight, h.globals, fun n f v hf hv => ?_, fun i r hr => ?_⟩
  · obtain ⟨hl, r, hr, hrest⟩ := h.landed n f v hf hv
    obtain ⟨hlt, -⟩ := List.getElem?_eq_some_iff.1 hr
    exact ⟨hl, r, (List.getElem?_append_left hlt).trans hr, hrest⟩
  · change (w.running ++ [⟨w.site.facts.version, c⟩])[i]? = some r at hr
    by_cases hlt : i < w.running.length
    · rw [List.getElem?_append_left hlt] at hr
      exact (h.runs i r hr).frame (h.frame ⟨rfl, rfl, rfl, rfl⟩ rfl rfl rfl fun _ _ => rfl)
    · obtain rfl : r = ⟨w.site.facts.version, c⟩ := by
        rw [List.getElem?_append_right (by omega)] at hr
        exact (List.mem_singleton.1 (List.mem_of_getElem? hr))
      refine ⟨Nat.le_refl _, fun g hg => ?_, ?_⟩
      · rw [hglobals] at hg
        cases hg
      · change AtPhase _ _ _ _ _ c.phase
        rw [hphase]
        trivial

/-! ### Steps of a synchronisation -/

section Advance

variable {i : Nat} {r : Running} {next : SyncCall.Next}

theorem departures_advance {n : Nat} (hn : n < w.site.synchronizer.flights.length) :
    (w.advance i r next).departures n = w.departures n :=
  Function.update_of_ne (Nat.ne_of_lt hn) _ _

theorem departures_advance_self :
    (w.advance i r next).departures w.site.synchronizer.flights.length =
      ⟨w.site.facts.version, i⟩ := Function.update_self ..

/-- The synchronisation of a number after a step of one of them. -/
theorem getElem?_running_advance {j : Nat} {r' : Running} (hi : w.running[i]? = some r)
    (hj : (w.advance i r next).running[j]? = some r') :
    j = i ∧ r' = { r with call := next.call } ∨ j ≠ i ∧ w.running[j]? = some r' := by
  change (w.running.set i _)[j]? = some r' at hj
  obtain ⟨hlt, -⟩ := List.getElem?_eq_some_iff.1 hi
  by_cases h : j = i
  · subst h
    rw [List.getElem?_set_self hlt] at hj
    exact .inl ⟨rfl, (Option.some.inj hj).symm⟩
  · rw [List.getElem?_set_ne (Ne.symm h)] at hj
    exact .inr ⟨h, hj⟩

/-- A step of one synchronisation keeps what holds of all others, and what successful flights have
brought about. -/
theorem runs_advance (h : w.Sound plans) (hi : w.running[i]? = some r)
    (hframe : ∀ j began, j ≠ i → Frame plans w (w.advance i r next) j began)
    (hnew : (w.advance i r next).Runs plans i { r with call := next.call }) (j : Nat) (r' : Running)
    (hj : (w.advance i r next).running[j]? = some r') : (w.advance i r next).Runs plans j r' := by
  rcases getElem?_running_advance hi hj with ⟨rfl, rfl⟩ | ⟨hne, hj⟩
  · exact hnew
  · exact (h.runs j r' hj).frame (hframe j r'.began hne)

/-- Successful flights are still reported after a step, and the slices from all lines as late. -/
theorem reported_advance (h : w.Sound plans) (hi : w.running[i]? = some r) {n : Nat} {f : Flight}
    {v : Nat} (hf : w.site.synchronizer.flights[n]? = some f) (hv : f.outcome = some (.ok v))
    (hkeep : ∀ known, r.call.globals = some known → next.call.globals = some known)
    (hrebuilt : ∀ key ∈ r.call.report.rebuilt, key ∈ next.call.report.rebuilt)
    (hversion : ∀ u ∈ w.site.synchronizer.globalVersion,
      ∃ u' ∈ next.site.synchronizer.globalVersion, u ≤ u') :
    ∃ r', (w.advance i r next).running[((w.advance i r next).departures n).leader]? = some r' ∧
      f.key ∈ r'.call.report.rebuilt ∧ (w.advance i r next).UpToDate plans r'.call.globals := by
  obtain ⟨hlt, -⟩ := List.getElem?_eq_some_iff.1 hf
  rw [departures_advance hlt]
  obtain ⟨-, r', hr', hrep, hup⟩ := h.landed n f v hf hv
  change ∃ r'', (w.running.set i { r with call := next.call })[_]? = some r'' ∧ _
  by_cases he : (w.departures n).leader = i
  · rw [he, hi] at hr'
    obtain rfl := Option.some.inj hr'
    rw [he, List.getElem?_set_self (List.getElem?_eq_some_iff.1 hi).1]
    refine ⟨_, rfl, hrebuilt _ hrep, UpToDate.mono (w := w) (fun hne => ?_) hversion⟩
    obtain ⟨g, hg, hu⟩ := hup hne
    exact ⟨g, hkeep _ hg, hu⟩
  · rw [List.getElem?_set_ne (Ne.symm he)]
    exact ⟨r', hr', hrep, hup.mono hversion⟩

theorem departed_le_advance (h : w.Sound plans) (n : Nat)
    (hn : n < w.site.synchronizer.flights.length) :
    ((w.advance i r next).departures n).version ≤ w.site.facts.version := by
  rw [departures_advance hn]
  exact h.departed_le n hn

theorem departed_mono_advance (h : w.Sound plans) (m n : Nat) (hmn : m ≤ n)
    (hn : n < w.site.synchronizer.flights.length) :
    ((w.advance i r next).departures m).version ≤ ((w.advance i r next).departures n).version := by
  rw [departures_advance hn, departures_advance (Nat.lt_of_le_of_lt hmn hn)]
  exact h.departed_mono m n hmn hn

/-- A step that changes nothing but counts, and the synchronisation itself. -/
theorem quiet (h : w.Sound plans) (hi : w.running[i]? = some r) (call : SyncCall)
    (stats : SyncStats) (events : List SyncEvent)
    (hkeep : ∀ known, r.call.globals = some known → call.globals = some known)
    (hknown : ∀ g, call.globals = some (.ok g) → ∃ F ∈ w.past, r.began ≤ F.version ∧
      Rebuild.OfSnapshot plans ⟨F.version, F.lines⟩ g)
    (hrebuilt : ∀ key ∈ r.call.report.rebuilt, key ∈ call.report.rebuilt)
    (hphase : w.AtPhase plans i r.began call.globals call.phase) :
    (w.advance i r ⟨call, { w.site with synchronizer := { w.site.synchronizer with stats } },
      events⟩).Sound plans := by
  have hframe (j began : Nat) : Frame plans w (w.advance i r ⟨call,
      { w.site with synchronizer := { w.site.synchronizer with stats } }, events⟩) j began :=
    h.frame ⟨rfl, rfl, rfl, rfl⟩ rfl rfl rfl fun _ hn => departures_advance hn
  refine ⟨h.plans_eq, h.present, h.past_le, h.covered_le, ?_, ?_, h.inFlight, h.globals,
    fun n f v hf hv => ⟨?_, ?_⟩, ?_⟩
  · exact h.departed_le_advance
  · exact h.departed_mono_advance
  · exact (h.landed n f v hf hv).1.mono (fun _ hF => hF)
      (departures_advance (List.getElem?_eq_some_iff.1 hf).1) rfl
  · exact h.reported_advance hi hf hv hkeep hrebuilt fun u hu => ⟨u, hu, Nat.le_refl u⟩
  · refine h.runs_advance hi (fun j began _ => hframe j began) ?_
    exact ⟨(h.runs i r hi).began_le, hknown, hphase.frame (hframe i r.began)⟩

section OpenFlight

variable {key : String}

/-- The flight that a store has is still its last one when another flight is opened. -/
theorem inFlight_openFlight (h : w.Sound plans) {key' : String} {n : Nat}
    (hn : (w.site.synchronizer.openFlight key).2.inFlight.get? key' = some n) :
    (∃ f, (w.site.synchronizer.openFlight key).2.flights[n]? = some f ∧ f.key = key' ∧
        f.outcome = none) ∧
      ∀ (m : Nat) f, (w.site.synchronizer.openFlight key).2.flights[m]? = some f → f.key = key' →
        m ≤ n := by
  rw [Synchronizer.get?_inFlight_openFlight] at hn
  split at hn
  · next hkey =>
    obtain rfl := Option.some.inj hn
    refine ⟨⟨_, (Synchronizer.getElem?_openFlight ..).trans (if_pos rfl), hkey.symm, rfl⟩,
      fun m f hf _ => ?_⟩
    have hlt := (List.getElem?_eq_some_iff.1 hf).1
    rw [Synchronizer.length_flights_openFlight] at hlt
    exact Nat.lt_succ_iff.1 hlt
  · next hkey =>
    obtain ⟨⟨f, hf, hfkey⟩, hlast⟩ := h.inFlight key' n hn
    refine ⟨⟨f, ?_, hfkey⟩, fun m f' hf' hkey' => ?_⟩
    · rw [Synchronizer.getElem?_openFlight, if_neg (Nat.ne_of_lt (h.inFlight_lt hn))]
      exact hf
    · rcases Synchronizer.flight_of_openFlight hf' with ⟨-, rfl⟩ | hf'
      · exact absurd hkey'.symm hkey
      · exact hlast m f' hf' hkey'

/-- No synchronisation minds a flight for a store that has none. -/
theorem frame_openFlight (h : w.Sound plans) (hnone : w.site.synchronizer.inFlight.get? key = none)
    (call : SyncCall) (j began : Nat) :
    Frame plans w (w.advance i r ⟨call, { w.site with
      synchronizer := (w.site.synchronizer.openFlight key).2 }, []⟩) j began where
  version_le := Nat.le_refl _
  past := fun _ hF => hF
  flights := fun n f hf => by
    have hlt := (List.getElem?_eq_some_iff.1 hf).1
    refine ⟨f, (Synchronizer.getElem?_openFlight ..).trans ?_, rfl⟩
    exact (if_neg (Nat.ne_of_lt hlt)).trans hf
  leads := fun key' n hl => by
    refine ⟨(Synchronizer.get?_inFlight_openFlight ..).trans ?_,
      departures_advance (h.inFlight_lt hl.inFlight)⟩
    refine (if_neg fun hkey => ?_).trans hl.inFlight
    have hsome := hl.inFlight
    rw [hkey, hnone] at hsome
    cases hsome
  landed := fun _ n hl hlanded => hlanded.mono (fun _ hF => hF)
    (departures_advance (h.inFlight_lt hl.inFlight)) rfl
  globals := fun u hu => ⟨u, hu, Nat.le_refl u⟩

/-- A step that opens a flight for a store that has none. -/
theorem openFlight (h : w.Sound plans) (hi : w.running[i]? = some r)
    (hnone : w.site.synchronizer.inFlight.get? key = none) (call : SyncCall)
    (hglobals : call.globals = r.call.globals) (hreport : call.report = r.call.report)
    (hphase : call.phase = .leading key w.site.synchronizer.flights.length) :
    (w.advance i r ⟨call, { w.site with
      synchronizer := (w.site.synchronizer.openFlight key).2 }, []⟩).Sound plans := by
  have hframe := h.frame_openFlight (i := i) (r := r) hnone call
  have hdepart : (w.advance i r ⟨call, { w.site with synchronizer :=
      (w.site.synchronizer.openFlight key).2 }, []⟩).departures w.site.synchronizer.flights.length =
      ⟨w.site.facts.version, i⟩ := departures_advance_self
  -- the new flight departs now, and all others have departed before
  have hcases (n : Nat) (hn : n < (w.site.synchronizer.openFlight key).2.flights.length) :
      n < w.site.synchronizer.flights.length ∨ n = w.site.synchronizer.flights.length := by
    rw [Synchronizer.length_flights_openFlight] at hn
    exact Nat.lt_succ_iff_lt_or_eq.1 hn
  refine ⟨h.plans_eq, h.present, h.past_le, fun n f hf => ?_, fun n hn => ?_, fun m n hmn hn => ?_,
    fun _ _ hn => h.inFlight_openFlight hn, h.globals, fun n f v hf hv => ?_, ?_⟩
  · rcases Synchronizer.flight_of_openFlight hf with ⟨-, rfl⟩ | hf
    · exact Nat.le_refl _
    · exact h.covered_le n f hf
  · rcases hcases n hn with hn | rfl
    · exact h.departed_le_advance n hn
    · exact Nat.le_of_eq (congrArg Departure.version hdepart)
  · rcases hcases n hn with hn | rfl
    · exact h.departed_mono_advance m n hmn hn
    · rw [hdepart]
      rcases Nat.lt_or_eq_of_le hmn with hlt | rfl
      · exact h.departed_le_advance m hlt
      · exact Nat.le_of_eq (congrArg Departure.version hdepart)
  · rcases Synchronizer.flight_of_openFlight hf with ⟨-, rfl⟩ | hf
    · cases hv
    · refine ⟨(h.landed n f v hf hv).1.mono (fun _ hF => hF)
        (departures_advance (List.getElem?_eq_some_iff.1 hf).1) rfl, ?_⟩
      exact h.reported_advance hi hf hv (fun known hk => hglobals.trans hk)
        (fun k hk => by rw [hreport]; exact hk) fun u hu => ⟨u, hu, Nat.le_refl u⟩
  · refine h.runs_advance hi (fun j began _ => hframe j began)
      ⟨(h.runs i r hi).began_le, fun g hg => (h.runs i r hi).known g (hglobals ▸ hg), ?_⟩
    change AtPhase _ _ _ _ _ call.phase
    rw [hphase]
    refine ⟨(Synchronizer.get?_inFlight_openFlight ..).trans (if_pos rfl), by rw [hdepart], ?_⟩
    rw [hdepart]
    exact (h.runs i r hi).began_le

end OpenFlight

section Commit

variable {key : String} {batch : RollupBatch} {globals : Option GlobalSlices} {F : FactStore}

/-- Flights that have brought their stores up to date are no later than what is committed now. -/
theorem landed_commit (hn : DistinctNames plans) (h : w.Sound plans)
    (ho : Rebuild.OnlyStore plans key batch)
    (hb : ∀ (m : Nat) f, w.site.synchronizer.flights[m]? = some f → f.key = key →
      batch = [] ∨ w.Scanned plans m key batch)
    (hg : ∀ g ∈ globals, Rebuild.OfSnapshot plans ⟨F.version, F.lines⟩ g) (call : SyncCall)
    (events : List SyncEvent) {m : Nat} {f : Flight}
    (hf : w.site.synchronizer.flights[m]? = some f) (hl : w.Landed plans m f.key) :
    (w.advance i r ⟨call, (w.site.commit key batch globals).2.2, events⟩).Landed plans m f.key := by
  have hplans := h.plans_eq
  subst hplans
  have hother (hid : ∀ name, (⟨name, f.key⟩ : SliceId) ∉ batch.sliceIds) : ∃ F ∈ w.past,
      (w.departures m).version ≤ F.version ∧ ∀ p ∈ Rebuild.storePlans w.site.synchronizer.plans,
        (w.site.commit key batch globals).2.2.rollups.Holds p f.key (F.linesOf f.key) := by
    obtain ⟨F', hF', hle, hp⟩ := hl
    exact ⟨F', hF', hle, fun p hp' =>
      (hp p hp').congr (SyncSite.get?_commit_other hn hg hp' (hid p.name))⟩
  unfold Landed
  rw [departures_advance (List.getElem?_eq_some_iff.1 hf).1]
  by_cases hkey : f.key = key
  · rcases hb m f hf hkey with rfl | ⟨F', hF', hle, hof⟩
    · exact hother fun _ => List.not_mem_nil
    · rw [hkey]
      exact ⟨F', hF', hle, fun p hp => SyncSite.holds_commit_store hn ho hg hof hp⟩
  · exact hother fun _ => ho.notMem hkey

/-- The slices from all lines come from the lines of the version that they carry, those that a
commit brings and those that it leaves. -/
theorem globals_commit (hn : DistinctNames plans) (h : w.Sound plans)
    (ho : Rebuild.OnlyStore plans key batch) (hF : F ∈ w.past)
    (hg : ∀ g ∈ globals, Rebuild.OfSnapshot plans ⟨F.version, F.lines⟩ g) {u : Nat}
    (hu : u ∈ SyncSite.newVersion w.site.synchronizer globals) :
    ∃ F ∈ w.past, F.version = u ∧ ∀ q ∈ Rebuild.globalPlans plans,
      (w.site.commit key batch globals).2.2.rollups.Holds q globalScope F.lines := by
  have hplans := h.plans_eq
  subst hplans
  unfold SyncSite.newVersion at hu
  -- Either the slices are admitted with their version, or those of the version before stay.
  by_cases hadmits : ∃ g, globals = some g ∧ SyncSite.admits w.site.synchronizer g.version = true
  · obtain ⟨g, rfl, ha⟩ := hadmits
    dsimp only at hu
    rw [if_pos ha] at hu
    obtain rfl := Option.some.inj hu
    refine ⟨F, hF, (hg g rfl).version.symm, fun q hq => ?_⟩
    exact SyncSite.holds_commit_global hn ho hg rfl ha hq
  · have hrefused (g : GlobalSlices) (hsome : g ∈ globals) :
        SyncSite.admits w.site.synchronizer g.version = false :=
      Bool.eq_false_iff.2 fun ha => hadmits ⟨g, hsome, ha⟩
    have hu' : u ∈ w.site.synchronizer.globalVersion := by
      cases hsome : globals with
      | none =>
        rw [hsome] at hu
        exact hu
      | some g =>
        rw [hsome] at hu
        dsimp only at hu
        rwa [hrefused g hsome, if_neg Bool.false_ne_true] at hu
    obtain ⟨F', hF', hv, hq'⟩ := h.globals u hu'
    exact ⟨F', hF', hv, fun q hq =>
      (hq' q hq).congr (SyncSite.get?_commit_global hn ho hrefused hq)⟩

/-- A step that commits slices of one store, and slices from all lines. -/
theorem commit (hn : DistinctNames plans) (h : w.Sound plans) (hi : w.running[i]? = some r)
    (ho : Rebuild.OnlyStore plans key batch)
    (hb : ∀ (m : Nat) f, w.site.synchronizer.flights[m]? = some f → f.key = key →
      batch = [] ∨ w.Scanned plans m key batch)
    (hF : F ∈ w.past) (hg : ∀ g ∈ globals, Rebuild.OfSnapshot plans ⟨F.version, F.lines⟩ g)
    (call : SyncCall) (events : List SyncEvent) (hglobals : call.globals = r.call.globals)
    (hreport : call.report = r.call.report)
    (hphase : (w.advance i r ⟨call, (w.site.commit key batch globals).2.2, events⟩).AtPhase plans i
      r.began call.globals call.phase) :
    (w.advance i r ⟨call, (w.site.commit key batch globals).2.2, events⟩).Sound plans := by
  -- A commit opens and closes no flight, and notes no change: only rollups and the version differ.
  have hlanded {m : Nat} {f : Flight} (hf : w.site.synchronizer.flights[m]? = some f) :=
    h.landed_commit (i := i) (r := r) hn ho hb hg call events hf
  have hsync := w.site.synchronizer_commit key batch globals
  have hversion (u : Nat) (hu : u ∈ w.site.synchronizer.globalVersion) :
      ∃ u' ∈ (w.site.commit key batch globals).2.2.synchronizer.globalVersion, u ≤ u' := by
    rw [hsync]
    exact SyncSite.le_newVersion hu globals
  have hframe (j began : Nat) : Frame plans w
      (w.advance i r ⟨call, (w.site.commit key batch globals).2.2, events⟩) j began := by
    refine ⟨Nat.le_refl _, fun _ hF => hF, fun n f hf => ⟨f, ?_, rfl⟩, fun key' n hl => ⟨?_, ?_⟩,
      fun key' n hl hl' => ?_, hversion⟩
    · exact (congrArg (·.flights[n]?) hsync).trans hf
    · exact (congrArg (·.inFlight.get? key') hsync).trans hl.inFlight
    · exact departures_advance (h.inFlight_lt hl.inFlight)
    · obtain ⟨⟨f, hf, rfl, -⟩, -⟩ := h.inFlight key' n hl.inFlight
      exact hlanded hf hl'
  refine ⟨(congrArg (·.plans) hsync).trans h.plans_eq, h.present, h.past_le, fun n f hf => ?_,
    fun n hlt => ?_, fun m n hmn hlt => ?_, fun key' n hin => ?_, fun u hu => ?_,
    fun n f v hf hv => ?_, ?_⟩
  · change (w.site.commit key batch globals).2.2.synchronizer.flights[n]? = some f at hf
    change f.covered ≤ (w.site.commit key batch globals).2.2.synchronizer.sequenceOf f.key
    rw [hsync] at hf ⊢
    exact h.covered_le n f hf
  · change n < (w.site.commit key batch globals).2.2.synchronizer.flights.length at hlt
    rw [hsync] at hlt
    exact h.departed_le_advance n hlt
  · change n < (w.site.commit key batch globals).2.2.synchronizer.flights.length at hlt
    rw [hsync] at hlt
    exact h.departed_mono_advance m n hmn hlt
  · change (w.site.commit key batch globals).2.2.synchronizer.inFlight.get? key' = some n at hin
    change (∃ f, (w.site.commit key batch globals).2.2.synchronizer.flights[n]? = some f ∧ _) ∧
      ∀ m f, (w.site.commit key batch globals).2.2.synchronizer.flights[m]? = some f → _
    rw [hsync] at hin ⊢
    exact h.inFlight key' n hin
  · change u ∈ (w.site.commit key batch globals).2.2.synchronizer.globalVersion at hu
    rw [hsync] at hu
    exact h.globals_commit hn ho hF hg hu
  · change (w.site.commit key batch globals).2.2.synchronizer.flights[n]? = some f at hf
    rw [hsync] at hf
    refine ⟨hlanded hf (h.landed n f v hf hv).1, ?_⟩
    exact h.reported_advance hi hf hv (fun known hk => hglobals.trans hk)
      (fun k hk => by rw [hreport]; exact hk) hversion
  · refine h.runs_advance hi (fun j began _ => hframe j began)
      ⟨(h.runs i r hi).began_le, fun g hg' => ?_, hphase⟩
    exact (h.runs i r hi).known g (hglobals ▸ hg')

/-- After its commit a synchronisation knows that its store is up to date. -/
theorem atPhase_commit (hn : DistinctNames plans) (h : w.Sound plans) {began n : Nat}
    {known : Option GlobalOutcome} {G : FactStore} (hl : w.Leads i began key n) (hF : F ∈ w.past)
    (hle : (w.departures n).version ≤ F.version)
    (hof : Rebuild.OfStore plans key (F.linesOf key) batch)
    (hg : ∀ g ∈ globals, Rebuild.OfSnapshot plans ⟨G.version, G.lines⟩ g)
    (hknown : ∀ g ∈ globals, known = some (.ok g))
    (hneeded : globals = none → Rebuild.globalPlans plans = []) (call : SyncCall)
    (events : List SyncEvent) :
    (w.advance i r ⟨call, (w.site.commit key batch globals).2.2, events⟩).AtPhase plans i began
      known (.decided key n (.ok (w.site.commit key batch globals).1)) := by
  have hplans := h.plans_eq
  subst hplans
  have hdep : (w.advance i r ⟨call, (w.site.commit key batch globals).2.2, events⟩).departures n =
      w.departures n := departures_advance (h.inFlight_lt hl.inFlight)
  have hsync := w.site.synchronizer_commit key batch globals
  refine ⟨⟨?_, by rw [hdep, hl.leader], by rw [hdep]; exact hl.began_le⟩, fun v _ =>
    ⟨⟨F, hF, by rw [hdep]; exact hle, fun p hp => ?_⟩, fun hne => ?_⟩⟩
  · exact (congrArg (·.inFlight.get? key) hsync).trans hl.inFlight
  · exact SyncSite.holds_commit_store hn (hof.only hn) hg hof hp
  · cases globals with
    | none => exact absurd (hneeded rfl) hne
    | some g =>
      obtain ⟨u, hu, hle⟩ := SyncSite.version_le_newVersion w.site.synchronizer g
      exact ⟨g, hknown g rfl, u, (congrArg (·.globalVersion) hsync).symm ▸ hu, hle⟩

end Commit

section CloseFlight

variable {key : String} {n : Nat}

/-- The flight that a store has is still its last one when that of another store ends. -/
theorem inFlight_closeFlight (h : w.Sound plans)
    (hin : w.site.synchronizer.inFlight.get? key = some n) {outcome : KeyOutcome} {key' : String}
    {m : Nat} (hm : (w.site.synchronizer.closeFlight key n outcome).inFlight.get? key' = some m) :
    (∃ f, (w.site.synchronizer.closeFlight key n outcome).flights[m]? = some f ∧ f.key = key' ∧
        f.outcome = none) ∧
      ∀ (m' : Nat) f, (w.site.synchronizer.closeFlight key n outcome).flights[m']? = some f →
        f.key = key' → m' ≤ m := by
  rw [Synchronizer.get?_inFlight_closeFlight hin] at hm
  split at hm
  · cases hm
  · next hne =>
    obtain ⟨⟨f, hf, hfkey⟩, hlast⟩ := h.inFlight key' m hm
    -- the flight that ends is that of another store
    have hnm : n ≠ m := by
      rintro rfl
      obtain ⟨⟨f₀, hf₀, hkey₀, -⟩, -⟩ := h.inFlight key n hin
      rw [hf₀] at hf
      obtain rfl := Option.some.inj hf
      exact hne (hfkey.1.symm.trans hkey₀)
    refine ⟨⟨f, ?_, hfkey⟩, fun m' f' hf' hkey' => ?_⟩
    · rw [Synchronizer.getElem?_closeFlight, hf, Option.map_some, if_neg hnm]
    · obtain ⟨f'', hf'', hk, -⟩ := Synchronizer.flight_of_closeFlight hf'
      exact hlast m' f'' hf'' (hk.symm.trans hkey')

/-- No other synchronisation minds the end of a flight. -/
theorem frame_closeFlight (h : w.Sound plans) {first : Nat} (hl : w.Leads i first key n)
    (outcome : KeyOutcome) (call : SyncCall) {j : Nat} (hj : j ≠ i) (began : Nat) :
    Frame plans w (w.advance i r ⟨call, { w.site with
      synchronizer := w.site.synchronizer.closeFlight key n outcome }, []⟩) j began where
  version_le := Nat.le_refl _
  past := fun _ hF => hF
  flights := fun m f hf => by
    refine ⟨_, (Synchronizer.getElem?_closeFlight ..).trans (congrArg _ hf), ?_⟩
    split <;> rfl
  leads := fun key' m hl' => by
    refine ⟨(Synchronizer.get?_inFlight_closeFlight hl.inFlight ..).trans ?_,
      departures_advance (h.inFlight_lt hl'.inFlight)⟩
    -- another synchronisation leads the flight of another store
    refine (if_neg fun hkey => ?_).trans hl'.inFlight
    have hsame := hl'.inFlight
    rw [hkey, hl.inFlight] at hsame
    obtain rfl := Option.some.inj hsame
    exact hj (hl'.leader.symm.trans hl.leader)
  landed := fun _ m hl' hlanded => hlanded.mono (fun _ hF => hF)
    (departures_advance (h.inFlight_lt hl'.inFlight)) rfl
  globals := fun u hu => ⟨u, hu, Nat.le_refl u⟩

/-- A step that ends a flight. -/
theorem closeFlight (h : w.Sound plans) (hi : w.running[i]? = some r) {outcome : KeyOutcome}
    (hphase : r.call.phase = .decided key n outcome) :
    (w.advance i r ⟨r.call.settle key outcome false, { w.site with
      synchronizer := w.site.synchronizer.closeFlight key n outcome }, []⟩).Sound plans := by
  obtain ⟨hl, hout⟩ : w.Leads i r.began key n ∧
      ∀ v, outcome = .ok v → w.Landed plans n key ∧ w.UpToDate plans r.call.globals := by
    have hat := (h.runs i r hi).phase
    rw [hphase] at hat
    exact hat
  have hlength := w.site.synchronizer.length_flights_closeFlight key n outcome
  have hrebuilt (k : String) (hk : k ∈ r.call.report.rebuilt) :
      k ∈ (r.call.settle key outcome false).report.rebuilt := by
    cases outcome with
    | ok v => exact List.mem_append_left _ hk
    | error f => exact hk
  refine ⟨h.plans_eq, h.present, h.past_le, fun m f hf => ?_, fun m hm => ?_,
    fun m m' hmm hm => ?_, fun _ _ hm => h.inFlight_closeFlight hl.inFlight hm, h.globals,
    fun m f v hf hv => ?_, ?_⟩
  · obtain ⟨f', hf', hk, hc, -⟩ := Synchronizer.flight_of_closeFlight hf
    rw [hk, hc]
    exact h.covered_le m f' hf'
  · exact h.departed_le_advance m (hlength ▸ hm)
  · exact h.departed_mono_advance m m' hmm (hlength ▸ hm)
  · obtain ⟨f', hf', hk, -, ⟨rfl, ho⟩ | ⟨hne, rfl⟩⟩ := Synchronizer.flight_of_closeFlight hf
    · -- the flight that ends
      obtain ⟨⟨f₀, hf₀, hkey₀, -⟩, -⟩ := h.inFlight key m hl.inFlight
      rw [hf₀] at hf'
      obtain rfl := Option.some.inj hf'
      rw [hk, hkey₀]
      rw [ho] at hv
      obtain rfl := Option.some.inj hv
      obtain ⟨hlanded, hup⟩ := hout v rfl
      have hlt := h.inFlight_lt hl.inFlight
      refine ⟨hlanded.mono (fun _ hF => hF) (departures_advance hlt) rfl, ?_⟩
      rw [departures_advance hlt, hl.leader]
      refine ⟨_, List.getElem?_set_self (List.getElem?_eq_some_iff.1 hi).1, ?_, ?_⟩
      · exact List.mem_append_right _ (List.mem_singleton_self _)
      · exact hup.mono fun u hu => ⟨u, hu, Nat.le_refl u⟩
    · refine ⟨(h.landed m f v hf' hv).1.mono (fun _ hF => hF)
        (departures_advance (List.getElem?_eq_some_iff.1 hf').1) rfl, ?_⟩
      exact h.reported_advance hi hf' hv (fun known hk => hk) hrebuilt
        fun u hu => ⟨u, hu, Nat.le_refl u⟩
  · refine h.runs_advance hi (fun j began hj => h.frame_closeFlight hl outcome _ hj began) ?_
    exact ⟨(h.runs i r hi).began_le, (h.runs i r hi).known, trivial⟩

end CloseFlight

/-- With the slices from all lines, or without them if they cannot be computed, a synchronisation goes
on to its commit. -/
theorem atPhase_withGlobals {began n : Nat} {key : String} {batch : RollupBatch}
    (hl : w.Leads i began key n) (hs : w.Scanned plans n key batch) (known : GlobalOutcome) :
    w.AtPhase plans i began (some known) (SyncCall.withGlobals key n batch known) := by
  cases known with
  | error f => exact ⟨hl, fun v hv => by cases hv⟩
  | ok g =>
    refine ⟨hl, hs, fun g' hg => ?_, fun hnone => ?_⟩
    · cases hg
      rfl
    · cases hnone

/-- A step that goes on to another place without a change of what the synchronisation knows. -/
theorem goOn (h : w.Sound plans) (hi : w.running[i]? = some r) (keys : List String)
    (phase : SyncPhase) (hphase : w.AtPhase plans i r.began r.call.globals phase) :
    (w.advance i r ⟨{ r.call with keys, phase }, w.site, []⟩).Sound plans :=
  h.quiet hi { r.call with keys, phase } w.site.synchronizer.stats [] (fun _ hk => hk)
    (h.runs i r hi).known (fun _ hk => hk) hphase

/-- A step that commits what a synchronisation has computed. -/
theorem commitReady (hn : DistinctNames plans) (h : w.Sound plans) (hi : w.running[i]? = some r)
    {key : String} {n : Nat} {batch : RollupBatch} {globals : Option GlobalSlices}
    (hphase : r.call.phase = .ready key n batch globals) (events : List SyncEvent) :
    (w.advance i r
      ⟨{ r.call with phase := .decided key n (.ok (w.site.commit key batch globals).1) },
        (w.site.commit key batch globals).2.2, events⟩).Sound plans := by
  have hruns := h.runs i r hi
  have hat := hruns.phase
  rw [hphase] at hat
  obtain ⟨hl, ⟨F, hF, hle, hof⟩, hknown, hneeded⟩ := hat
  obtain ⟨G, hG, hg⟩ : ∃ G ∈ w.past, ∀ g ∈ globals,
      Rebuild.OfSnapshot plans ⟨G.version, G.lines⟩ g := by
    cases globals with
    | none => exact ⟨F, hF, fun g hg => by cases hg⟩
    | some g =>
      obtain ⟨G, hG, -, hg⟩ := hruns.known g (hknown g rfl)
      exact ⟨G, hG, fun g' hg' => Option.some.inj hg' ▸ hg⟩
  refine h.commit hn hi (hof.only hn) (fun m f hf hkey => .inr ⟨F, hF, ?_, hof⟩) hG hg _ events
    rfl rfl (h.atPhase_commit hn hl hF hle hof hg hknown hneeded _ _)
  have hmn : m ≤ n := (h.inFlight key n hl.inFlight).2 m f hf hkey
  exact Nat.le_trans (h.departed_mono m n hmn (h.inFlight_lt hl.inFlight)) hle

/-- **Every step of a synchronisation keeps the invariant.** -/
theorem advance (hn : DistinctNames plans) (h : w.Sound plans) (hi : w.running[i]? = some r)
    (hstep : r.call.step w.site = some next) : (w.advance i r next).Sound plans := by
  have hruns := h.runs i r hi
  have hat := hruns.phase
  -- Most steps change the call alone; flights are opened and closed, and two steps commit.
  cases SyncCall.goesOn_of_step hstep with
  | finish hphase =>
    exact h.quiet hi _ _ _ (fun _ hk => hk) hruns.known (fun _ hk => hk) trivial
  | scanAlone hphase =>
    exact h.quiet hi _ _ _ (fun _ hk => hk) hruns.known (fun _ hk => hk)
      ⟨w.site.facts, h.present, hruns.began_le, rfl⟩
  | choose hphase hkeys => exact h.goOn hi _ _ trivial
  | join hphase hflight =>
    obtain ⟨⟨f, hf, hkey, -⟩, -⟩ := h.inFlight _ _ hflight
    exact h.goOn hi _ _ ⟨f, hf, hkey⟩
  | lead hphase hnone => exact h.openFlight hi hnone _ rfl rfl rfl
  | @share key requested flight f outcome hphase hflight houtcome hcovered =>
    refine h.quiet hi _ _ _ (fun _ hk => hk) hruns.known (fun k hk => ?_) trivial
    cases outcome with
    | ok v => exact List.mem_append_left _ hk
    | error f => exact hk
  | wantAgain hphase hflight hover hmissed => exact h.goOn hi _ _ trivial
  | @scan key n hphase =>
    rw [hphase] at hat
    exact h.goOn hi _ _
      ⟨hat, w.site.facts, h.present, h.departed_le n (h.inFlight_lt hat.inFlight), rfl⟩
  | build hphase hbatch =>
    rw [hphase] at hat
    obtain ⟨hl, F, hF, hle, rfl⟩ := hat
    exact h.goOn hi _ _ ⟨hl, F, hF, hle, h.plans_eq ▸ Rebuild.ofStore_of_ofKeyScan hbatch⟩
  | buildFails hphase hbatch =>
    rw [hphase] at hat
    exact h.goOn hi _ _ ⟨hat.1, fun v hv => by cases hv⟩
  | needNone hphase hplans =>
    rw [hphase] at hat
    refine h.goOn hi _ _ ⟨hat.1, hat.2, fun g hg => ?_, fun _ => h.plans_eq ▸ hplans⟩
    cases hg
  | reuse hphase hplans hknown =>
    rw [hphase] at hat
    exact h.goOn hi _ _ (hknown ▸ atPhase_withGlobals hat.1 hat.2 _)
  | scanAll hphase hplans hknown =>
    rw [hphase] at hat
    exact h.goOn hi _ _ ⟨hat.1, hat.2, hknown, w.site.facts, h.present, hruns.began_le, rfl⟩
  | gather hphase =>
    rw [hphase] at hat
    obtain ⟨hl, hs, hnone, F, hF, hle, rfl⟩ := hat
    refine h.quiet hi _ w.site.synchronizer.stats _ (fun known hk => ?_) (fun g hg => ?_)
      (fun _ hk => hk) (atPhase_withGlobals hl hs _)
    · rw [hnone] at hk
      cases hk
    · rw [← h.plans_eq]
      exact ⟨F, hF, hle, Rebuild.ofSnapshot_of_ofScan (Option.some.inj hg)⟩
  | commit hphase => exact h.commitReady hn hi hphase _
  | close hphase => exact h.closeFlight hi hphase
  | commitAlone hphase hscan =>
    rw [hphase] at hat
    obtain ⟨F, hF, hle, rfl⟩ := hat
    have hs := Rebuild.ofSnapshot_of_ofScan hscan
    rw [h.plans_eq] at hs
    exact h.commit hn hi (Rebuild.onlyStore_nil plans globalScope) (fun _ _ _ _ => .inl rfl) hF
      (fun g' hg => Option.some.inj hg ▸ hs) _ _ rfl rfl trivial
  | failAlone hphase hscan =>
    exact h.quiet hi _ w.site.synchronizer.stats _ (fun _ hk => hk) hruns.known (fun _ hk => hk)
      trivial

end Advance

/-- **Every step keeps the invariant.** -/
theorem step (hn : DistinctNames plans) (h : w.Sound plans) (hstep : Step w w') :
    w'.Sound plans := by
  cases hstep with
  | change hc => exact h.change hc.version_le
  | note keys => exact h.note keys
  | begin keys => exact h.begin rfl rfl
  | beginAll hb =>
    obtain ⟨c, rfl, hphase, hglobals, -⟩ := SyncCall.startAll_eq_ok hb
    exact h.begin hphase hglobals
  | advance hi hs => exact h.advance hn hi hs
  | setAvailable available => exact h.change (Nat.le_refl _)

end Sound

theorem Reachable.sound (hn : DistinctNames plans) (h : Reachable plans w) : w.Sound plans := by
  induction h with
  | start => exact sound_start plans
  | step _ hstep ih => exact ih.step hn hstep

end SyncWorld

end RetailReport
