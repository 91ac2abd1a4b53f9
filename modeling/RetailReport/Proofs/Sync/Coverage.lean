import RetailReport.Proofs.Sync.Overlap

/-!
# What a synchronisation covers

A caller appends lines of a store, notes the change, and synchronises some stores, that one among
them.  Once its synchronisation reports the store as rebuilt, the slices of the store come from
lines that have the caller's among them, whoever has led the flight that the report rests on.  The
slices from all lines do so, too, if the caller's synchronisation has led that flight itself; if it
has waited for the flight of another one, they may come from an older scan, which the leader of that
flight had made before the caller's lines were there.

## Main definitions

* `Caller`, `CallerWorld`: callers among other synchronisations.
* `SyncWorld.SettledOnce`: a synchronisation has one outcome for each store.
* `Caller.Sound`: what is known of a caller.

## Main results

* `CallerWorld.covered_of_rebuilt`: **the slices that a caller can rely on.**
-/

namespace RetailReport

/-- What a caller has done. -/
inductive CallerStage where
  /-- It has appended its lines. -/
  | appended
  /-- It has noted the change, under a number. -/
  | noted (number : Nat)
  /-- It has begun a synchronisation. -/
  | syncing (number call : Nat)
deriving DecidableEq

/-- Somebody who appends lines of a store and synchronises it. -/
structure Caller where
  /-- The store. -/
  key : String
  /-- The version of the fact store with its lines. -/
  version : Nat
  /-- What it has done. -/
  stage : CallerStage

/-- Callers among other synchronisations. -/
structure CallerWorld where
  /-- The stores and all synchronisations. -/
  world : SyncWorld
  /-- The callers. -/
  callers : List Caller := []

namespace CallerWorld

/-- **One step of the callers**, or of anything else. -/
inductive Step (w : CallerWorld) : CallerWorld → Prop
  /-- A caller appends lines. -/
  | append {lines : List FactRecord} {facts : FactStore} {keys : KeySet String} {key : String} :
      w.world.site.facts.append lines = .ok (facts, keys) → key ∈ keys.members →
      Step w ⟨w.world.change facts, w.callers ++ [⟨key, facts.version, .appended⟩]⟩
  /-- A caller notes its change. -/
  | note {early late : List Caller} {key : String} {version : Nat} :
      w.callers = early ++ ⟨key, version, .appended⟩ :: late →
      Step w ⟨w.world.note (KeySet.ofList [key]), early ++ ⟨key, version,
        .noted ((w.world.note (KeySet.ofList [key])).site.synchronizer.sequenceOf key)⟩ :: late⟩
  /-- A caller begins to synchronise some stores. -/
  | sync {early late : List Caller} {key : String} {version number : Nat} {keys : KeySet String} :
      w.callers = early ++ ⟨key, version, .noted number⟩ :: late → key ∈ keys.members →
      Step w ⟨w.world.begin (SyncCall.start w.world.site keys),
        early ++ ⟨key, version, .syncing number w.world.running.length⟩ :: late⟩
  /-- Anything else happens. -/
  | other {world : SyncWorld} : w.world.Step world → Step w ⟨world, w.callers⟩

/-- The states that the callers can come to. -/
inductive Reachable (plans : List RebuildPlan) : CallerWorld → Prop
  | start : Reachable plans ⟨SyncWorld.start plans, []⟩
  | step {w w' : CallerWorld} : Reachable plans w → Step w w' → Reachable plans w'

end CallerWorld

/-! ### What a step asks for and reports -/

namespace SyncCall

/-- What a step does to the flights, and what it asks for and reports. -/
structure Stepped (c : SyncCall) (w : SyncSite) (next : Next) : Prop where
  /-- The lines stay as they are. -/
  facts : next.site.facts = w.facts
  /-- Nothing is noted. -/
  sequences : ∀ key, next.site.synchronizer.sequenceOf key = w.synchronizer.sequenceOf key
  /-- At most one flight is opened or ends. -/
  flights : (∀ n : Nat, next.site.synchronizer.flights[n]? = w.synchronizer.flights[n]?) ∨
    (∃ key, ∀ n : Nat, next.site.synchronizer.flights[n]? =
      (w.synchronizer.openFlight key).2.flights[n]?) ∨
    ∃ key number outcome, c.phase = .decided key number outcome ∧ ∀ n : Nat,
      next.site.synchronizer.flights[n]? =
        (w.synchronizer.closeFlight key number outcome).flights[n]?
  /-- It asks for the changes that are noted, or for those that it has asked for. -/
  requested : ∀ key requested, (next.call.phase = .wanting key requested ∨
      ∃ n, next.call.phase = .waiting key requested n) →
    requested = w.synchronizer.sequenceOf key ∨ c.phase = .wanting key requested ∨
      ∃ n, c.phase = .waiting key requested n
  /-- It reports what it has rebuilt, or a flight that covers what it has asked for. -/
  reported : ∀ key ∈ next.call.report.rebuilt, key ∈ c.report.rebuilt ∨
    next.call.phase = .choosing ∧
      ((∃ (requested n : Nat) (f : Flight) (v : Nat), c.phase = .waiting key requested n ∧
        w.synchronizer.flights[n]? = some f ∧ f.outcome = some (.ok v) ∧ requested ≤ f.covered) ∨
      ∃ n v, c.phase = .decided key n (.ok v))

theorem mem_rebuilt_settle {c : SyncCall} {key key' : String} {outcome : KeyOutcome}
    {coalesced : Bool} (h : key' ∈ (c.settle key outcome coalesced).report.rebuilt) :
    key' ∈ c.report.rebuilt ∨ key' = key ∧ ∃ v, outcome = .ok v := by
  cases outcome with
  | error f => cases coalesced <;> exact .inl h
  | ok v =>
    have hmem : key' ∈ c.report.rebuilt ++ [key] := by cases coalesced <;> exact h
    rcases List.mem_append.1 hmem with hmem | hmem
    · exact .inl hmem
    · exact .inr ⟨List.mem_singleton.1 hmem, v, rfl⟩

/-- Of the flights a commit changes nothing. -/
theorem flights_commit (w : SyncSite) (key : String) (batch : RollupBatch)
    (globals : Option GlobalSlices) :
    (w.commit key batch globals).2.2.synchronizer.flights = w.synchronizer.flights ∧
      (w.commit key batch globals).2.2.synchronizer.sequences = w.synchronizer.sequences := by
  rw [SyncSite.synchronizer_commit]
  exact ⟨rfl, rfl⟩

theorem withGlobals_ne {key : String} {n : Nat} {batch : RollupBatch} {g : GlobalOutcome}
    {key' : String} {requested : Nat} : ¬(withGlobals key n batch g = .wanting key' requested ∨
      ∃ n', withGlobals key n batch g = .waiting key' requested n') := by
  cases g <;> simp [withGlobals]

theorem stepped_of_step {c : SyncCall} {w : SyncSite} {next : Next} (h : c.step w = some next) :
    Stepped c w next := by
  have hsame (n : Nat) : w.synchronizer.flights[n]? = w.synchronizer.flights[n]? := rfl
  -- Most steps leave flights and numbers alone; the others open, settle or share a flight.
  cases goesOn_of_step h with
  | finish | scanAlone | scan | build | buildFails | needNone | scanAll | failAlone =>
    exact ⟨rfl, fun _ => rfl, .inl hsame, fun key r hr => by simp at hr, fun key hk => .inl hk⟩
  | reuse | gather =>
    exact ⟨rfl, fun _ => rfl, .inl hsame, fun key r hr => absurd hr withGlobals_ne,
      fun key hk => .inl hk⟩
  | choose hphase hkeys =>
    refine ⟨rfl, fun _ => rfl, .inl hsame, fun key r hr => .inl ?_, fun key hk => .inl hk⟩
    simp only [SyncPhase.wanting.injEq, reduceCtorEq, exists_false, or_false] at hr
    rw [← hr.1, ← hr.2]
  | join hphase hflight =>
    refine ⟨rfl, fun _ => rfl, .inl hsame, fun key r hr => ?_, fun key hk => .inl hk⟩
    simp only [reduceCtorEq, SyncPhase.waiting.injEq, false_or] at hr
    obtain ⟨n, rfl, rfl, -⟩ := hr
    exact .inr (.inl hphase)
  | @lead key requested hphase hnone =>
    exact ⟨rfl, fun _ => rfl, .inr (.inl ⟨key, fun _ => rfl⟩), fun key' r hr => by simp at hr,
      fun key' hk => .inl hk⟩
  | @share key requested n f outcome hphase hflight houtcome hcovered =>
    refine ⟨rfl, fun _ => rfl, .inl hsame, fun key' r hr => by simp [settle] at hr,
      fun key' hk => ?_⟩
    rcases mem_rebuilt_settle hk with hk | ⟨rfl, v, rfl⟩
    · exact .inl hk
    · exact .inr ⟨rfl, .inl ⟨requested, n, f, v, hphase, hflight, houtcome, hcovered⟩⟩
  | wantAgain hphase hflight hover hmissed =>
    refine ⟨rfl, fun _ => rfl, .inl hsame, fun key r hr => ?_, fun key hk => .inl hk⟩
    simp only [SyncPhase.wanting.injEq, reduceCtorEq, exists_false, or_false] at hr
    rw [← hr.1, ← hr.2]
    exact .inr (.inr ⟨_, hphase⟩)
  | @commit key n batch globals hphase =>
    obtain ⟨hflights, hseq⟩ := flights_commit w key batch globals
    exact ⟨rfl, fun key' => congrArg (·.getD key' 0) hseq, .inl fun n => congrArg (·[n]?) hflights,
      fun key' r hr => by simp at hr, fun key' hk => .inl hk⟩
  | @close key n outcome hphase =>
    refine ⟨rfl, fun _ => rfl, .inr (.inr ⟨key, n, outcome, hphase, fun _ => rfl⟩),
      fun key' r hr => by simp [settle] at hr, fun key' hk => ?_⟩
    rcases mem_rebuilt_settle hk with hk | ⟨rfl, v, rfl⟩
    · exact .inl hk
    · exact .inr ⟨rfl, .inr ⟨n, v, hphase⟩⟩
  | @commitAlone scan g hphase hscan =>
    obtain ⟨hflights, hseq⟩ := flights_commit w globalScope [] (some g)
    exact ⟨rfl, fun key' => congrArg (·.getD key' 0) hseq, .inl fun n => congrArg (·[n]?) hflights,
      fun key' r hr => by simp at hr, fun key' hk => .inl hk⟩

end SyncCall

/-! ### One outcome for each store -/

/-- The store that a synchronisation is at, given the place that it has reached. -/
def SyncPhase.key? : SyncPhase → Option String
  | .wanting key _ => some key
  | .waiting key _ _ => some key
  | .leading key _ => some key
  | .scanned key _ _ => some key
  | .built key _ _ => some key
  | .scannedAll key _ _ _ => some key
  | .ready key _ _ _ => some key
  | .decided key _ _ => some key
  | .choosing | .scannedAlone _ | .finished => none

/-- The stores that a synchronisation has no outcome for yet. -/
def SyncCall.ahead (c : SyncCall) : List String :=
  c.phase.key?.toList ++ c.keys

theorem SyncCall.key?_withGlobals (key : String) (flight : Nat) (batch : RollupBatch)
    (g : GlobalOutcome) : (withGlobals key flight batch g).key? = some key := by
  cases g <;> rfl

/-- A step has at most one outcome, for the first of the stores that were ahead. -/
theorem SyncCall.ahead_step {c : SyncCall} {w : SyncSite} {next : Next}
    (h : c.step w = some next) :
    c.ahead = (c.phase.settled? next.call.phase).toList.map Prod.fst ++ next.call.ahead := by
  cases goesOn_of_step h with
  | finish hphase hkeys | scanAlone hphase hkeys | choose hphase hkeys =>
    simp [ahead, SyncPhase.key?, SyncPhase.settled?, hphase, hkeys]
  | reuse hphase | gather hphase =>
    simp only [ahead, key?_withGlobals, hphase]
    rfl
  | _ hphase => simp [ahead, SyncPhase.key?, SyncPhase.settled?, settle, *]

namespace SyncWorld

variable {w w' : SyncWorld}

/-- The stores that a synchronisation has an outcome for, in their order. -/
def outcomesOf (w : SyncWorld) (i : Nat) : List String :=
  (w.settled.filter (·.call == i)).map (·.key)

theorem outcomesOf_advance (i j : Nat) (r : Running) (next : SyncCall.Next) :
    (w.advance i r next).outcomesOf j = w.outcomesOf j ++
      if i = j then (r.call.phase.settled? next.call.phase).toList.map Prod.fst else [] := by
  unfold outcomesOf SyncWorld.advance
  rw [List.filter_append, List.map_append]
  split <;> cases r.call.phase.settled? next.call.phase <;> simp [*]

/-- **A synchronisation has one outcome for each store.** -/
structure SettledOnce (w : SyncWorld) : Prop where
  /-- Only synchronisations that have begun have outcomes. -/
  call_lt : ∀ s ∈ w.settled, s.call < w.running.length
  /-- The stores that it has outcomes for, and those ahead, are different. -/
  nodup : ∀ (i : Nat) r, w.running[i]? = some r → (w.outcomesOf i ++ r.call.ahead).Nodup

theorem settledOnce_start (plans : List RebuildPlan) : (SyncWorld.start plans).SettledOnce where
  call_lt := fun s hs => by cases hs
  nodup := fun i r hi => by cases hi

theorem SettledOnce.begin {c : SyncCall} (h : w.SettledOnce) (hphase : c.phase = .choosing)
    (hkeys : c.keys.Nodup) (site : SyncSite) : (w.begin (c, site)).SettledOnce where
  call_lt := fun s hs => by
    rw [SyncWorld.begin, List.length_append]
    exact Nat.lt_add_right _ (h.call_lt s hs)
  nodup := fun i r hi => by
    rcases Nat.lt_trichotomy i w.running.length with hlt | rfl | hlt
    · exact h.nodup i r ((List.getElem?_append_left hlt).symm.trans hi)
    · -- it has no outcome yet
      obtain rfl := Option.some.inj ((List.getElem?_concat_length ..).symm.trans hi)
      have hnone : w.settled.filter (·.call == w.running.length) = [] :=
        List.filter_eq_nil_iff.2 fun s hs => by
          simpa using Nat.ne_of_lt (h.call_lt s hs)
      change ((w.settled.filter (·.call == w.running.length)).map (·.key) ++ c.ahead).Nodup
      rw [hnone, SyncCall.ahead, hphase]
      exact hkeys
    · have hle : (w.begin (c, site)).running.length ≤ i := by
        rw [SyncWorld.begin, List.length_append]
        exact hlt
      rw [List.getElem?_eq_none hle] at hi
      cases hi

theorem SettledOnce.advance {i : Nat} {r : Running} {next : SyncCall.Next} (h : w.SettledOnce)
    (hi : w.running[i]? = some r) (hnext : r.call.step w.site = some next) :
    (w.advance i r next).SettledOnce where
  call_lt := fun s hs => by
    have hlt := (List.getElem?_eq_some_iff.1 hi).1
    rw [SyncWorld.advance, List.length_set]
    rcases List.mem_append.1 hs with hs | hs
    · exact h.call_lt s hs
    · obtain ⟨p, -, rfl⟩ := List.mem_map.1 hs
      exact hlt
  nodup := fun j r' hj => by
    by_cases hij : i = j
    · subst hij
      rw [SyncWorld.advance, List.getElem?_set_self (List.getElem?_eq_some_iff.1 hi).1] at hj
      obtain rfl := Option.some.inj hj
      rw [outcomesOf_advance, if_pos rfl, List.append_assoc, ← SyncCall.ahead_step hnext]
      exact h.nodup i r hi
    · rw [outcomesOf_advance, if_neg hij, List.append_nil]
      exact h.nodup j r' ((List.getElem?_set_ne hij).symm.trans hj)

theorem SettledOnce.step (h : w.SettledOnce) (hstep : w.Step w') : w'.SettledOnce := by
  cases hstep with
  | change | note | setAvailable => exact ⟨h.call_lt, h.nodup⟩
  | begin keys => exact h.begin rfl keys.nodup_members _
  | beginAll hb =>
    obtain ⟨c, rfl, hphase, -, hkeys⟩ := SyncCall.startAll_eq_ok hb
    exact h.begin hphase hkeys _
  | advance hi hnext => exact h.advance hi hnext

/-- So the outcome for a store is from one flight. -/
theorem SettledOnce.unique (h : w.SettledOnce) {i n n' : Nat} {key : String}
    (hs : ⟨i, key, n⟩ ∈ w.settled) (hs' : ⟨i, key, n'⟩ ∈ w.settled) : n' = n := by
  have hlt := h.call_lt _ hs
  have hnodup := (List.nodup_append.1 (h.nodup i _ (List.getElem?_eq_getElem hlt))).1
  have hmem {m : Nat} (hm : ⟨i, key, m⟩ ∈ w.settled) :
      (⟨i, key, m⟩ : Settlement) ∈ w.settled.filter (·.call == i) :=
    List.mem_filter.2 ⟨hm, by simp⟩
  exact congrArg Settlement.flight
    (List.inj_on_of_nodup_map hnodup (hmem hs') (hmem hs) rfl)

end SyncWorld

/-! ### What is known of a caller -/

namespace Caller

/-- Flights that cover the change of a caller have begun with its lines there. -/
structure Noted (w : SyncWorld) (key : String) (version number : Nat) : Prop where
  /-- The number is that of a noted change. -/
  number_le : number ≤ w.site.synchronizer.sequenceOf key
  /-- Whatever covers it began later. -/
  covered : ∀ (n : Nat) f, w.site.synchronizer.flights[n]? = some f → f.key = key →
    number ≤ f.covered → version ≤ (w.departures n).version

/-- The synchronisation of a caller asks for its change, and reports no flight that does not cover
it. -/
structure Syncing (w : SyncWorld) (key : String) (version number i : Nat) (r : Running) :
    Prop where
  /-- It began when the lines were there. -/
  version_le : version ≤ r.began
  /-- It asks for the change. -/
  requested : ∀ requested, (r.call.phase = .wanting key requested ∨
    ∃ n, r.call.phase = .waiting key requested n) → number ≤ requested
  /-- The flight that its report rests on has begun with the lines there. -/
  reported : key ∈ r.call.report.rebuilt → ∃ (n : Nat) (f : Flight) (v : Nat),
    ⟨i, key, n⟩ ∈ w.settled ∧ w.site.synchronizer.flights[n]? = some f ∧ f.key = key ∧
      f.outcome = some (.ok v) ∧ version ≤ (w.departures n).version

/-- **What is known of a caller.** -/
structure Sound (w : SyncWorld) (c : Caller) : Prop where
  /-- Its lines are there. -/
  version_le : c.version ≤ w.site.facts.version
  /-- What is known of its stage. -/
  stage : match c.stage with
    | .appended => True
    | .noted number => Noted w c.key c.version number
    | .syncing number i => Noted w c.key c.version number ∧
        ∃ r, w.running[i]? = some r ∧ Syncing w c.key c.version number i r

variable {plans : List RebuildPlan} {w w' : SyncWorld}

/-- A flight after a step was there before, or has begun since. -/
theorem flight_before (hstep : w.Step w') {n : Nat} {f : Flight}
    (hf : w'.site.synchronizer.flights[n]? = some f) :
    (∃ f', w.site.synchronizer.flights[n]? = some f' ∧ f'.key = f.key ∧ f'.covered = f.covered ∧
      w'.departures n = w.departures n) ∨ w.site.facts.version ≤ (w'.departures n).version := by
  cases hstep with
  | change hc => exact .inl ⟨f, hf, rfl, rfl, rfl⟩
  | note keys => exact .inl ⟨f, hf, rfl, rfl, rfl⟩
  | begin keys => exact .inl ⟨f, hf, rfl, rfl, rfl⟩
  | beginAll hb =>
    obtain ⟨c, rfl, -⟩ := SyncCall.startAll_eq_ok hb
    exact .inl ⟨f, hf, rfl, rfl, rfl⟩
  | setAvailable available => exact .inl ⟨f, hf, rfl, rfl, rfl⟩
  | @advance i r next hi hnext =>
    change next.site.synchronizer.flights[n]? = some f at hf
    have hold (f' : Flight) (hf' : w.site.synchronizer.flights[n]? = some f') :
        (w.advance i r next).departures n = w.departures n :=
      SyncWorld.Sound.departures_advance (List.getElem?_eq_some_iff.1 hf').1
    -- The flight was there before, is just opened, or is just closed.
    rcases (SyncCall.stepped_of_step hnext).flights with he | ⟨key, he⟩ | ⟨key, m, o, -, he⟩
    · rw [he] at hf
      exact .inl ⟨f, hf, rfl, rfl, hold f hf⟩
    · rw [he, Synchronizer.getElem?_openFlight] at hf
      split at hf
      · next hn =>
        subst hn
        exact .inr (Nat.le_of_eq
          (congrArg Departure.version SyncWorld.Sound.departures_advance_self).symm)
      · exact .inl ⟨f, hf, rfl, rfl, hold f hf⟩
    · rw [he, Synchronizer.getElem?_closeFlight] at hf
      obtain ⟨f', hf', rfl⟩ := Option.map_eq_some_iff.1 hf
      refine .inl ⟨f', hf', ?_, ?_, hold f' hf'⟩ <;> split <;> rfl

/-- A successful flight stays one. -/
theorem flight_after (hs : w.Sound plans) (hstep : w.Step w') {n : Nat} {f : Flight} {v : Nat}
    (hf : w.site.synchronizer.flights[n]? = some f) (hv : f.outcome = some (.ok v)) :
    w'.site.synchronizer.flights[n]? = some f ∧ w'.departures n = w.departures n := by
  cases hstep with
  | change hc => exact ⟨hf, rfl⟩
  | note keys => exact ⟨hf, rfl⟩
  | begin keys => exact ⟨hf, rfl⟩
  | beginAll hb =>
    obtain ⟨c, rfl, -⟩ := SyncCall.startAll_eq_ok hb
    exact ⟨hf, rfl⟩
  | setAvailable available => exact ⟨hf, rfl⟩
  | @advance i r next hi hnext =>
    have hlt := (List.getElem?_eq_some_iff.1 hf).1
    refine ⟨?_, SyncWorld.Sound.departures_advance hlt⟩
    change next.site.synchronizer.flights[n]? = some f
    rcases (SyncCall.stepped_of_step hnext).flights with he | ⟨key, he⟩ | ⟨key, m, o, hphase, he⟩
    · rw [he]
      exact hf
    · rw [he, Synchronizer.getElem?_openFlight, if_neg (Nat.ne_of_lt hlt)]
      exact hf
    · rw [he, Synchronizer.getElem?_closeFlight, hf, Option.map_some]
      -- a flight that ends has been under way
      have hne : m ≠ n := by
        rintro rfl
        have hat := (hs.runs i r hi).phase
        rw [hphase] at hat
        obtain ⟨⟨f', hf', -, hnone⟩, -⟩ := hs.inFlight key m hat.1.inFlight
        rw [hf] at hf'
        obtain rfl := Option.some.inj hf'
        rw [hv] at hnone
        cases hnone
      rw [if_neg hne]

/-- Versions do not go back, nor do the numbers of changes. -/
theorem le_step (hstep : w.Step w') (key : String) :
    w.site.facts.version ≤ w'.site.facts.version ∧
      w.site.synchronizer.sequenceOf key ≤ w'.site.synchronizer.sequenceOf key := by
  cases hstep with
  | change hc => exact ⟨hc.version_le, Nat.le_refl _⟩
  | note keys => exact ⟨Nat.le_refl _, Synchronizer.sequenceOf_le_recordMutation ..⟩
  | begin keys => exact ⟨Nat.le_refl _, Nat.le_refl _⟩
  | beginAll hb =>
    obtain ⟨c, rfl, -⟩ := SyncCall.startAll_eq_ok hb
    exact ⟨Nat.le_refl _, Nat.le_refl _⟩
  | setAvailable available => exact ⟨Nat.le_refl _, Nat.le_refl _⟩
  | @advance i r next hi hnext =>
    have hst := SyncCall.stepped_of_step hnext
    refine ⟨?_, (hst.sequences key).symm ▸ Nat.le_refl _⟩
    exact Nat.le_of_eq (congrArg FactStore.version hst.facts).symm

theorem Noted.step {key : String} {version number : Nat} (h : Noted w key version number)
    (hversion : version ≤ w.site.facts.version) (hstep : w.Step w') :
    Noted w' key version number where
  number_le := Nat.le_trans h.number_le (le_step hstep key).2
  covered := fun n f hf hkey hcov => by
    rcases flight_before hstep hf with ⟨f', hf', hk, hc, hdep⟩ | hle
    · rw [hdep]
      exact h.covered n f' hf' (hk.trans hkey) (hc ▸ hcov)
    · exact Nat.le_trans hversion hle

/-- What a report rests on is not forgotten. -/
theorem settled_step (hstep : w.Step w') {s : Settlement} (h : s ∈ w.settled) : s ∈ w'.settled := by
  cases hstep with
  | advance hi hnext => exact List.mem_append_left _ h
  | _ => exact h

theorem Syncing.mono {key : String} {version number i : Nat} {r : Running}
    (hs : w.Sound plans) (h : Syncing w key version number i r) (hstep : w.Step w') :
    Syncing w' key version number i r where
  version_le := h.version_le
  requested := h.requested
  reported := fun hk => by
    obtain ⟨n, f, v, hsettled, hf, hkey, hv, hle⟩ := h.reported hk
    obtain ⟨hf', hdep⟩ := flight_after hs hstep hf hv
    exact ⟨n, f, v, settled_step hstep hsettled, hf', hkey, hv, hdep ▸ hle⟩

/-- The synchronisation of a caller goes one step further. -/
theorem Syncing.advance {key : String} {version number i : Nat} {r : Running}
    {next : SyncCall.Next} (hs : w.Sound plans) (hnoted : Noted w key version number)
    (h : Syncing w key version number i r) (hi : w.running[i]? = some r)
    (hnext : r.call.step w.site = some next) :
    Syncing (w.advance i r next) key version number i { r with call := next.call } := by
  have hst := SyncCall.stepped_of_step hnext
  have hold := h.mono hs (.advance hi hnext)
  refine ⟨h.version_le, fun requested hr => ?_, fun hk => ?_⟩
  · rcases hst.requested key requested hr with rfl | hr
    · exact hnoted.number_le
    · exact h.requested requested hr
  · -- The step settles the store with the flight that it has waited for, or has led.
    have hsettled (n : Nat) (hphase : r.call.phase.settled? next.call.phase = some (key, n)) :
        ⟨i, key, n⟩ ∈ (w.advance i r next).settled := by
      refine List.mem_append_right _ ?_
      rw [hphase]
      exact List.mem_singleton_self _
    rcases hst.reported key hk with hk |
      ⟨hnext', ⟨requested, n, f, v, hphase, hf, hv, hle⟩ | ⟨n, v, hphase⟩⟩
    · exact hold.reported hk
    · -- it has waited for a flight that covers the change
      have hat := (hs.runs i r hi).phase
      rw [hphase] at hat
      obtain ⟨f', hf', hkey⟩ := hat
      rw [hf] at hf'
      obtain rfl := Option.some.inj hf'
      obtain ⟨hf', hdep⟩ := flight_after hs (.advance hi hnext) hf hv
      refine ⟨n, f, v, hsettled n (by rw [hphase, hnext']; rfl), hf', hkey, hv, ?_⟩
      rw [hdep]
      refine hnoted.covered n f hf hkey (Nat.le_trans ?_ hle)
      exact h.requested requested (.inr ⟨n, hphase⟩)
    · -- it has led the flight itself, and so the flight began after it
      have hat := (hs.runs i r hi).phase
      rw [hphase] at hat
      obtain ⟨⟨f, hf, hkey, -⟩, -⟩ := hs.inFlight key n hat.1.inFlight
      have hclose : (w.advance i r next).site.synchronizer.flights[n]? =
          some { f with outcome := some (.ok v) } := by
        unfold SyncCall.step at hnext
        dsimp only at hnext
        simp only [hphase] at hnext
        cases hnext
        refine (w.site.synchronizer.getElem?_closeFlight key n (.ok v) n).trans ?_
        rw [hf, Option.map_some, if_pos rfl]
      refine ⟨n, _, v, hsettled n (by rw [hphase, hnext']; rfl), hclose, hkey, rfl, ?_⟩
      rw [SyncWorld.Sound.departures_advance (hs.inFlight_lt hat.1.inFlight)]
      exact Nat.le_trans h.version_le hat.1.began_le

/-- What is known of a caller stays true, whatever happens. -/
theorem Sound.step {c : Caller} (hs : w.Sound plans) (h : c.Sound w) (hstep : w.Step w') :
    c.Sound w' := by
  refine ⟨Nat.le_trans h.version_le (le_step hstep c.key).1, ?_⟩
  have hstage := h.stage
  cases hc : c.stage with
  | appended => trivial
  | noted number =>
    rw [hc] at hstage
    exact hstage.step h.version_le hstep
  | syncing number i =>
    rw [hc] at hstage
    obtain ⟨hnoted, r, hi, hsync⟩ := hstage
    refine ⟨hnoted.step h.version_le hstep, ?_⟩
    have hmono := hsync.mono hs hstep
    have hlt := (List.getElem?_eq_some_iff.1 hi).1
    cases hstep with
    | change hc => exact ⟨r, hi, hmono⟩
    | note keys => exact ⟨r, hi, hmono⟩
    | setAvailable available => exact ⟨r, hi, hmono⟩
    | begin keys => exact ⟨r, (List.getElem?_append_left hlt).trans hi, hmono⟩
    | beginAll hb => exact ⟨r, (List.getElem?_append_left hlt).trans hi, hmono⟩
    | @advance j r' next hj hnext =>
      by_cases hij : j = i
      · subst hij
        rw [hi] at hj
        obtain rfl := Option.some.inj hj
        exact ⟨_, List.getElem?_set_self hlt, hsync.advance hs hnoted hi hnext⟩
      · exact ⟨r, (List.getElem?_set_ne hij).trans hi, hmono⟩

end Caller

/-! ### What callers can rely on -/

namespace CallerWorld

variable {plans : List RebuildPlan} {w w' : CallerWorld}

/-- **What every step keeps.** -/
structure Sound (plans : List RebuildPlan) (w : CallerWorld) : Prop where
  /-- The synchronisations are in order. -/
  world : w.world.Sound plans
  /-- They have one outcome for each store. -/
  once : w.world.SettledOnce
  /-- So is what is known of the callers. -/
  callers : ∀ c ∈ w.callers, c.Sound w.world

theorem Sound.step (hn : DistinctNames plans) (h : w.Sound plans) (hstep : w.Step w') :
    w'.Sound plans := by
  -- what all other callers know stays true
  have hothers {world : SyncWorld} (hs : w.world.Step world) {early late : List Caller}
      {c c' : Caller} (he : w.callers = early ++ c :: late) (hc' : c'.Sound world) :
      ∀ d ∈ early ++ c' :: late, d.Sound world := by
    intro d hd
    rw [List.mem_append, List.mem_cons] at hd
    rcases hd with hd | rfl | hd
    · exact (h.callers d (he ▸ List.mem_append_left _ hd)).step h.world hs
    · exact hc'
    · exact (h.callers d (he ▸ List.mem_append_right _ (List.mem_cons_of_mem _ hd))).step h.world hs
  cases hstep with
  | @append lines facts keys key happend hkey =>
    have hs : w.world.Step (w.world.change facts) := .change (.append happend)
    refine ⟨h.world.step hn hs, h.once.step hs, fun c hc => ?_⟩
    rcases List.mem_append.1 hc with hc | hc
    · exact (h.callers c hc).step h.world hs
    · rw [List.mem_singleton.1 hc]
      exact ⟨Nat.le_refl _, trivial⟩
  | @note early late key version he =>
    have hs : w.world.Step (w.world.note (KeySet.ofList [key])) := .note _
    have hold := h.callers _ (he ▸ List.mem_append_right _ List.mem_cons_self)
    refine ⟨h.world.step hn hs, h.once.step hs,
      hothers hs he ⟨hold.version_le, Nat.le_refl _, ?_⟩⟩
    -- no flight covers a change before it is noted
    intro n f hf hkey hcov
    change f.key = key at hkey
    have hle : f.covered ≤ w.world.site.synchronizer.sequenceOf key :=
      hkey ▸ h.world.covered_le n f hf
    have hseq : (w.world.note (KeySet.ofList [key])).site.synchronizer.sequenceOf key =
        w.world.site.synchronizer.sequenceOf key + 1 :=
      (Synchronizer.sequenceOf_recordMutation ..).trans (if_pos (by simp))
    change (w.world.note (KeySet.ofList [key])).site.synchronizer.sequenceOf key ≤ f.covered at hcov
    omega
  | @sync early late key version number keys he hkey =>
    have hs : w.world.Step (w.world.begin (SyncCall.start w.world.site keys)) := .begin keys
    have hold := h.callers _ (he ▸ List.mem_append_right _ List.mem_cons_self)
    refine ⟨h.world.step hn hs, h.once.step hs,
      hothers hs he ⟨hold.version_le, hold.stage.step hold.version_le hs,
      ⟨w.world.site.facts.version, (SyncCall.start w.world.site keys).1⟩,
      List.getElem?_concat_length .., hold.version_le, fun requested hr => ?_, fun hk => ?_⟩⟩
    · rcases hr with hr | ⟨n, hr⟩ <;> cases hr
    · cases hk
  | other hs =>
    exact ⟨h.world.step hn hs, h.once.step hs, fun c hc => (h.callers c hc).step h.world hs⟩

theorem Reachable.sound (hn : DistinctNames plans) (h : Reachable plans w) : w.Sound plans := by
  induction h with
  | start =>
    exact ⟨SyncWorld.sound_start plans, SyncWorld.settledOnce_start plans, fun c hc => by cases hc⟩
  | step _ hstep ih => exact ih.step hn hstep

/-- **The slices that a caller can rely on.** When its synchronisation reports its store, the slices
of the store come from lines with those of the caller.  The report rests on one flight of the store,
which has begun with the caller's lines there.  The slices from all lines come from lines with those of the
caller, too, unless another synchronisation has led that flight, and had scanned all lines before they
were there. -/
theorem covered_of_rebuilt (hn : DistinctNames plans) (h : Reachable plans w) {c : Caller}
    (hc : c ∈ w.callers) {number i : Nat} (hstage : c.stage = .syncing number i) {r : Running}
    (hr : w.world.running[i]? = some r) (hk : c.key ∈ r.call.report.rebuilt) :
    (∃ F ∈ w.world.past, c.version ≤ F.version ∧ ∀ p ∈ plans, p.isStoreScoped = true →
      w.world.site.rollups.Holds p c.key (F.linesOf c.key)) ∧
    ∃ (n : Nat) (f : Flight) (v : Nat), (∀ n', ⟨i, c.key, n'⟩ ∈ w.world.settled ↔ n' = n) ∧
      w.world.site.synchronizer.flights[n]? = some f ∧ f.key = c.key ∧ f.outcome = some (.ok v) ∧
      c.version ≤ (w.world.departures n).version ∧
      ∃ leader, w.world.running[(w.world.departures n).leader]? = some leader ∧
        ∃ F ∈ w.world.past, (∀ p ∈ plans, p.isStoreScoped = false →
            w.world.site.rollups.Holds p globalScope F.lines) ∧
          (c.version ≤ F.version ∨ (w.world.departures n).leader ≠ i ∧
            ∃ g, leader.call.globals = some (.ok g) ∧ g.version < c.version) := by
  obtain ⟨hw, honce, hcallers⟩ := h.sound hn
  have hcs := (hcallers c hc).stage
  rw [hstage] at hcs
  obtain ⟨-, r', hr', hsync⟩ := hcs
  rw [hr] at hr'
  obtain rfl := Option.some.inj hr'
  obtain ⟨n, f, v, hsettled, hf, hkey, hv, hle⟩ := hsync.reported hk
  obtain ⟨⟨F, hF, hFle, hp⟩, leader, hleader, -, hup⟩ := hw.landed n f v hf hv
  rw [hkey] at hp
  refine ⟨⟨F, hF, Nat.le_trans hle hFle, fun p hp' hscope =>
    hp p (Rebuild.mem_storePlans.2 ⟨hp', hscope⟩)⟩,
    n, f, v, fun n' => ⟨honce.unique hsettled, fun hn' => hn' ▸ hsettled⟩, hf, hkey, hv, hle,
    leader, hleader, ?_⟩
  by_cases hnone : Rebuild.globalPlans plans = []
  · refine ⟨F, hF, fun p hp' hscope => ?_, .inl (Nat.le_trans hle hFle)⟩
    have hmem := Rebuild.mem_globalPlans.2 ⟨hp', hscope⟩
    rw [hnone] at hmem
    cases hmem
  · obtain ⟨g, hg, u, hu, hgu⟩ := hup hnone
    obtain ⟨G, hG, rfl, hq⟩ := hw.globals u hu
    refine ⟨G, hG, fun p hp' hscope => hq p (Rebuild.mem_globalPlans.2 ⟨hp', hscope⟩), ?_⟩
    by_cases hcg : c.version ≤ g.version
    · exact .inl (Nat.le_trans hcg hgu)
    · refine .inr ⟨fun hij => ?_, g, hg, Nat.lt_of_not_le hcg⟩
      -- the caller's own scan of all lines is younger than its lines
      rw [hij, hr] at hleader
      obtain rfl := Option.some.inj hleader
      obtain ⟨G', -, hbegan, hsnap⟩ := (hw.runs i r hr).known g hg
      rw [hsnap.version] at hcg
      exact hcg (Nat.le_trans hsync.version_le hbegan)

/-! ### A run -/

/-- Goes some steps further in a synchronisation, as far as it can. -/
def go (w : CallerWorld) (i : Nat) : (steps : Nat) → CallerWorld
  | 0 => w
  | steps + 1 =>
    let w := w.go i steps
    match w.world.running[i]? with
    | none => w
    | some r =>
      match r.call.step w.world.site with
      | none => w
      | some next => ⟨w.world.advance i r next, w.callers⟩

/-- Somebody begins to synchronise some stores. -/
def begin (w : CallerWorld) (keys : KeySet String) : CallerWorld :=
  ⟨w.world.begin (SyncCall.start w.world.site keys), w.callers⟩

/-- A new caller appends a line and notes the change. -/
def appendAndNote (w : CallerWorld) (key recordId : String) :
    Except FactStoreError CallerWorld := do
  let (facts, _) ← w.world.site.facts.append [sampleLine key recordId]
  let world := (w.world.change facts).note (KeySet.ofList [key])
  return ⟨world, w.callers ++
    [⟨key, facts.version, .noted (world.site.synchronizer.sequenceOf key)⟩]⟩

/-- A caller begins to synchronise its store. -/
def sync (w : CallerWorld) (j : Nat) : CallerWorld :=
  match w.callers[j]? with
  | some ⟨key, version, .noted number⟩ =>
    ⟨w.world.begin (SyncCall.start w.world.site (KeySet.ofList [key])),
      w.callers.take j ++ ⟨key, version, .syncing number w.world.running.length⟩ ::
        w.callers.drop (j + 1)⟩
  | _ => w

theorem Reachable.go (h : Reachable plans w) (i steps : Nat) : Reachable plans (w.go i steps) := by
  induction steps with
  | zero => exact h
  | succ steps ih =>
    unfold CallerWorld.go
    dsimp only
    split
    · exact ih
    · next r hr =>
      split
      · exact ih
      · next next hnext => exact .step ih (.other (.advance hr hnext))

theorem Reachable.appendAndNote {key recordId : String} (h : Reachable plans w)
    (ha : w.appendAndNote key recordId = .ok w') : Reachable plans w' := by
  obtain ⟨⟨facts, keys⟩, hf, ha⟩ := Except.bind_eq_ok.1 ha
  cases ha
  have hkey : key ∈ keys.members := by
    obtain ⟨-, b, -, rfl, -⟩ := FactStore.append_eq_ok hf
    simp [sampleLine]
  exact .step (.step h (.append hf hkey)) (.note rfl)

theorem Reachable.sync (h : Reachable plans w) (j : Nat) : Reachable plans (w.sync j) := by
  unfold CallerWorld.sync
  split
  · next key version number hj =>
    obtain ⟨hlt, he⟩ := List.getElem?_eq_some_iff.1 hj
    refine .step h (.sync ?_ (by simp))
    rw [← he, List.getElem_cons_drop, List.take_append_drop]
  · exact h

/-- The run in which the line of a caller is missed: `A` and `K` are synchronised, and a caller
changes `K` between the scan of all lines and the flight of `K`, which it then waits for. -/
def missedRun : Except FactStoreError CallerWorld := do
  let w₀ : CallerWorld := ⟨SyncWorld.start [lineCount "daily" [.storeId, .date],
    lineCount "by_channel" [.channel]], []⟩
  let w₁ ← w₀.appendAndNote "A" "r1"
  let w₂ ← ((w₁.begin (KeySet.ofList ["A", "K"])).go 0 6).appendAndNote "K" "r2"
  return ((((w₂.go 0 4).sync 1).go 1 2).go 0 5).go 1 1

theorem reachable_missedRun (h : missedRun = .ok w) :
    Reachable [lineCount "daily" [.storeId, .date], lineCount "by_channel" [.channel]] w := by
  unfold missedRun at h
  obtain ⟨w₁, h₁, h⟩ := Except.bind_eq_ok.1 h
  obtain ⟨w₂, h₂, h⟩ := Except.bind_eq_ok.1 h
  rw [← Except.ok.inj h]
  have r₁ := Reachable.start.appendAndNote h₁
  have r₂ := ((r₁.step (.other (.begin (KeySet.ofList ["A", "K"])))).go 0 6).appendAndNote h₂
  exact ((((r₂.go 0 4).sync 1).go 1 2).go 0 5).go 1 1

/-- The second synchronisation is that of a caller, who is told that its store is rebuilt; no slice
of `by_channel` has its line. -/
def MissesLine (w : CallerWorld) : Prop :=
  ∃ c ∈ w.callers, c.key = "K" ∧ c.stage = .syncing 1 1 ∧
    (∃ r ∈ w.world.running[1]?, c.key ∈ r.call.report.rebuilt) ∧
    ¬∃ F ∈ w.world.past, c.version ≤ F.version ∧
      w.world.site.rollups.Holds (lineCount "by_channel" [.channel]) globalScope F.lines

instance : DecidablePred MissesLine := fun w =>
  inferInstanceAs (Decidable (∃ c ∈ w.callers, c.key = "K" ∧ c.stage = .syncing 1 1 ∧
    (∃ r ∈ w.world.running[1]?, c.key ∈ r.call.report.rebuilt) ∧
    ¬∃ F ∈ w.world.past, c.version ≤ F.version ∧
      w.world.site.rollups.Holds (lineCount "by_channel" [.channel]) globalScope F.lines))

theorem missedRun_ends : ∃ w, missedRun = .ok w ∧ MissesLine w :=
  Except.exists_ok (by decide +kernel)

/-- After that run the slices of the caller's store come from its line, and the other
synchronisation has scanned all lines too early. -/
theorem covered_in_missedRun :
    DistinctNames [lineCount "daily" [.storeId, .date], lineCount "by_channel" [.channel]] ∧
    ∃ w, missedRun = .ok w ∧
      ∃ c ∈ w.callers, ∃ number i r, c.stage = .syncing number i ∧ w.world.running[i]? = some r ∧
        c.key ∈ r.call.report.rebuilt ∧ ∃ F ∈ w.world.past, c.version ≤ F.version ∧
          w.world.site.rollups.Holds (lineCount "daily" [.storeId, .date]) "K" (F.linesOf "K") := by
  have hn : DistinctNames [lineCount "daily" [.storeId, .date],
      lineCount "by_channel" [.channel]] := by decide
  obtain ⟨w, hw, c, hc, hkey, hstage, ⟨r, hr, hk⟩, -⟩ := missedRun_ends
  obtain ⟨⟨F, hF, hle, hp⟩, -⟩ := covered_of_rebuilt hn (reachable_missedRun hw) hc hstage hr hk
  exact ⟨hn, w, hw, c, hc, 1, 1, r, hstage, hr, hk, F, hF, hle, hkey ▸ hp _ List.mem_cons_self rfl⟩

/-- **A caller can miss its line**: it is told that its store is rebuilt, and the slices from all
lines come from no state of the fact store that has its line. -/
theorem not_covered_after_joined_flight :
    ∃ w, Reachable [lineCount "daily" [.storeId, .date], lineCount "by_channel" [.channel]] w ∧
      ∃ c ∈ w.callers, ∃ number i r, c.stage = .syncing number i ∧ w.world.running[i]? = some r ∧
        c.key ∈ r.call.report.rebuilt ∧
        ¬∃ F ∈ w.world.past, c.version ≤ F.version ∧
          w.world.site.rollups.Holds (lineCount "by_channel" [.channel]) globalScope F.lines := by
  obtain ⟨w, hw, c, hc, -, hstage, ⟨r, hr, hk⟩, hnot⟩ := missedRun_ends
  exact ⟨w, reachable_missedRun hw, c, hc, 1, 1, r, hstage, hr, hk, hnot⟩

end CallerWorld

end RetailReport
