import Mathlib.Logic.Relation
import RetailReport.Proofs.Sync.Overlap

/-!
# Slices never go back in time

While synchronisations run side by side, two things keep slices from being replaced by older ones.
The slices from all lines are carried along by the rebuilds of any store and may be committed in any
order, so they carry the version of the fact store that they come from, and earlier ones are refused.
The slices of a store carry nothing: they are committed in the order of their scans because a store
has one flight at a time, and each flight scans the store anew.

A chronicle notes the scans of stores and the commits of their slices in the order in which they
happen, the latest first.

## Main definitions

* `SyncPhase.flight?`: the flight that a synchronisation leads.
* `Chronicle`, `Chronicle.Step`, `Chronicle.Reachable`: the scans and the commits of a run.
* `Chronicle.Sound`: the invariant.

## Main results

* `SyncWorld.lines_eq_of_version_eq`: a version stands for the same lines at all times.
* `SyncWorld.Sound.leads_alone`: a store has one rebuild at a time.
* `Chronicle.Reachable.of_world`: every run has a chronicle.
* `Chronicle.never_back`: **slices never go back in time**.
-/

namespace RetailReport

/-! ### Versions stand for lines -/

namespace FactStore

variable {s s' : FactStore} {keys : KeySet String}

theorem purge_eq_of_version_eq (hs : s.Consistent) {id : String}
    (hversion : (s.purge id).1.version = s.version) : (s.purge id).1.lines = s.lines := by
  have hnone : s.byStore.get? id = none := by
    unfold purge at hversion
    dsimp only at hversion
    cases hget : s.byStore.get? id with
    | none => rfl
    | some fs =>
      have hne := (hs.own id fs hget).1
      rw [SortedMap.getD, hget, Option.getD_some, if_neg (by simpa using hne)] at hversion
      omega
  change (s.byStore.erase id).values.flatten = _
  rw [SortedMap.erase_of_get?_eq_none hnone]
  rfl

theorem purgePartition_eq_of_version_eq (hs : s.Consistent) {id : String} {date : Date}
    (hversion : (s.purgePartition id date).1.version = s.version) :
    (s.purgePartition id date).1.lines = s.lines := by
  unfold purgePartition at hversion ⊢
  cases hget : s.byStore.get? id with
  | none => rfl
  | some fs =>
    rw [hget] at hversion
    dsimp only at hversion ⊢
    have hremoved : fs.filter (fun f => decide (f.date = date)) = [] := by
      split at hversion
      · next hempty => exact List.isEmpty_iff.1 hempty
      · omega
    have hkept : fs.filter (fun f => decide (f.date ≠ date)) = fs := by
      rw [List.filter_eq_nil_iff] at hremoved
      rw [List.filter_eq_self]
      intro f hf
      have hother := hremoved f hf
      simpa using hother
    have hne : ¬ fs.isEmpty = true := by simpa using (hs.own id fs hget).1
    unfold lines
    dsimp only
    rw [hkept, if_neg hne, SortedMap.insert_of_get?_eq_some hget]

/-- **A change that keeps the version keeps the lines.** -/
theorem Change.lines_eq_of_version_eq (h : Change s keys s') (hs : s.Reachable)
    (hversion : s'.version = s.version) : s'.lines = s.lines := by
  induction h with
  | append h =>
    obtain ⟨-, b, -, -, rfl⟩ := append_eq_ok h
    exact absurd hversion (Nat.succ_ne_self _)
  | purge s id => exact purge_eq_of_version_eq hs.consistent hversion
  | purgePartition s id date => exact purgePartition_eq_of_version_eq hs.consistent hversion
  | trans h h' ih ih' =>
    have hle := h.version_le
    have hle' := h'.version_le
    exact (ih' (h.reachable hs) (by omega)).trans (ih hs (by omega))

end FactStore

/-! ### What a step brings -/

namespace SyncCall

/-- **What a step does to the slices.** -/
inductive Brings (c : SyncCall) (w : SyncSite) (next : Next) : Prop where
  /-- Nothing. -/
  | nothing (hready : ∀ key n batch globals, c.phase ≠ .ready key n batch globals)
      (hfacts : next.site.facts = w.facts) (hrollups : next.site.rollups = w.rollups)
      (hversion : next.site.synchronizer.globalVersion = w.synchronizer.globalVersion)
  /-- It commits the slices of a store. -/
  | commit (key : String) (n : Nat) (batch : RollupBatch) (globals : Option GlobalSlices)
      (hphase : c.phase = .ready key n batch globals)
      (hsite : next.site = (w.commit key batch globals).2.2)
  /-- It commits only the slices from all lines. -/
  | commitAlone (scan : Except FactStoreError FactSnapshot) (g : GlobalSlices)
      (hphase : c.phase = .scannedAlone scan)
      (hscan : Rebuild.ofScan w.synchronizer.plans scan = .ok g)
      (hsite : next.site = (w.commit globalScope [] (some g)).2.2)

theorem brings_of_step {c : SyncCall} {w : SyncSite} {next : Next} (h : c.step w = some next) :
    Brings c w next := by
  cases goesOn_of_step h with
  | @commit key n batch globals hphase => exact .commit key n batch globals hphase rfl
  | @commitAlone scan g hphase hscan => exact .commitAlone scan g hphase hscan rfl
  | finish hphase | scanAlone hphase | choose hphase | join hphase | lead hphase | share hphase
  | wantAgain hphase | scan hphase | build hphase | buildFails hphase | needNone hphase
  | reuse hphase | scanAll hphase | gather hphase | close hphase | failAlone hphase =>
    exact .nothing (by simp [hphase]) rfl rfl rfl

theorem facts_of_step {c : SyncCall} {w : SyncSite} {next : Next} (h : c.step w = some next) :
    next.site.facts = w.facts := by
  cases brings_of_step h with
  | nothing _ hfacts _ _ => exact hfacts
  | commit key n batch globals _ hsite => rw [hsite]; rfl
  | commitAlone scan g _ _ hsite => rw [hsite]; rfl

end SyncCall

namespace SyncWorld

variable {plans : List RebuildPlan} {w w' : SyncWorld}

/-- The lines that were at some time, with their version. -/
structure Dated (w : SyncWorld) : Prop where
  /-- The fact store came about by changes. -/
  facts : w.site.facts.Reachable
  /-- It is one of those that were. -/
  present : w.site.facts ∈ w.past
  /-- Versions never go back. -/
  past_le : ∀ F ∈ w.past, F.version ≤ w.site.facts.version
  /-- A version stands for the same lines at all times. -/
  lines : ∀ F ∈ w.past, ∀ F' ∈ w.past, F.version = F'.version → F.lines = F'.lines

theorem Dated.change (h : w.Dated) {facts : FactStore} (hreachable : facts.Reachable)
    (hle : w.site.facts.version ≤ facts.version)
    (hlines : facts.version = w.site.facts.version → facts.lines = w.site.facts.lines) :
    (w.change facts).Dated where
  facts := hreachable
  present := List.mem_append_right _ (List.mem_singleton_self _)
  past_le := by
    intro F hF
    rcases List.mem_append.1 hF with hF | hF
    · exact Nat.le_trans (h.past_le F hF) hle
    · rw [List.mem_singleton.1 hF]
      exact Nat.le_refl _
  lines := by
    -- A fact store of the same version was there before the change, or is the present one.
    have hsame (F : FactStore) (hF : F ∈ w.past) (hversion : F.version = facts.version) :
        F.lines = facts.lines := by
      have hF_le := h.past_le F hF
      have hnow : facts.version = w.site.facts.version := by omega
      rw [hlines hnow]
      exact h.lines F hF _ h.present (hversion.trans hnow)
    intro F hF F' hF' hversion
    rcases List.mem_append.1 hF with hF | hF
    · rcases List.mem_append.1 hF' with hF' | hF'
      · exact h.lines F hF F' hF' hversion
      · rw [List.mem_singleton.1 hF'] at hversion ⊢
        exact hsame F hF hversion
    · rw [List.mem_singleton.1 hF] at hversion ⊢
      rcases List.mem_append.1 hF' with hF' | hF'
      · exact (hsame F' hF' hversion.symm).symm
      · rw [List.mem_singleton.1 hF']

theorem Dated.step (h : w.Dated) (hstep : w.Step w') : w'.Dated := by
  have hkeep {w' : SyncWorld} (hfacts : w'.site.facts = w.site.facts) (hpast : w'.past = w.past) :
      w'.Dated := by
    refine ⟨hfacts ▸ h.facts, ?_, ?_, ?_⟩
    · rw [hfacts, hpast]
      exact h.present
    · rw [hfacts, hpast]
      exact h.past_le
    · rw [hpast]
      exact h.lines
  cases hstep with
  | change hc => exact h.change (hc.reachable h.facts) hc.version_le (hc.lines_eq_of_version_eq h.facts)
  | note keys => exact hkeep rfl rfl
  | begin keys => exact hkeep rfl rfl
  | beginAll hb =>
    obtain ⟨c, rfl, -⟩ := SyncCall.startAll_eq_ok hb
    exact hkeep rfl rfl
  | advance hi hs => exact hkeep (SyncCall.facts_of_step hs) rfl
  | setAvailable available => exact h.change (h.facts.setAvailable available) (Nat.le_refl _) fun _ => rfl

theorem Reachable.dated (h : Reachable plans w) : w.Dated := by
  induction h with
  | start =>
    refine ⟨.empty, List.mem_singleton_self _, fun F hF => ?_, fun F hF F' hF' _ => ?_⟩
    · rw [List.mem_singleton.1 hF]
      exact Nat.le_refl _
    · rw [List.mem_singleton.1 hF, List.mem_singleton.1 hF']
  | step _ hstep ih => exact ih.step hstep

/-! ### One rebuild at a time -/

/-- The slices from all lines do not go back in one step. -/
theorem globalVersion_le_step (hstep : w.Step w') {u : Nat}
    (hu : u ∈ w.site.synchronizer.globalVersion) :
    ∃ u' ∈ w'.site.synchronizer.globalVersion, u ≤ u' := by
  cases hstep with
  | change hc => exact ⟨u, hu, Nat.le_refl u⟩
  | note keys => exact ⟨u, hu, Nat.le_refl u⟩
  | begin keys => exact ⟨u, hu, Nat.le_refl u⟩
  | beginAll hb =>
    obtain ⟨c, rfl, -⟩ := SyncCall.startAll_eq_ok hb
    exact ⟨u, hu, Nat.le_refl u⟩
  | setAvailable available => exact ⟨u, hu, Nat.le_refl u⟩
  | @advance i r next hi hs =>
    change ∃ u' ∈ next.site.synchronizer.globalVersion, u ≤ u'
    cases SyncCall.brings_of_step hs with
    | nothing _ _ _ hversion =>
      rw [hversion]
      exact ⟨u, hu, Nat.le_refl u⟩
    | commit key n batch globals _ hsite =>
      rw [hsite, SyncSite.synchronizer_commit]
      exact SyncSite.le_newVersion hu globals
    | commitAlone scan g _ _ hsite =>
      rw [hsite, SyncSite.synchronizer_commit]
      exact SyncSite.le_newVersion hu (some g)

/-- **Nor do they in any number of steps.** -/
theorem globalVersion_le (h : Relation.ReflTransGen Step w w') {u : Nat}
    (hu : u ∈ w.site.synchronizer.globalVersion) :
    ∃ u' ∈ w'.site.synchronizer.globalVersion, u ≤ u' := by
  induction h with
  | refl => exact ⟨u, hu, Nat.le_refl u⟩
  | tail _ hstep ih =>
    obtain ⟨u₁, hu₁, hle₁⟩ := ih
    obtain ⟨u₂, hu₂, hle₂⟩ := globalVersion_le_step hstep hu₁
    exact ⟨u₂, hu₂, Nat.le_trans hle₁ hle₂⟩

end SyncWorld

/-- The flight that a synchronisation leads, between its opening and its closing. -/
def SyncPhase.flight? : SyncPhase → Option (String × Nat)
  | .leading key n | .scanned key n _ | .built key n _ | .scannedAll key n _ _ | .ready key n _ _
  | .decided key n _ => some (key, n)
  | .choosing | .wanting _ _ | .waiting _ _ _ | .scannedAlone _ | .finished => none

namespace SyncWorld

variable {plans : List RebuildPlan} {w w' : SyncWorld}

theorem AtPhase.leads {i began : Nat} {known : Option GlobalOutcome} {phase : SyncPhase}
    (h : w.AtPhase plans i began known phase) {key : String} {n : Nat}
    (hflight : phase.flight? = some (key, n)) : w.Leads i began key n := by
  cases phase with
  | leading key' n' => cases hflight; exact h
  | scanned key' n' scan => cases hflight; exact h.1
  | built key' n' batch => cases hflight; exact h.1
  | scannedAll key' n' batch scan => cases hflight; exact h.1
  | ready key' n' batch globals => cases hflight; exact h.1
  | decided key' n' outcome => cases hflight; exact h.1
  | choosing => cases hflight
  | wanting key' requested => cases hflight
  | waiting key' requested n' => cases hflight
  | scannedAlone scan => cases hflight
  | finished => cases hflight

/-- **A store has one rebuild at a time**: no two synchronisations lead flights of it. -/
theorem Sound.leads_alone (h : w.Sound plans) {i j n m : Nat} {r r' : Running} {key : String}
    (hi : w.running[i]? = some r) (hj : w.running[j]? = some r')
    (hflight : r.call.phase.flight? = some (key, n))
    (hflight' : r'.call.phase.flight? = some (key, m)) : i = j := by
  have hl := (h.runs i r hi).phase.leads hflight
  have hl' := (h.runs j r' hj).phase.leads hflight'
  have hsame : n = m := by
    have hin := hl.inFlight
    rw [hl'.inFlight] at hin
    exact (Option.some.inj hin).symm
  rw [← hl.leader, ← hl'.leader, hsame]

end SyncWorld

/-! ### Chronicles -/

/-- What is noted of a store. -/
inductive ChronicleEntry where
  /-- Its lines have been scanned for a flight, in this fact store. -/
  | scanned (key : String) (flight : Nat) (facts : FactStore)
  /-- The slices that a flight has computed have been committed. -/
  | committed (key : String) (flight : Nat) (batch : RollupBatch)

namespace ChronicleEntry

/-- The store. -/
def key : ChronicleEntry → String
  | .scanned key _ _ => key
  | .committed key _ _ => key

/-- Whether slices of a store were committed. -/
def commits (key : String) : ChronicleEntry → Bool
  | .scanned _ _ _ => false
  | .committed other _ _ => other == key

/-- The latest entry of a store. -/
def latest? (key : String) (entries : List ChronicleEntry) : Option ChronicleEntry :=
  entries.find? fun e => e.key == key

theorem latest?_cons_self (e : ChronicleEntry) (entries : List ChronicleEntry) :
    latest? e.key (e :: entries) = some e :=
  List.find?_cons_of_pos (beq_self_eq_true _)

theorem latest?_cons_of_ne {e : ChronicleEntry} {key : String} (h : e.key ≠ key)
    (entries : List ChronicleEntry) : latest? key (e :: entries) = latest? key entries :=
  List.find?_cons_of_neg fun heq => h (eq_of_beq heq)

/-- What a synchronisation adds with its next step. -/
def ofStep (facts : FactStore) : SyncPhase → Option ChronicleEntry
  | .leading key n => some (.scanned key n facts)
  | .ready key n batch _ => some (.committed key n batch)
  | _ => none

end ChronicleEntry

open ChronicleEntry

/-- A run, and what was noted of it. -/
structure Chronicle where
  /-- The stores and the synchronisations. -/
  world : SyncWorld
  /-- What was noted, the latest first. -/
  entries : List ChronicleEntry := []

namespace SyncWorld

/-- What happens beside the synchronisations that have begun. -/
inductive Beside (w : SyncWorld) : SyncWorld → Prop where
  /-- Lines of some stores change. -/
  | change {facts : FactStore} {keys : KeySet String} :
      w.site.facts.Change keys facts → Beside w (w.change facts)
  /-- A change of some stores is noted. -/
  | note (keys : KeySet String) : Beside w (w.note keys)
  /-- Somebody begins to synchronise some stores. -/
  | begin (keys : KeySet String) : Beside w (w.begin (SyncCall.start w.site keys))
  /-- Somebody begins to synchronise all stores. -/
  | beginAll {begun : SyncCall × SyncSite} :
      SyncCall.startAll w.site = .ok begun → Beside w (w.begin begun)
  /-- The fact store becomes available or unavailable. -/
  | setAvailable (available : Bool) : Beside w (w.change (w.site.facts.setAvailable available))

variable {plans : List RebuildPlan} {w w' : SyncWorld}

theorem Beside.step (h : w.Beside w') : w.Step w' := by
  cases h with
  | change hc => exact .change hc
  | note keys => exact .note keys
  | begin keys => exact .begin keys
  | beginAll hb => exact .beginAll hb
  | setAvailable available => exact .setAvailable available

/-- What happens beside them changes no slices, and what has begun stays where it is. -/
structure Calm (w w' : SyncWorld) : Prop where
  /-- The slices are the same. -/
  rollups : w'.site.rollups = w.site.rollups
  /-- The slices from all lines have the same version. -/
  globalVersion : w'.site.synchronizer.globalVersion = w.site.synchronizer.globalVersion
  /-- Only what begins is new. -/
  running : ∀ (i : Nat) (r : Running), w'.running[i]? = some r → w.running[i]? = some r ∨ r.call.phase = .choosing

theorem calm_begin (w : SyncWorld) {c : SyncCall} (hc : c.phase = .choosing) :
    w.Calm (w.begin (c, { w.site with synchronizer := w.site.synchronizer.begin })) where
  rollups := rfl
  globalVersion := rfl
  running := by
    intro i r hr
    change (w.running ++ [_])[i]? = some r at hr
    by_cases hlt : i < w.running.length
    · rw [List.getElem?_append_left hlt] at hr
      exact .inl hr
    · rw [List.getElem?_append_right (by omega)] at hr
      rw [List.mem_singleton.1 (List.mem_of_getElem? hr)]
      exact .inr hc

theorem Beside.calm (h : w.Beside w') : w.Calm w' := by
  cases h with
  | change hc => exact ⟨rfl, rfl, fun _ _ hr => .inl hr⟩
  | note keys => exact ⟨rfl, rfl, fun _ _ hr => .inl hr⟩
  | begin keys => exact w.calm_begin rfl
  | beginAll hb =>
    obtain ⟨c, rfl, hphase, -⟩ := SyncCall.startAll_eq_ok hb
    exact w.calm_begin hphase
  | setAvailable available => exact ⟨rfl, rfl, fun _ _ hr => .inl hr⟩

end SyncWorld

namespace Chronicle

variable {plans : List RebuildPlan} {c c' : Chronicle}

/-- **One step of a run**, and what is noted of it. -/
inductive Step (c : Chronicle) : Chronicle → Prop where
  /-- A synchronisation goes one step further. -/
  | advance {i : Nat} {r : Running} {next : SyncCall.Next} :
      c.world.running[i]? = some r → r.call.step c.world.site = some next →
      Step c ⟨c.world.advance i r next,
        (ofStep c.world.site.facts r.call.phase).toList ++ c.entries⟩
  /-- Something happens beside the synchronisations. -/
  | beside {world : SyncWorld} : c.world.Beside world → Step c ⟨world, c.entries⟩

/-- The runs from the beginning. -/
inductive Reachable (plans : List RebuildPlan) : Chronicle → Prop where
  | start : Reachable plans ⟨SyncWorld.start plans, []⟩
  | step {c c' : Chronicle} : Reachable plans c → Step c c' → Reachable plans c'

theorem Step.world (h : Step c c') : c.world.Step c'.world := by
  cases h with
  | advance hi hs => exact .advance hi hs
  | beside hb => exact hb.step

theorem Reachable.world (h : Reachable plans c) : SyncWorld.Reachable plans c.world := by
  induction h with
  | start => exact .start
  | step _ hstep ih => exact .step ih hstep.world

/-- **Every run has a chronicle.** -/
theorem Reachable.of_world {w : SyncWorld} (h : SyncWorld.Reachable plans w) :
    ∃ entries, Reachable plans ⟨w, entries⟩ := by
  induction h with
  | start => exact ⟨[], .start⟩
  | step _ hstep ih =>
    obtain ⟨entries, h⟩ := ih
    cases hstep with
    | change hc => exact ⟨_, .step h (.beside (.change hc))⟩
    | note keys => exact ⟨_, .step h (.beside (.note keys))⟩
    | begin keys => exact ⟨_, .step h (.beside (.begin keys))⟩
    | beginAll hb => exact ⟨_, .step h (.beside (.beginAll hb))⟩
    | advance hi hs => exact ⟨_, .step h (.advance hi hs)⟩
    | setAvailable available => exact ⟨_, .step h (.beside (.setAvailable available))⟩

/-! ### Commits follow their scans -/

/-- What a synchronisation has in hand comes from the latest scan of its store. -/
def Backed (plans : List RebuildPlan) (entries : List ChronicleEntry) : SyncPhase → Prop
  | .scanned key n scan => ∃ F, latest? key entries = some (.scanned key n F) ∧
      scan = F.scanKeys (KeySet.ofList [key])
  | .built key n batch | .scannedAll key n batch _ | .ready key n batch _ =>
    ∃ F, latest? key entries = some (.scanned key n F) ∧
      Rebuild.OfStore plans key (F.linesOf key) batch
  | _ => True

/-- **What every step keeps.** -/
structure Sound (plans : List RebuildPlan) (c : Chronicle) : Prop where
  /-- Synchronisations have the latest scans in hand. -/
  backed : ∀ (i : Nat) (r : Running), c.world.running[i]? = some r → Backed plans c.entries r.call.phase
  /-- Committed slices come from the scan before, and those of the last commit are there. -/
  committed : ∀ since key n batch before, c.entries = since ++ .committed key n batch :: before →
    ∃ F, latest? key before = some (.scanned key n F) ∧
      Rebuild.OfStore plans key (F.linesOf key) batch ∧
      ((∀ e ∈ since, e.commits key = false) → ∀ p ∈ Rebuild.storePlans plans,
        c.world.site.rollups.Holds p key (F.linesOf key))
  /-- Slices from all lines are there only once they have a version. -/
  bare : c.world.site.synchronizer.globalVersion = none → ∀ q ∈ Rebuild.globalPlans plans,
    c.world.site.rollups.get? ⟨q.name, globalScope⟩ = none

theorem sound_start (plans : List RebuildPlan) : Sound plans ⟨SyncWorld.start plans, []⟩ where
  backed := fun i r hr => by cases hr
  committed := fun since key n batch before h => by
    have := congrArg List.length h
    simp at this
  bare := fun _ q _ => rfl

theorem Sound.beside (h : Sound plans c) {world : SyncWorld} (hb : c.world.Beside world) :
    Sound plans ⟨world, c.entries⟩ := by
  have hcalm := hb.calm
  refine ⟨fun i r hr => ?_, fun since key n batch before hentries => ?_, fun hnone q hq => ?_⟩
  · rcases hcalm.running i r hr with hr | hchoosing
    · exact h.backed i r hr
    · rw [hchoosing]
      trivial
  · obtain ⟨F, hscan, hof, hheld⟩ := h.committed since key n batch before hentries
    refine ⟨F, hscan, hof, fun hsince p hp => ?_⟩
    change world.site.rollups.Holds p key (F.linesOf key)
    rw [hcalm.rollups]
    exact hheld hsince p hp
  · change world.site.rollups.get? _ = none
    rw [hcalm.rollups]
    exact h.bare (hcalm.globalVersion ▸ hnone) q hq

theorem Backed.cons {entries : List ChronicleEntry} {phase : SyncPhase}
    (h : Backed plans entries phase) {e : ChronicleEntry}
    (hne : ∀ key n, phase.flight? = some (key, n) → e.key ≠ key) :
    Backed plans (e :: entries) phase := by
  cases phase with
  | scanned key n scan =>
    obtain ⟨F, hF, hscan⟩ := h
    exact ⟨F, (latest?_cons_of_ne (hne key n rfl) entries).trans hF, hscan⟩
  | built key n batch =>
    obtain ⟨F, hF, hof⟩ := h
    exact ⟨F, (latest?_cons_of_ne (hne key n rfl) entries).trans hF, hof⟩
  | scannedAll key n batch scan =>
    obtain ⟨F, hF, hof⟩ := h
    exact ⟨F, (latest?_cons_of_ne (hne key n rfl) entries).trans hF, hof⟩
  | ready key n batch globals =>
    obtain ⟨F, hF, hof⟩ := h
    exact ⟨F, (latest?_cons_of_ne (hne key n rfl) entries).trans hF, hof⟩
  | choosing => trivial
  | wanting key requested => trivial
  | waiting key requested n => trivial
  | leading key n => trivial
  | decided key n outcome => trivial
  | scannedAlone scan => trivial
  | finished => trivial

theorem backed_withGlobals {entries : List ChronicleEntry} {key : String} {n : Nat}
    {batch : RollupBatch} {F : FactStore} (hF : latest? key entries = some (.scanned key n F))
    (hof : Rebuild.OfStore plans key (F.linesOf key) batch) (globals : GlobalOutcome) :
    Backed plans entries (SyncCall.withGlobals key n batch globals) := by
  cases globals with
  | ok g => exact ⟨F, hF, hof⟩
  | error f => trivial

/-- **A synchronisation goes on with the scan that it has made.** -/
theorem backed_step {entries : List ChronicleEntry} {call : SyncCall} {site : SyncSite}
    {next : SyncCall.Next} (hplans : site.synchronizer.plans = plans)
    (h : Backed plans entries call.phase) (hstep : call.step site = some next) :
    Backed plans ((ofStep site.facts call.phase).toList ++ entries) next.call.phase := by
  cases SyncCall.goesOn_of_step hstep with
  | finish | scanAlone | choose | join | lead | share | wantAgain | buildFails | commit | close
  | commitAlone | failAlone => trivial
  | @scan key n hphase =>
    rw [hphase]
    exact ⟨site.facts, latest?_cons_self (.scanned key n site.facts) entries, rfl⟩
  | build hphase hbatch =>
    rw [hphase] at h ⊢
    obtain ⟨F, hF, rfl⟩ := h
    exact ⟨F, hF, Rebuild.ofStore_of_ofKeyScan (hplans ▸ hbatch)⟩
  | needNone hphase | scanAll hphase =>
    rw [hphase] at h ⊢
    exact h
  | reuse hphase | gather hphase =>
    rw [hphase] at h ⊢
    obtain ⟨F, hF, hof⟩ := h
    exact backed_withGlobals hF hof _

/-- What a synchronisation adds is about the store whose flight it leads. -/
theorem flight?_of_ofStep {facts : FactStore} {phase : SyncPhase} {e : ChronicleEntry}
    (h : ofStep facts phase = some e) : ∃ n, phase.flight? = some (e.key, n) := by
  cases phase with
  | leading key n =>
    cases h
    exact ⟨n, rfl⟩
  | ready key n batch globals =>
    cases h
    exact ⟨n, rfl⟩
  | choosing => cases h
  | wanting key requested => cases h
  | waiting key requested n => cases h
  | scanned key n scan => cases h
  | built key n batch => cases h
  | scannedAll key n batch scan => cases h
  | decided key n outcome => cases h
  | scannedAlone scan => cases h
  | finished => cases h

theorem eq_ready_of_ofStep {facts : FactStore} {phase : SyncPhase} {key : String} {n : Nat}
    {batch : RollupBatch} (h : ofStep facts phase = some (.committed key n batch)) :
    ∃ globals, phase = .ready key n batch globals := by
  cases phase with
  | ready key' n' batch' globals =>
    cases h
    exact ⟨globals, rfl⟩
  | leading key' n' => cases h
  | choosing => cases h
  | wanting key' requested => cases h
  | waiting key' requested n' => cases h
  | scanned key' n' scan => cases h
  | built key' n' batch' => cases h
  | scannedAll key' n' batch' scan => cases h
  | decided key' n' outcome => cases h
  | scannedAlone scan => cases h
  | finished => cases h

section Advance

variable {w : SyncWorld} {i : Nat} {r : Running} {next : SyncCall.Next}

/-- What a synchronisation is about to commit was computed from scans. -/
theorem ready_of_sound (h : w.Sound plans) (hi : w.running[i]? = some r) {key : String} {n : Nat}
    {batch : RollupBatch} {globals : Option GlobalSlices}
    (hphase : r.call.phase = .ready key n batch globals) :
    (∃ F : FactStore, Rebuild.OfStore plans key (F.linesOf key) batch) ∧
      ∃ snapshot, ∀ g ∈ globals, Rebuild.OfSnapshot plans snapshot g := by
  have hat := (h.runs i r hi).phase
  rw [hphase] at hat
  obtain ⟨-, ⟨F, -, -, hof⟩, hknown, -⟩ := hat
  refine ⟨⟨F, hof⟩, ?_⟩
  cases globals with
  | none => exact ⟨⟨0, []⟩, fun g hg => by cases hg⟩
  | some g =>
    obtain ⟨G, -, -, hg⟩ := (h.runs i r hi).known g (hknown g rfl)
    exact ⟨_, fun g' hg' => Option.some.inj hg' ▸ hg⟩

/-- The slices of a store change only when a rebuild of the store is committed. -/
theorem get?_store_advance (hn : DistinctNames plans) (h : w.Sound plans)
    (hi : w.running[i]? = some r) (hs : r.call.step w.site = some next) {key : String}
    (hkey : ∀ e, ofStep w.site.facts r.call.phase = some e → e.commits key = false)
    {p : RebuildPlan} (hp : p ∈ Rebuild.storePlans plans) :
    next.site.rollups.get? ⟨p.name, key⟩ = w.site.rollups.get? ⟨p.name, key⟩ := by
  have hplans := h.plans_eq
  subst hplans
  -- Only a commit of the key itself touches the slice of that key.
  cases SyncCall.brings_of_step hs with
  | nothing _ _ hrollups _ => rw [hrollups]
  | commit key' n batch globals hphase hsite =>
    obtain ⟨⟨F, hof⟩, snapshot, hg⟩ := ready_of_sound h hi hphase
    rw [hphase] at hkey
    have hne : key ≠ key' := by
      rintro rfl
      have hcommits := hkey _ rfl
      exact Bool.noConfusion ((beq_self_eq_true key).symm.trans hcommits)
    rw [hsite]
    exact SyncSite.get?_commit_other hn hg hp ((hof.only hn).notMem hne)
  | commitAlone scan g hphase hscan hsite =>
    have hat := (h.runs i r hi).phase
    rw [hphase] at hat
    obtain ⟨F, -, -, rfl⟩ := hat
    have hg : ∀ g' ∈ some g,
        Rebuild.OfSnapshot w.site.synchronizer.plans ⟨F.version, F.lines⟩ g' := by
      intro g' hg'
      rw [← Option.some.inj hg']
      exact Rebuild.ofSnapshot_of_ofScan hscan
    rw [hsite]
    exact SyncSite.get?_commit_other hn hg hp List.not_mem_nil

/-- Once it is committed, the slices of the store are those of its scan. -/
theorem holds_of_ready (hn : DistinctNames plans) (h : w.Sound plans) (hi : w.running[i]? = some r)
    (hs : r.call.step w.site = some next) {key : String} {n : Nat} {batch : RollupBatch}
    {globals : Option GlobalSlices} (hphase : r.call.phase = .ready key n batch globals)
    {lines : List FactRecord} (hof : Rebuild.OfStore plans key lines batch) {p : RebuildPlan}
    (hp : p ∈ Rebuild.storePlans plans) : next.site.rollups.Holds p key lines := by
  have hplans := h.plans_eq
  subst hplans
  obtain ⟨-, snapshot, hg⟩ := ready_of_sound h hi hphase
  cases SyncCall.brings_of_step hs with
  | nothing hready _ _ _ => exact absurd hphase (hready key n batch globals)
  | commit key' n' batch' globals' hphase' hsite =>
    rw [hphase] at hphase'
    cases hphase'
    rw [hsite]
    exact SyncSite.holds_commit_store hn (hof.only hn) hg hof hp
  | commitAlone scan g hphase' _ _ =>
    rw [hphase] at hphase'
    cases hphase'

/-- A commit that leaves the slices from all lines without a version brings none of them. -/
theorem get?_global_commit (hn : DistinctNames plans) (hplans : w.site.synchronizer.plans = plans)
    {key : String} {batch : RollupBatch} {globals : Option GlobalSlices}
    (ho : Rebuild.OnlyStore plans key batch)
    (hnone : (w.site.commit key batch globals).2.2.synchronizer.globalVersion = none)
    {q : RebuildPlan} (hq : q ∈ Rebuild.globalPlans plans) :
    w.site.synchronizer.globalVersion = none ∧
      (w.site.commit key batch globals).2.2.rollups.get? ⟨q.name, globalScope⟩ =
        w.site.rollups.get? ⟨q.name, globalScope⟩ := by
  subst hplans
  have hversion : w.site.synchronizer.globalVersion = none := by
    by_contra hsome
    obtain ⟨u, hu⟩ := Option.ne_none_iff_exists'.1 hsome
    obtain ⟨u', hu', -⟩ := SyncSite.le_newVersion hu globals
    rw [SyncSite.synchronizer_commit] at hnone
    exact Option.some_ne_none u' (hu'.symm.trans hnone)
  refine ⟨hversion, SyncSite.get?_commit_global hn ho (fun g hg => ?_) hq⟩
  -- Without a version before, slices with any version are admitted.
  obtain ⟨u, hu, -⟩ := SyncSite.version_le_newVersion w.site.synchronizer g
  rw [SyncSite.synchronizer_commit, hg] at hnone
  exact absurd (hu.symm.trans hnone) (Option.some_ne_none u)

/-- **Every step of a synchronisation keeps the invariant.** -/
theorem Sound.advance (hn : DistinctNames plans) (hw : c.world.Sound plans) (h : Sound plans c)
    (hi : c.world.running[i]? = some r) (hs : r.call.step c.world.site = some next) :
    Sound plans ⟨c.world.advance i r next,
      (ofStep c.world.site.facts r.call.phase).toList ++ c.entries⟩ := by
  have hstore {key : String}
      (hkey : ∀ e, ofStep c.world.site.facts r.call.phase = some e → e.commits key = false)
      {lines : List FactRecord} {p : RebuildPlan} (hp : p ∈ Rebuild.storePlans plans)
      (hheld : c.world.site.rollups.Holds p key lines) : next.site.rollups.Holds p key lines :=
    hheld.congr (get?_store_advance hn hw hi hs hkey hp)
  refine ⟨fun j r' hj => ?_, fun since key n batch before hentries => ?_, fun hnone q hq => ?_⟩
  · rcases SyncWorld.Sound.getElem?_running_advance hi hj with ⟨rfl, rfl⟩ | ⟨hne, hj⟩
    · exact backed_step hw.plans_eq (h.backed j r hi) hs
    · -- What is noted is of the store that this synchronisation leads, and the other one does not.
      cases hnew : ofStep c.world.site.facts r.call.phase with
      | none => exact h.backed j r' hj
      | some e =>
        obtain ⟨m, hflight⟩ := flight?_of_ofStep hnew
        refine (h.backed j r' hj).cons fun key n hflight' hkey => ?_
        rw [hkey] at hflight
        exact hne (hw.leads_alone hj hi hflight' hflight)
  · change ∃ F, _ ∧ _ ∧ (_ → ∀ p ∈ _, next.site.rollups.Holds p key _)
    cases hnew : ofStep c.world.site.facts r.call.phase with
    | none =>
      rw [hnew] at hentries
      obtain ⟨F, hscan, hof, hheld⟩ := h.committed since key n batch before hentries
      refine ⟨F, hscan, hof, fun hsince p hp => hstore (fun e he => ?_) hp (hheld hsince p hp)⟩
      rw [hnew] at he
      cases he
    | some e =>
      rw [hnew] at hentries
      cases since with
      | nil =>
        -- The commit itself.
        obtain ⟨rfl, rfl⟩ := List.cons.inj hentries
        obtain ⟨globals, hphase⟩ := eq_ready_of_ofStep hnew
        have hbacked := h.backed i r hi
        rw [hphase] at hbacked
        obtain ⟨F, hscan, hof⟩ := hbacked
        refine ⟨F, hscan, hof, fun _ p hp => ?_⟩
        exact holds_of_ready hn hw hi hs hphase hof hp
      | cons e' since =>
        obtain ⟨rfl, hrest⟩ := List.cons.inj hentries
        obtain ⟨F, hscan, hof, hheld⟩ := h.committed since key n batch before hrest
        refine ⟨F, hscan, hof, fun hsince p hp => hstore (fun e he => ?_) hp (hheld ?_ p hp)⟩
        · rw [hnew] at he
          rw [← Option.some.inj he]
          exact hsince _ List.mem_cons_self
        · exact fun e he => hsince e (List.mem_cons_of_mem _ he)
  · change next.site.rollups.get? _ = none
    change next.site.synchronizer.globalVersion = none at hnone
    cases SyncCall.brings_of_step hs with
    | nothing _ _ hrollups hversion =>
      rw [hrollups]
      exact h.bare (hversion ▸ hnone) q hq
    | commit key n batch globals hphase hsite =>
      obtain ⟨⟨F, hof⟩, -⟩ := ready_of_sound hw hi hphase
      rw [hsite] at hnone ⊢
      obtain ⟨hbefore, hget⟩ := get?_global_commit hn hw.plans_eq (hof.only hn) hnone hq
      exact hget.trans (h.bare hbefore q hq)
    | commitAlone scan g _ _ hsite =>
      rw [hsite] at hnone ⊢
      obtain ⟨hbefore, hget⟩ :=
        get?_global_commit hn hw.plans_eq (Rebuild.onlyStore_nil plans globalScope) hnone hq
      exact hget.trans (h.bare hbefore q hq)

end Advance

theorem Reachable.sound (hn : DistinctNames plans) (h : Reachable plans c) : Sound plans c := by
  induction h with
  | start => exact sound_start plans
  | step h hstep ih =>
    cases hstep with
    | advance hi hs => exact ih.advance hn (h.world.sound hn) hi hs
    | beside hb => exact ih.beside hb

/-- The scan of a commit lies between it and the commit before. -/
theorem Sound.scanned_between (h : Sound plans c) {since between before : List ChronicleEntry}
    {key : String} {n m : Nat} {batch batch' : RollupBatch}
    (hentries : c.entries = since ++ .committed key n batch ::
      (between ++ .committed key m batch' :: before)) :
    ∃ F, .scanned key n F ∈ between ∧ Rebuild.OfStore plans key (F.linesOf key) batch := by
  obtain ⟨F, hscan, hof, -⟩ := h.committed _ _ _ _ _ hentries
  refine ⟨F, ?_, hof⟩
  unfold latest? at hscan
  rw [List.find?_append] at hscan
  cases hfound : between.find? fun e => e.key == key with
  | some e =>
    rw [hfound] at hscan
    obtain rfl := Option.some.inj hscan
    exact List.mem_of_find?_eq_some hfound
  | none =>
    -- Otherwise the latest entry would be the other commit.
    have hother : latest? key (.committed key m batch' :: before) = some (.committed key m batch') :=
      latest?_cons_self (.committed key m batch') before
    unfold latest? at hother
    rw [hfound, Option.none_or, hother] at hscan
    cases hscan

/-- **Slices never go back in time.**  In every state of every run:

* The version behind the slices from all lines does not decrease in any further steps; the slices are
  those that their plans compute from the lines of that version, and before there is a version there
  are none.
* No two synchronisations are rebuilding the same store.
* The slices that a rebuild commits were computed from a scan which it has made itself, after all
  that was noted of the store before; so between two commits of a store lies the scan of the later
  one.  The slices of a store are those of its last commit. -/
theorem never_back (hn : DistinctNames plans) (h : Reachable plans c) :
    (∀ world, Relation.ReflTransGen SyncWorld.Step c.world world →
      ∀ u ∈ c.world.site.synchronizer.globalVersion,
        ∃ u' ∈ world.site.synchronizer.globalVersion, u ≤ u') ∧
    (∀ u, c.world.site.synchronizer.globalVersion = some u →
      (∃ F ∈ c.world.past, F.version = u) ∧
      ∀ F ∈ c.world.past, F.version = u → ∀ q ∈ Rebuild.globalPlans plans,
        c.world.site.rollups.Holds q globalScope F.lines) ∧
    (c.world.site.synchronizer.globalVersion = none → ∀ q ∈ Rebuild.globalPlans plans,
      c.world.site.rollups.get? ⟨q.name, globalScope⟩ = none) ∧
    (∀ (i j : Nat) (r r' : Running) key n m, c.world.running[i]? = some r →
      c.world.running[j]? = some r' → r.call.phase.flight? = some (key, n) →
      r'.call.phase.flight? = some (key, m) → i = j) ∧
    (∀ since key n batch before, c.entries = since ++ .committed key n batch :: before →
      ∃ F, latest? key before = some (.scanned key n F) ∧
        Rebuild.OfStore plans key (F.linesOf key) batch ∧
        ((∀ e ∈ since, e.commits key = false) → ∀ p ∈ Rebuild.storePlans plans,
          c.world.site.rollups.Holds p key (F.linesOf key))) ∧
    (∀ since between before key n m batch batch', c.entries = since ++ .committed key n batch ::
        (between ++ .committed key m batch' :: before) →
      ∃ F, .scanned key n F ∈ between ∧ Rebuild.OfStore plans key (F.linesOf key) batch) := by
  have hw := h.world.sound hn
  have hc := h.sound hn
  refine ⟨fun world hrun u hu => SyncWorld.globalVersion_le hrun hu, fun u hu => ?_, hc.bare,
    fun i j r r' key n m hi hj hflight hflight' => hw.leads_alone hi hj hflight hflight',
    hc.committed, fun since between before key n m batch batch' hentries =>
      hc.scanned_between hentries⟩
  -- The slices hold the lines of one fact store of this version, and all others of it have the
  -- same.
  obtain ⟨G, hG, hversion, hheld⟩ := hw.globals u hu
  refine ⟨⟨G, hG, hversion⟩, fun F hF hsame q hq => ?_⟩
  rw [h.world.dated.lines F hF G hG (hsame.trans hversion.symm)]
  exact hheld q hq

/-! ### A run -/

/-- Goes some steps further in a synchronisation, as far as it can. -/
def go (c : Chronicle) (i : Nat) : (steps : Nat) → Chronicle
  | 0 => c
  | steps + 1 =>
    let c := c.go i steps
    match c.world.running[i]? with
    | none => c
    | some r =>
      match r.call.step c.world.site with
      | none => c
      | some next => ⟨c.world.advance i r next,
          (ofStep c.world.site.facts r.call.phase).toList ++ c.entries⟩

/-- A line of a store is appended, and somebody begins to synchronise the store. -/
def appendAndSync (c : Chronicle) (key recordId : String) : Except FactStoreError Chronicle := do
  let (facts, _) ← c.world.site.facts.append [sampleLine key recordId]
  let world := c.world.change facts
  return ⟨world.begin (SyncCall.start world.site (KeySet.ofList [key])), c.entries⟩

theorem Reachable.go (h : Reachable plans c) (i steps : Nat) : Reachable plans (c.go i steps) := by
  induction steps with
  | zero => exact h
  | succ steps ih =>
    unfold Chronicle.go
    dsimp only
    split
    · exact ih
    · next r hr =>
      split
      · exact ih
      · next next hnext => exact .step ih (.advance hr hnext)

theorem Reachable.appendAndSync {key recordId : String} (h : Reachable plans c)
    (ha : c.appendAndSync key recordId = .ok c') : Reachable plans c' := by
  obtain ⟨⟨facts, keys⟩, hf, ha⟩ := Except.bind_eq_ok.1 ha
  cases ha
  exact .step (.step h (.beside (.change (.append hf)))) (.beside (.begin (KeySet.ofList [key])))

/-- Two synchronisations of `A` and one of `B` in between; the second one of `A` overtakes that of
`B`, which has scanned all lines already. -/
def overtaking : Except FactStoreError Chronicle := do
  let c₀ : Chronicle := { world := SyncWorld.start [lineCount "daily" [.storeId, .date],
    lineCount "by_channel" [.channel]] }
  let c₁ ← c₀.appendAndSync "A" "r1"
  let c₂ ← (c₁.go 0 9).appendAndSync "B" "r2"
  let c₃ ← (c₂.go 1 6).appendAndSync "A" "r3"
  return (c₃.go 2 9).go 1 3

theorem reachable_overtaking (h : overtaking = .ok c) :
    Reachable [lineCount "daily" [.storeId, .date], lineCount "by_channel" [.channel]] c := by
  unfold overtaking at h
  obtain ⟨c₁, h₁, h⟩ := Except.bind_eq_ok.1 h
  obtain ⟨c₂, h₂, h⟩ := Except.bind_eq_ok.1 h
  obtain ⟨c₃, h₃, h⟩ := Except.bind_eq_ok.1 h
  rw [← Except.ok.inj h]
  have r₁ := Reachable.start.appendAndSync h₁
  have r₂ := (r₁.go 0 9).appendAndSync h₂
  have r₃ := (r₂.go 1 6).appendAndSync h₃
  exact (r₃.go 2 9).go 1 3

theorem overtaking_ends : ∃ c, overtaking = .ok c ∧
    c.world.site.synchronizer.globalVersion = some 3 ∧
    c.entries.map (fun e => (e.key, e.commits e.key)) =
      [("B", true), ("A", true), ("A", false), ("B", false), ("A", true), ("A", false)] :=
  Except.exists_ok (by decide +kernel)

/-- `B` is committed last, with slices from all lines of the version before; those of the overtaking
synchronisation stay. -/
theorem never_back_overtaken :
    DistinctNames [lineCount "daily" [.storeId, .date], lineCount "by_channel" [.channel]] ∧
    ∃ c, overtaking = .ok c ∧
      c.entries.map (fun e => (e.key, e.commits e.key)) =
        [("B", true), ("A", true), ("A", false), ("B", false), ("A", true), ("A", false)] ∧
      ∃ F ∈ c.world.past, F.version = 3 ∧
        c.world.site.rollups.Holds (lineCount "by_channel" [.channel]) globalScope F.lines := by
  have hn : DistinctNames [lineCount "daily" [.storeId, .date],
      lineCount "by_channel" [.channel]] := by decide
  obtain ⟨c, hc, hversion, hentries⟩ := overtaking_ends
  obtain ⟨-, hglobals, -⟩ := never_back hn (reachable_overtaking hc)
  obtain ⟨⟨F, hF, hF3⟩, hheld⟩ := hglobals 3 hversion
  exact ⟨hn, c, hc, hentries, F, hF, hF3, hheld F hF hF3 _ List.mem_cons_self⟩

end Chronicle

end RetailReport
