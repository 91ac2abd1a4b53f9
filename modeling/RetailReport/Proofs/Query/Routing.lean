import Mathlib.Data.List.Induction
import RetailReport.Query.Router

/-!
# Which engine the router has chosen

The choice of the engine changes with measurements of the fact store, with force and with nothing
else.  Whatever happens around the router (engines fall ill and recover, lines come and go, the fact
store cannot be reached), a forced engine is the chosen one until a refresh succeeds; and while none
is forced, the choice is the one that the last measurement asks for, although the world may have
changed since.

## Main definitions

* `RouterSite`: how the router reaches the fact store and the engines.
* `RouterOp`, `RouterWorld.perform`: what can happen to a router and around it.
* `RouterHistory`, `RouterHistory.run`: what has happened, with the last measurement.

## Main results

* `RouterWorld.moves_perform`: what can happen to a choice.
* `RouterHistory.settled_run`: a forced engine is chosen, and otherwise the measured one.
* `RouterHistory.routing`: **the choice in every state that a router reaches**.
-/

namespace RetailReport

/-- How the router reaches the fact store and the engines, which some state holds. -/
structure RouterSite (σ : Type) where
  /-- The engines. -/
  access : EngineAccess σ
  /-- The number of lines, if the fact store is available. -/
  count : σ → Except FactStoreError Nat

/-- What can happen to a router and around it. -/
inductive RouterOp (σ : Type) where
  /-- The choice is made afresh; this also happens at the beginning. -/
  | refresh
  /-- An engine is forced. -/
  | force (engine : Engine)
  /-- A synchronisation is over that has rebuilt some stores. -/
  | batchComplete (rebuilt : List String)
  /-- The time has come to reconsider the choice. -/
  | timer
  /-- A request is routed. -/
  | query (request : MetricRequest)
  /-- A request is sent to a given engine. -/
  | queryVia (engine : Engine) (request : MetricRequest)
  /-- A request is sent to both engines. -/
  | verify (request : MetricRequest) (tolerance : Float)
  /-- Engines fall ill or recover, lines come or go, or the fact store is lost or found. -/
  | change (state : σ)

/-- What becomes known when something happens. -/
inductive RouterAnswer where
  /-- The engine that a refresh has chosen. -/
  | chosen (outcome : Except FactStoreError Engine)
  /-- Whether an engine could be forced. -/
  | forced (outcome : Except ReportError Unit)
  /-- The answer to a request that was routed. -/
  | routed (outcome : Except ReportError RoutedResult)
  /-- The answer to another request. -/
  | answered (outcome : Except ReportError AggregateResult)
  /-- Nothing. -/
  | quiet

/-- A router and what it works with. -/
structure RouterWorld (σ : Type) where
  /-- The router. -/
  router : Router
  /-- The fact store and the engines. -/
  state : σ

namespace RouterWorld

variable {σ : Type}

/-- **Something happens.** -/
def perform (site : RouterSite σ) (w : RouterWorld σ) : RouterOp σ → RouterAnswer × RouterWorld σ
  | .refresh =>
    let (outcome, router) :=
      w.router.reevaluate true (site.count w.state) (site.access.isHealthy w.state .partition)
    (.chosen outcome, { w with router })
  | .force engine =>
    let (outcome, router) := w.router.force engine (site.access.isHealthy w.state engine)
    (.forced outcome, { w with router })
  | .batchComplete rebuilt =>
    let router := w.router.onBatchComplete rebuilt (site.count w.state)
      (site.access.isHealthy w.state .partition)
    (.quiet, { w with router })
  | .timer =>
    let (_, router) :=
      w.router.reevaluate false (site.count w.state) (site.access.isHealthy w.state .partition)
    (.quiet, { w with router })
  | .query request =>
    let (outcome, router, state) := w.router.query site.access w.state request
    (.routed outcome, { router, state })
  | .queryVia engine request =>
    let (outcome, state) := Router.queryVia site.access w.state engine request
    (.answered outcome, { w with state })
  | .verify request tolerance =>
    let (outcome, router, state) := w.router.verify site.access w.state request tolerance
    (.answered outcome, { router, state })
  | .change state => (.quiet, { w with state })

end RouterWorld

/-- What a successful measurement has found. -/
structure Measurement where
  /-- The number of lines. -/
  count : Nat
  /-- Whether the partition engine was healthy. -/
  partitionHealthy : Bool
deriving DecidableEq, Repr

namespace Router

variable {σ : Type}

/-! ### What a router does about its choice -/

/-- The choice, and what it rests on, is the same. -/
structure SameChoice (r r' : Router) : Prop where
  /-- The same engine is chosen. -/
  engine : r'.engine = r.engine
  /-- The same engine is forced, or none. -/
  forced : r'.forced = r.forced
  /-- The same number of lines is known. -/
  recordCount : r'.recordCount = r.recordCount
  /-- The router is set up in the same way. -/
  config : r'.config = r.config

/-- The router after a successful measurement that keeps to a force, or has none to keep to. -/
def settle (r : Router) (forced : Option Engine) (m : Measurement) : Router :=
  { r with
    engine := forced.getD (automatic r.config m.count m.partitionHealthy)
    forced, recordCount := m.count, refreshed := true }

theorem SameChoice.refl (r : Router) : r.SameChoice r := ⟨rfl, rfl, rfl, rfl⟩

theorem SameChoice.trans {r r' r'' : Router} (h : r.SameChoice r') (h' : r'.SameChoice r'') :
    r.SameChoice r'' where
  engine := h'.engine.trans h.engine
  forced := h'.forced.trans h.forced
  recordCount := h'.recordCount.trans h.recordCount
  config := h'.config.trans h.config

theorem sameChoice_tally (r : Router) (engine : Engine) (ok : Bool) :
    r.SameChoice (r.tally engine ok) := by
  cases engine <;> exact ⟨rfl, rfl, rfl, rfl⟩

theorem sameChoice_conclude (r : Router) (engine : Engine) (degraded : Bool)
    (answer : Except EngineError AggregateResult) :
    r.SameChoice (r.conclude engine degraded answer).2 := by
  cases answer with
  | ok result => exact sameChoice_tally r engine true
  | error e => exact sameChoice_tally r engine false

/-- **Routing a request** does not touch the choice, also if the request falls back on the rollup
engine. -/
theorem sameChoice_query (r : Router) (access : EngineAccess σ) (s : σ) (request : MetricRequest) :
    r.SameChoice (r.query access s request).2.1 := by
  have hcounted : r.SameChoice { r with queries := r.queries + 1 } := ⟨rfl, rfl, rfl, rfl⟩
  unfold query
  simp only
  split
  · have hdegraded : r.SameChoice { r with queries := r.queries + 1, degraded := r.degraded + 1 } :=
      ⟨rfl, rfl, rfl, rfl⟩
    exact (hdegraded.trans (sameChoice_tally _ _ _)).trans (sameChoice_conclude _ _ _ _)
  · exact hcounted.trans (sameChoice_conclude _ _ _ _)

/-- Comparing the engines does not touch the choice. -/
theorem sameChoice_verify (r : Router) (access : EngineAccess σ) (s : σ) (request : MetricRequest)
    (tolerance : Float) : r.SameChoice (r.verify access s request tolerance).2.1 := by
  unfold verify
  split
  · exact .refl r
  · split
    · exact .refl r
    · split
      · exact .refl r
      · exact ⟨rfl, rfl, rfl, rfl⟩

end Router

namespace RouterWorld

variable {σ : Type} {site : RouterSite σ} {w : RouterWorld σ}

/-! ### What can happen to a choice -/

/-- What is found when the fact store is measured now. -/
def measure (site : RouterSite σ) (w : RouterWorld σ) : Option Measurement :=
  match site.count w.state with
  | .ok count => some ⟨count, site.access.isHealthy w.state .partition⟩
  | .error _ => none

/-- What is measured when something happens. -/
def measured (site : RouterSite σ) (w : RouterWorld σ) : RouterOp σ → Option Measurement
  | .refresh | .timer => w.measure site
  | .batchComplete rebuilt => if rebuilt.isEmpty then none else w.measure site
  | _ => none

/-- **What can happen to a choice:** the router that something leaves behind. -/
inductive Moves (site : RouterSite σ) (w : RouterWorld σ) : RouterOp σ → Router → Prop where
  /-- Nothing is measured, and the choice stays. -/
  | stays (op : RouterOp σ) (r : Router) (hnone : w.measured site op = none)
      (hsame : w.router.SameChoice r) : Moves site w op r
  /-- A refresh lets go of the force. -/
  | refreshed (m : Measurement) (hm : w.measure site = some m) :
    Moves site w .refresh (w.router.settle none m)
  /-- Another measurement keeps to it. -/
  | reconsidered (op : RouterOp σ) (m : Measurement) (hm : w.measured site op = some m) :
    Moves site w op (w.router.settle w.router.forced m)
  /-- A healthy engine is forced. -/
  | forced (engine : Engine) (hhealthy : site.access.isHealthy w.state engine = true) :
    Moves site w (.force engine) { w.router with engine, forced := some engine }

theorem reevaluate_eq (site : RouterSite σ) (w : RouterWorld σ) (clearForce : Bool) :
    (w.router.reevaluate clearForce (site.count w.state)
      (site.access.isHealthy w.state .partition)).2 =
      match w.measure site with
      | none => w.router
      | some m => w.router.settle (if clearForce then none else w.router.forced) m := by
  unfold Router.reevaluate measure
  cases site.count w.state <;> rfl

/-- Everything that can happen is one of these. -/
theorem moves_perform (site : RouterSite σ) (w : RouterWorld σ) (op : RouterOp σ) :
    Moves site w op (w.perform site op).2.router := by
  cases op with
  | refresh =>
    change Moves site w .refresh (w.router.reevaluate true _ _).2
    rw [reevaluate_eq]
    cases hm : w.measure site with
    | none => exact .stays _ _ hm (.refl _)
    | some m => exact .refreshed m hm
  | force engine =>
    change Moves site w (.force engine) (w.router.force engine _).2
    unfold Router.force
    split
    · next hhealthy => exact .forced engine hhealthy
    · exact .stays _ _ rfl (.refl _)
  | batchComplete rebuilt =>
    change Moves site w (.batchComplete rebuilt) (w.router.onBatchComplete rebuilt _ _)
    unfold Router.onBatchComplete
    split
    · next hempty => exact .stays _ _ (if_pos hempty) (.refl _)
    · next hrebuilt =>
      -- The batch has rebuilt something, so the lines are counted again.
      have hmeasured : w.measured site (.batchComplete rebuilt) = w.measure site := if_neg hrebuilt
      rw [reevaluate_eq]
      cases hm : w.measure site with
      | none => exact .stays _ _ (hmeasured.trans hm) (.refl _)
      | some m => exact .reconsidered _ m (hmeasured.trans hm)
  | timer =>
    change Moves site w .timer (w.router.reevaluate false _ _).2
    rw [reevaluate_eq]
    cases hm : w.measure site with
    | none => exact .stays _ _ hm (.refl _)
    | some m => exact .reconsidered _ m hm
  | query request => exact .stays _ _ rfl (w.router.sameChoice_query _ _ request)
  | queryVia engine request => exact .stays _ _ rfl (.refl _)
  | verify request tolerance => exact .stays _ _ rfl (w.router.sameChoice_verify _ _ request tolerance)
  | change state => exact .stays _ _ rfl (.refl _)

/-- Only a healthy engine can be forced. -/
theorem isHealthy_of_forced {engine : Engine}
    (h : (w.perform site (.force engine)).1 = .forced (.ok ())) :
    site.access.isHealthy w.state engine = true := by
  by_contra hhealthy
  have houtcome : (w.perform site (.force engine)).1 =
      .forced (.error (.engineUnavailable engine .unhealthy)) := by
    change RouterAnswer.forced (w.router.force engine _).1 = _
    rw [Router.force, if_neg hhealthy]
  rw [houtcome] at h
  cases h

/-- **Only a successful refresh lets go of a force.** -/
theorem refreshed_of_cleared {engine : Engine} {op : RouterOp σ}
    (hbefore : w.router.forced = some engine)
    (hafter : (w.perform site op).2.router.forced = none) :
    op = .refresh ∧ ∃ chosen, (w.perform site op).1 = .chosen (.ok chosen) := by
  have hmoves := moves_perform site w op
  generalize (w.perform site op).2.router = r at hmoves hafter
  cases hmoves with
  | stays op r hnone hsame =>
    rw [hsame.forced, hbefore] at hafter
    cases hafter
  | refreshed m hm =>
    refine ⟨rfl, ?_⟩
    change ∃ chosen, RouterAnswer.chosen (w.router.reevaluate true _ _).1 = _
    unfold measure at hm
    unfold Router.reevaluate
    cases hcount : site.count w.state with
    | ok count => exact ⟨_, rfl⟩
    | error e =>
      rw [hcount] at hm
      cases hm
  | reconsidered op m hm =>
    change w.router.forced = none at hafter
    rw [hbefore] at hafter
    cases hafter
  | forced engine hhealthy => cases hafter

/-- **A refresh that fails** leaves everything as it is. -/
theorem eq_of_refresh_error {e : FactStoreError}
    (h : (w.perform site .refresh).1 = .chosen (.error e)) : (w.perform site .refresh).2 = w := by
  change RouterAnswer.chosen (w.router.reevaluate true _ _).1 = _ at h
  change RouterWorld.mk (w.router.reevaluate true _ _).2 w.state = w
  unfold Router.reevaluate at h ⊢
  cases hcount : site.count w.state with
  | ok count =>
    rw [hcount] at h
    cases h
  | error e => rfl

/-- **So does a force that fails.** -/
theorem eq_of_force_error {engine : Engine} {e : ReportError}
    (h : (w.perform site (.force engine)).1 = .forced (.error e)) :
    (w.perform site (.force engine)).2 = w := by
  change RouterAnswer.forced (w.router.force engine _).1 = _ at h
  change RouterWorld.mk (w.router.force engine _).2 w.state = w
  unfold Router.force at h ⊢
  split at h
  · cases h
  · next hhealthy => rw [if_neg hhealthy]

end RouterWorld

/-! ### Histories -/

/-- A router with what has happened to it: the last measurement, if one has succeeded. -/
structure RouterHistory (σ : Type) where
  /-- The router, the fact store and the engines. -/
  world : RouterWorld σ
  /-- The last measurement. -/
  last : Option Measurement := none

namespace RouterHistory

variable {σ : Type} {site : RouterSite σ}

/-- What a new router begins with. -/
def start (config : RouterConfig) (state : σ) : RouterHistory σ where
  world := { router := { config }, state }

/-- One thing more has happened. -/
def step (site : RouterSite σ) (h : RouterHistory σ) (op : RouterOp σ) : RouterHistory σ where
  world := (h.world.perform site op).2
  last := (h.world.measured site op).or h.last

/-- **What has become of a router.** -/
def run (site : RouterSite σ) (config : RouterConfig) (state : σ) (ops : List (RouterOp σ)) :
    RouterHistory σ := ops.foldl (step site) (start config state)

/-- The choice is as forced, or else as measured. -/
structure Settled (config : RouterConfig) (r : Router) (last : Option Measurement) : Prop where
  /-- The router is set up as in the beginning. -/
  setUp : r.config = config
  /-- A forced engine is chosen. -/
  forced : ∀ engine, r.forced = some engine → r.engine = engine
  /-- If none is forced, the last measurement decides. -/
  measured : ∀ m, r.forced = none → last = some m →
    r.engine = Router.automatic config m.count m.partitionHealthy

variable {config : RouterConfig} {r : Router} {last : Option Measurement}

theorem Settled.same (hr : Settled config r last) {r' : Router} (h : r.SameChoice r') :
    Settled config r' last where
  setUp := h.config.trans hr.setUp
  forced := by
    rw [h.forced, h.engine]
    exact hr.forced
  measured := by
    rw [h.forced, h.engine]
    exact hr.measured

theorem Settled.settle (hr : Settled config r last) (forced : Option Engine) (m : Measurement) :
    Settled config (r.settle forced m) (some m) where
  setUp := hr.setUp
  forced := by
    rintro engine (rfl : forced = some engine)
    rfl
  measured := by
    rintro m' (rfl : forced = none) hlast
    cases hlast
    rw [← hr.setUp]
    rfl

/-- **Whatever happens, the choice stays settled.** -/
theorem settled_step {h : RouterHistory σ} (hh : Settled config h.world.router h.last)
    (op : RouterOp σ) :
    Settled config (h.step site op).world.router (h.step site op).last := by
  have hmoves := RouterWorld.moves_perform site h.world op
  change Settled config (h.world.perform site op).2.router ((h.world.measured site op).or h.last)
  generalize (h.world.perform site op).2.router = r at hmoves ⊢
  cases hmoves with
  | stays op r hnone hsame =>
    rw [hnone]
    exact hh.same hsame
  | refreshed m hm =>
    have hmeasured : h.world.measured site .refresh = some m := hm
    rw [hmeasured]
    exact hh.settle none m
  | reconsidered op m hm =>
    rw [hm]
    exact hh.settle _ m
  | forced engine hhealthy =>
    -- The last measurement does not matter while an engine is forced.
    refine ⟨hh.setUp, fun other hother => Option.some.inj hother, fun m hnone => ?_⟩
    cases hnone

/-- The choice is settled in every state that is reached. -/
theorem settled_run (site : RouterSite σ) (config : RouterConfig) (state : σ)
    (ops : List (RouterOp σ)) :
    Settled config (run site config state ops).world.router (run site config state ops).last := by
  induction ops using List.reverseRecOn with
  | nil =>
    refine ⟨rfl, fun _ hforced => ?_, fun _ _ hlast => ?_⟩
    · cases hforced
    · cases hlast
  | append_singleton ops op ih =>
    rw [run, List.foldl_append]
    exact settled_step ih op

theorem automatic_eq_partition_iff (config : RouterConfig) (count : Nat) (healthy : Bool) :
    Router.automatic config count healthy = .partition ↔
      config.switchThreshold ≤ count ∧ healthy = true := by
  unfold Router.automatic
  split
  · next h =>
    rw [Bool.and_eq_true, decide_eq_true_iff] at h
    exact iff_of_true rfl h
  · next h =>
    rw [Bool.and_eq_true, decide_eq_true_iff] at h
    exact iff_of_false Engine.noConfusion h

/-- **The choice in every state that a router reaches.**  A forced engine is the chosen one.  Only a
healthy engine can be forced, only a successful refresh lets go of it, and a force or a refresh that
fails leaves everything as it is.  While no engine is forced and once a measurement has succeeded, the
partition engine is chosen exactly if the last one has found enough lines and that engine healthy.
Requests do not touch the choice. -/
theorem routing (site : RouterSite σ) (config : RouterConfig) (state : σ)
    (ops : List (RouterOp σ)) :
    let h := run site config state ops
    (∀ engine, h.world.router.forced = some engine → h.world.router.engine = engine) ∧
    (∀ engine, (h.world.perform site (.force engine)).1 = .forced (.ok ()) →
      site.access.isHealthy h.world.state engine = true) ∧
    (∀ engine op, h.world.router.forced = some engine →
      (h.world.perform site op).2.router.forced = none →
      op = .refresh ∧ ∃ chosen, (h.world.perform site op).1 = .chosen (.ok chosen)) ∧
    (∀ m, h.world.router.forced = none → h.last = some m →
      (h.world.router.engine = .partition ↔
        config.switchThreshold ≤ m.count ∧ m.partitionHealthy = true)) ∧
    (∀ e, (h.world.perform site .refresh).1 = .chosen (.error e) →
      (h.world.perform site .refresh).2 = h.world) ∧
    (∀ engine e, (h.world.perform site (.force engine)).1 = .forced (.error e) →
      (h.world.perform site (.force engine)).2 = h.world) ∧
    (∀ request, h.world.router.SameChoice (h.world.perform site (.query request)).2.router) ∧
    (∀ engine request,
      h.world.router.SameChoice (h.world.perform site (.queryVia engine request)).2.router) ∧
    (∀ request tolerance,
      h.world.router.SameChoice (h.world.perform site (.verify request tolerance)).2.router) := by
  intro h
  have hsettled := settled_run site config state ops
  refine ⟨hsettled.forced, fun _ => RouterWorld.isHealthy_of_forced,
    fun _ _ => RouterWorld.refreshed_of_cleared, fun m hnone hlast => ?_,
    fun _ => RouterWorld.eq_of_refresh_error, fun _ _ => RouterWorld.eq_of_force_error,
    fun request => Router.sameChoice_query _ _ _ request, fun _ _ => .refl _,
    fun request tolerance => Router.sameChoice_verify _ _ _ request tolerance⟩
  -- The engine was chosen by what was measured last.
  rw [hsettled.measured m hnone hlast]
  exact automatic_eq_partition_iff config m.count m.partitionHealthy

end RouterHistory

end RetailReport
