import RetailReport.Proofs.Query.Engines
import RetailReport.Proofs.Rollup.Failures
import RetailReport.Service.Basic

/-!
# Requests that cannot be answered

Whether a request is to blame for not being answered is decided by its plan alone, before an engine
looks at its data.  Both engines refuse the same requests for the same reason; a request that they do
not refuse has dimensions and fields that can be grouped again, so whatever goes wrong then, the request
is not to blame and the other engine is worth a try.

## Main definitions

* `PlanTable.Refuses`: why a request is refused.
* `Routed`: what the router makes of the answers of the engines.
* `ReportService.ReadsOwn`: the slices that the rollup engine reads are of the plan of the request.
* `ReportService.RegroupsSafely`: their rows can be grouped as the request wants.

## Main results

* `RollupEngine.failsOnly_execute`, `PartitionEngine.failsOnly_execute`: **a request that is not refused
  is not to blame.**
* `Router.query_refused`, `Router.query_routed`: refused requests, and all others, on their way.
* `ReportService.query_spec`: what comes of a request, whatever the state of the service.
-/

namespace RetailReport

/-! ### Refusals -/

namespace PlanTable

/-- **Why a request is refused**: there is no rollup of its name, or it does not fit the rollup. -/
inductive Refuses (plans : PlanTable) (r : MetricRequest) : EngineError → Prop
  | unknown (h : plans.get? r.schema = none) : Refuses plans r (.unknownSchema r.schema)
  | invalid {p : RebuildPlan} {fault : RequestFault} (hplan : plans.get? r.schema = some p)
      (h : r.check p = .error fault) : Refuses plans r (.invalidRequest fault)

/-- All plans come from the compiler. -/
def Compiled (plans : PlanTable) : Prop :=
  ∀ name p, plans.get? name = some p →
    ∃ schema catalog formulas, Compile.compile schema catalog formulas = .ok p

variable {plans : PlanTable} {r : MetricRequest} {e : EngineError} {p : RebuildPlan}

theorem Refuses.checkedPlan (h : plans.Refuses r e) : plans.checkedPlan r = .error e := by
  unfold PlanTable.checkedPlan
  cases h with
  | unknown h => rw [h]
  | invalid hplan h =>
    rw [hplan]
    dsimp only
    rw [h]

theorem Refuses.isRequestError (h : plans.Refuses r e) : e.isRequestError = true := by
  cases h <;> rfl

theorem checkedPlan_of_check (hplan : plans.get? r.schema = some p) (h : r.check p = .ok ()) :
    plans.checkedPlan r = .ok p := by
  unfold checkedPlan
  rw [hplan]
  dsimp only
  rw [h]

end PlanTable

/-! ### Requests that are not refused -/

namespace EngineError

/-- The request is not to blame. -/
def Innocent (e : EngineError) : Prop := e.isRequestError = false

theorem innocent_ofAggregation {e : AggregationError} (h : e.OfValues) :
    (ofAggregation e).Innocent := by
  cases e with
  | overflow field => rfl
  | formula field formula source => rfl
  | notMergeable field agg => exact h.elim
  | unsupportedDimension d => exact h.elim

end EngineError

open EngineError (Innocent)

namespace MetricRequest.Accepted

variable {p : RebuildPlan} {r : MetricRequest}

/-- With as many dimensions as the rollup, a request has all of them. -/
theorem sameDimensions (hr : r.Accepted p) (h : ¬r.dimensions.length < p.groupBy.length) :
    Regroup.sameDimensions p.groupBy r.dimensions = true := by
  have hsubperm : r.dimensions.Subperm p.groupBy := hr.nodup.subperm fun d hd => hr.grouped d hd
  have hperm := hsubperm.perm_of_length_le (Nat.not_lt.1 h)
  rw [Regroup.sameDimensions, Bool.and_eq_true, List.all_eq_true, List.all_eq_true]
  exact ⟨fun d hd => List.contains_iff_mem.2 (hperm.mem_iff.2 hd),
    fun d hd => List.contains_iff_mem.2 (hperm.mem_iff.1 hd)⟩

/-- The fields that a request needs can be carried over. -/
theorem exists_carried (hr : r.Accepted p) : ∃ kept, Regroup.carried p.fields
    (Regroup.sameDimensions p.groupBy r.dimensions) (p.requiredFields r.fields) = .ok kept := by
  refine Regroup.exists_carried fun hnot => hr.mergeable ?_
  by_contra hlength
  rw [hr.sameDimensions hlength] at hnot
  cases hnot

end MetricRequest.Accepted

/-! ### The partition engine -/

namespace PartitionStore

theorem failsOnly_readFile (s : PartitionStore) (file : String) :
    FailsOnly (fun e => (EngineError.ofPartition e).Innocent) (s.readFile file) := by
  unfold readFile
  split
  · split
    · exact .ok _
    · exact .error rfl
  · exact .error rfl
  · exact .error rfl

theorem failsOnly_collect (s : PartitionStore) (q : QueryFilter) (cancelled : Bool)
    (entries : List PartitionEntry) :
    FailsOnly (fun e => (EngineError.ofPartition e).Innocent) (s.collect q cancelled entries) := by
  induction entries with
  | nil => exact .ok _
  | cons e rest ih =>
    unfold collect
    dsimp only
    split
    · exact FailsOnly.error (e := PartitionError.cancelled) rfl
    · exact (s.failsOnly_readFile _).bind fun facts => ih.bind fun more => .ok _

theorem failsOnly_query (s : PartitionStore) (r : MetricRequest) (p : RebuildPlan)
    (cancelled : Bool) :
    FailsOnly (fun e => (EngineError.ofPartition e).Innocent) (s.query r p cancelled) := by
  unfold query
  dsimp only
  split
  · exact FailsOnly.error (e := PartitionError.incomplete _) rfl
  split
  · exact .ok _
  refine (s.failsOnly_collect _ _ _).bind fun facts => ?_
  split
  · exact .ok _
  · next e he =>
    exact .error (EngineError.innocent_ofAggregation (RebuildPlan.failsOnly_aggregate e he))

end PartitionStore

variable {plans : PlanTable} {r : MetricRequest} {p : RebuildPlan}

/-- **A request that is not refused is not to blame** if the partition engine fails. -/
theorem PartitionEngine.failsOnly_execute (hchecked : plans.checkedPlan r = .ok p)
    (store : PartitionStore) (cancelled : Bool) :
    FailsOnly Innocent (PartitionEngine.execute plans store r cancelled) := by
  unfold PartitionEngine.execute
  refine .bind (.of_eq_ok hchecked) fun plan => ?_
  dsimp only
  split
  · exact FailsOnly.error (e := EngineError.unavailable _) rfl
  split
  · exact .ok _
  · next e he => exact .error (store.failsOnly_query r plan cancelled e he)

/-! ### The rollup engine -/

namespace RollupEngine

/-- The slices that are read, one after the other. -/
def slicesRead (store : RollupStore) (schema : String) :
    List String → SliceCache → List (List RollupRow)
  | [], _ => []
  | scope :: rest, cache =>
    let (rows, cache) := slice store cache ⟨schema, scope⟩
    rows.toList ++ slicesRead store schema rest cache

/-- Their rows are those that the answer is made from. -/
theorem slices_eq_slicesRead (store : RollupStore) (schema : String) (scopes : List String)
    (cache : SliceCache) : (slices store schema false scopes cache).1 =
      .ok (slicesRead store schema scopes cache).flatten := by
  induction scopes generalizing cache with
  | nil => rfl
  | cons scope rest ih =>
    unfold slices slicesRead
    dsimp only
    rw [if_neg Bool.false_ne_true, ih]
    cases (slice store cache ⟨schema, scope⟩).1 <;> rfl

theorem failsOnly_slices (store : RollupStore) (schema : String) (cancelled : Bool)
    (scopes : List String) (cache : SliceCache) :
    FailsOnly Innocent (slices store schema cancelled scopes cache).1 := by
  induction scopes generalizing cache with
  | nil => exact .ok _
  | cons scope rest ih =>
    unfold slices
    split
    · exact .error rfl
    · exact (ih _).map _

theorem failsOnly_answer (hp : r.Accepted p) (rows : List RollupRow) :
    FailsOnly Innocent (answer p r rows) := by
  obtain ⟨at_, hat⟩ := Regroup.exists_positions hp.grouped
  obtain ⟨kept, hkept⟩ := hp.exists_carried
  unfold answer
  dsimp only
  split
  · exact .ok _
  · next e he =>
    exact .error (EngineError.innocent_ofAggregation
      (RebuildPlan.failsOnly_regroup hat hkept _ e he))

/-- **A request that is not refused is not to blame** if the rollup engine fails. -/
theorem failsOnly_execute (hchecked : plans.checkedPlan r = .ok p) (store : RollupStore)
    (cache : SliceCache) (cancelled : Bool) :
    FailsOnly Innocent (execute plans store cache r cancelled).1 := by
  have hp := (PlanTable.checkedPlan_eq_ok hchecked).2
  unfold execute
  rw [hchecked]
  exact (failsOnly_slices store p.name cancelled _ cache).bind (failsOnly_answer hp)

end RollupEngine

/-! ### The router -/

/-- **What a router makes of the answers of the engines** to a request that is not to blame. -/
inductive Routed (answers : Engine → Except EngineError AggregateResult) (chosen : Engine) :
    Except ReportError RoutedResult → Prop
  /-- The chosen engine has answered. -/
  | answered {result : AggregateResult} (h : answers chosen = .ok result) :
      Routed answers chosen (.ok ⟨result, chosen, false⟩)
  /-- The rollup engine stands in for the partition engine. -/
  | stoodIn {e : EngineError} {result : AggregateResult} (hchosen : chosen = .partition)
      (hfailed : answers .partition = .error e) (h : answers .rollup = .ok result) :
      Routed answers chosen (.ok ⟨result, .rollup, true⟩)
  /-- The rollup engine fails, and so has the partition engine if it was chosen. -/
  | failed {e : EngineError} (hbefore : chosen = .partition → ∃ e, answers .partition = .error e)
      (h : answers .rollup = .error e) :
      Routed answers chosen (.error (.engineUnavailable .rollup (.failed e)))

namespace Router

variable {σ : Type} {access : EngineAccess σ} {s : σ} {r : Router} {request : MetricRequest}

theorem fallsBack_iff {engine : Engine} {answer : Except EngineError AggregateResult} :
    fallsBack engine answer = true ↔
      engine = .partition ∧ ∃ e, answer = .error e ∧ e.isRequestError = false := by
  unfold fallsBack
  split
  · simp
  · next h =>
    refine iff_of_false Bool.false_ne_true ?_
    rintro ⟨rfl, e, rfl, -⟩
    exact h e rfl rfl

theorem degraded_tally (r : Router) (engine : Engine) (ok : Bool) :
    (r.tally engine ok).degraded = r.degraded := by
  cases engine <;> rfl

theorem degraded_conclude (r : Router) (engine : Engine) (degraded : Bool)
    (answer : Except EngineError AggregateResult) :
    (r.conclude engine degraded answer).2.degraded = r.degraded := by
  cases answer <;> exact degraded_tally r engine _

/-- What is told of the answer of the engine that is asked last. -/
def verdict (engine : Engine) (degraded : Bool) :
    Except EngineError AggregateResult → Except ReportError RoutedResult
  | .ok result => .ok ⟨result, engine, degraded⟩
  | .error e => .error (if !degraded && e.isRequestError then .engine e
      else .engineUnavailable engine (.failed e))

theorem outcome_conclude (r : Router) (engine : Engine) (degraded : Bool)
    (answer : Except EngineError AggregateResult) :
    (r.conclude engine degraded answer).1 = verdict engine degraded answer := by
  cases answer <;> rfl

/-- A request that falls back is the rollup engine's. -/
theorem query_of_fallsBack
    (h : fallsBack r.engine (access.execute s r.engine request).1 = true) :
    (r.query access s request).1 = verdict .rollup true
      (access.execute (access.execute s r.engine request).2 .rollup request).1 := by
  unfold query
  dsimp only
  rw [if_pos h]
  exact outcome_conclude _ _ _ _

/-- A request that does not is the chosen engine's. -/
theorem query_of_not_fallsBack
    (h : ¬fallsBack r.engine (access.execute s r.engine request).1 = true) :
    (r.query access s request).1 = verdict r.engine false (access.execute s r.engine request).1 ∧
      (r.query access s request).2.1.degraded = r.degraded := by
  unfold query
  dsimp only
  rw [if_neg h]
  exact ⟨outcome_conclude _ _ _ _, degraded_conclude _ _ _ _⟩

/-- **A request that is to blame** is refused by the chosen engine, and nothing else is asked. -/
theorem query_refused {e : EngineError} (h : (access.execute s r.engine request).1 = .error e)
    (he : e.isRequestError = true) :
    (r.query access s request).1 = .error (.engine e) ∧
      (r.query access s request).2.1.degraded = r.degraded := by
  have hstays : ¬fallsBack r.engine (access.execute s r.engine request).1 = true := by
    rw [fallsBack_iff, h]
    rintro ⟨-, e', he', hinnocent⟩
    cases he'
    rw [he] at hinnocent
    cases hinnocent
  obtain ⟨houtcome, hdegraded⟩ := query_of_not_fallsBack hstays
  refine ⟨?_, hdegraded⟩
  rw [houtcome, h]
  simp [verdict, he]

/-- **A request that is not to blame** is answered by the chosen engine or the rollup engine. -/
theorem query_routed (hsame : (access.execute s .partition request).2 = s)
    (hinnocent : ∀ engine, FailsOnly Innocent (access.execute s engine request).1) :
    Routed (fun engine => (access.execute s engine request).1) r.engine
      (r.query access s request).1 := by
  by_cases hback : fallsBack r.engine (access.execute s r.engine request).1 = true
  · obtain ⟨hchosen, e, he, -⟩ := fallsBack_iff.1 hback
    rw [hchosen] at he
    rw [query_of_fallsBack hback, hchosen, hsame]
    cases hanswer : (access.execute s .rollup request).1 with
    | ok result => exact .stoodIn rfl he hanswer
    | error e' => exact .failed (fun _ => ⟨e, he⟩) hanswer
  · rw [(query_of_not_fallsBack hback).1]
    cases hanswer : (access.execute s r.engine request).1 with
    | ok result => exact .answered hanswer
    | error e =>
      have he : e.isRequestError = false := hinnocent _ e hanswer
      -- The partition engine would have fallen back, so it is the rollup engine that has failed.
      have hchosen : r.engine = .rollup := by
        cases hengine : r.engine with
        | rollup => rfl
        | partition => exact absurd (fallsBack_iff.2 ⟨hengine, e, hanswer, he⟩) hback
      rw [hchosen] at hanswer ⊢
      rw [verdict, he, Bool.and_false, if_neg Bool.false_ne_true]
      exact .failed (fun h => by cases h) hanswer

end Router

/-! ### The service -/

namespace ReportService

/-- What an engine answers in some state of the service. -/
def answers (s : ReportService) (r : MetricRequest) (engine : Engine) :
    Except EngineError AggregateResult := (engines.execute s engine r).1

/-- The slices that the rollup engine reads for a request. -/
def slicesFor (s : ReportService) (p : RebuildPlan) (r : MetricRequest) : List (List RollupRow) :=
  RollupEngine.slicesRead s.rollups p.name (RollupEngine.scopes p s.rollups r.filter) s.cache

/-- **The slices that the rollup engine reads are of the plan of the request**, whatever lines they
were computed from. -/
def ReadsOwn (s : ReportService) (p : RebuildPlan) (r : MetricRequest) : Prop :=
  ∀ rows ∈ s.slicesFor p r, ∃ facts keys, p.execute facts keys = .ok rows

/-- **The rows that the rollup engine reads can be grouped as the request wants**: its dimensions have
positions, the fields that it needs are carried over, and each row has a value at each position. -/
def RegroupsSafely (s : ReportService) (p : RebuildPlan) (r : MetricRequest) : Prop :=
  ∃ at_ kept rows, Regroup.positions p.groupBy r.dimensions = .ok at_ ∧
    Regroup.carried p.fields (Regroup.sameDimensions p.groupBy r.dimensions)
      (p.requiredFields r.fields) = .ok kept ∧
    (RollupEngine.slices s.rollups p.name false (RollupEngine.scopes p s.rollups r.filter)
      s.cache).1 = .ok rows ∧
    ∀ row ∈ rows, ∀ i ∈ at_, i < row.key.length

variable {s : ReportService} {plans : PlanTable} {r : MetricRequest} {p : RebuildPlan}

theorem answers_of_refuses {e : EngineError} (h : s.plans.Refuses r e) (engine : Engine) :
    s.answers r engine = .error e := by
  cases engine with
  | rollup =>
    show (RollupEngine.execute s.plans s.rollups s.cache r false).1 = _
    rw [RollupEngine.execute, h.checkedPlan]
  | partition =>
    show PartitionEngine.execute s.plans s.partitions r false = _
    rw [PartitionEngine.execute, h.checkedPlan]
    rfl

theorem failsOnly_answers (hchecked : s.plans.checkedPlan r = .ok p) (engine : Engine) :
    FailsOnly Innocent (s.answers r engine) := by
  cases engine with
  | rollup => exact RollupEngine.failsOnly_execute hchecked s.rollups s.cache false
  | partition => exact PartitionEngine.failsOnly_execute hchecked s.partitions false

theorem regroupsSafely_of_readsOwn (hp : p.WellFormed) (hr : r.Accepted p) (h : s.ReadsOwn p r) :
    s.RegroupsSafely p r := by
  obtain ⟨at_, hat⟩ := Regroup.exists_positions hr.grouped
  obtain ⟨kept, hkept⟩ := hr.exists_carried
  refine ⟨at_, kept, _, hat, hkept, RollupEngine.slices_eq_slicesRead .., fun row hrow i hi => ?_⟩
  obtain ⟨rows, hrows, hmem⟩ := List.mem_flatten.1 hrow
  obtain ⟨facts, keys, hexecute⟩ := h rows hrows
  rw [RebuildPlan.length_key_of_execute hexecute row hmem, hp.dimensions]
  exact Regroup.lt_of_mem_positions hat i hi

/-- What a routed answer tells. -/
theorem degraded_iff_of_routed {answers : Engine → Except EngineError AggregateResult}
    {chosen : Engine} {routed : RoutedResult} (h : Routed answers chosen (.ok routed)) :
    answers routed.engineUsed = .ok routed.result ∧
      (routed.degraded = true ↔ chosen = .partition ∧ (∃ e, answers .partition = .error e) ∧
        ∃ result, answers .rollup = .ok result) := by
  cases h with
  | answered h =>
    refine ⟨h, iff_of_false Bool.false_ne_true ?_⟩
    rintro ⟨rfl, ⟨e, he⟩, -⟩
    rw [h] at he
    cases he
  | stoodIn hchosen hfailed h => exact ⟨h, iff_of_true rfl ⟨hchosen, ⟨_, hfailed⟩, _, h⟩⟩

/-- **What comes of a request does not depend on the engine.**  A request that is refused is refused in
every state of the service, for the same reason and without falling back.  For any other request no
engine ever finds it to blame; the rows can be grouped as it wants; and the router answers with the rows
of an engine or tells that the rollup engine has failed.  It tells of having fallen back exactly if the
partition engine was chosen and failed, and the rollup engine has answered. -/
theorem query_spec {plans : PlanTable} (hplans : plans.Compiled) (r : MetricRequest) :
    (∀ e, plans.Refuses r e → ∀ s : ReportService, s.plans = plans →
      (s.query r).1 = .error (.engine e) ∧
        (s.query r).2.router.degraded = s.router.degraded) ∧
    ∀ p, plans.get? r.schema = some p → r.check p = .ok () →
      ∀ s : ReportService, s.plans = plans → s.ReadsOwn p r →
        (∀ engine e, s.answers r engine = .error e → e.isRequestError = false) ∧
        s.RegroupsSafely p r ∧ Routed (s.answers r) s.router.engine (s.query r).1 ∧
        ∀ routed, (s.query r).1 = .ok routed →
          s.answers r routed.engineUsed = .ok routed.result ∧
          (routed.degraded = true ↔ s.router.engine = .partition ∧
            (∃ e, s.answers r .partition = .error e) ∧ ∃ result, s.answers r .rollup = .ok result) := by
  constructor
  · -- Both engines refuse what the plan refuses, and nothing falls back from such an error.
    rintro e he s rfl
    exact Router.query_refused (answers_of_refuses he s.router.engine) he.isRequestError
  · rintro p hplan hcheck s rfl hown
    have hchecked := PlanTable.checkedPlan_of_check hplan hcheck
    obtain ⟨schema, catalog, formulas, hcompile⟩ := hplans _ p hplan
    have hrouted : Routed (s.answers r) s.router.engine (s.query r).1 :=
      @Router.query_routed _ engines s s.router r rfl (failsOnly_answers hchecked)
    refine ⟨failsOnly_answers hchecked, ?_, hrouted, fun routed h => ?_⟩
    · exact regroupsSafely_of_readsOwn (RebuildPlan.wellFormed_of_compile hcompile)
        (PlanTable.checkedPlan_eq_ok hchecked).2 hown
    · rw [h] at hrouted
      exact degraded_iff_of_routed hrouted

/-! ### A store that is not there -/

/-- A service that counts the lines of each store and day.  It has chosen the partition engine, whose
store is not healthy. -/
def ailing : ReportService where
  config := {}
  plans := .ofPlans [Engines.daily]
  work := {
    site := {
      facts := oneLine, rollups := Engines.ofOneLine.rollups
      synchronizer := { plans := [Engines.daily] } }
    pool := {} }
  cache := Engines.ofOneLine.cache
  partitions := { Engines.ofOneLine.partitions with healthy := false }
  router := { config := {}, engine := .partition }

/-- The request for the number of lines of each store. -/
def perStore : MetricRequest := { schema := "daily", dimensions := [.storeId] }

theorem compiled_plans_ailing : ailing.plans.Compiled := by
  intro name p hplan
  have hname : name = "daily" := by
    by_contra hother
    have hnone : ailing.plans.get? name = none :=
      SortedMap.get?_ofList_of_notMem fun h => hother (List.mem_singleton.1 h)
    rw [hnone] at hplan
    cases hplan
  rw [hname] at hplan
  cases hplan
  exact ⟨_, _, _, Engines.compile_daily⟩

theorem readsOwn_ailing : ailing.ReadsOwn Engines.daily perStore := by
  intro rows hrows
  have hslices : ailing.slicesFor Engines.daily perStore = [[
      { schema := "daily", key := ["S1", "2025-01-01"],
        values := .ofList [("lines", .count 1)] }]] := by
    decide +kernel
  rw [hslices, List.mem_singleton] at hrows
  refine ⟨[sampleLine "S1" "r1"], none, ?_⟩
  rw [hrows]
  decide +kernel

/-- The rollup engine stands in for the partition engine; a request for a rollup that does not exist is
refused. -/
theorem query_of_ailing :
    ailing.plans.Compiled ∧ ailing.ReadsOwn Engines.daily perStore ∧
    (∃ routed, (ailing.query perStore).1 = .ok routed ∧ routed.engineUsed = .rollup ∧
      routed.degraded = true) ∧
    (ailing.query { schema := "weekly" }).1 = .error (.engine (.unknownSchema "weekly")) := by
  refine ⟨compiled_plans_ailing, readsOwn_ailing, ?_, ?_⟩
  · obtain ⟨-, hall⟩ := query_spec compiled_plans_ailing perStore
    obtain ⟨-, -, hrouted, htells⟩ := hall _ rfl rfl ailing rfl readsOwn_ailing
    have hfailed : ailing.answers perStore .partition =
        .error (.unavailable "partition store unhealthy") := rfl
    obtain ⟨result, hresult⟩ : ∃ result, ailing.answers perStore .rollup = .ok result := by
      obtain ⟨result, h, -⟩ : ∃ result, ailing.answers perStore .rollup = .ok result ∧ True :=
        Except.exists_ok (by decide +kernel)
      exact ⟨result, h⟩
    obtain ⟨routed, hok⟩ : ∃ routed, (ailing.query perStore).1 = .ok routed := by
      generalize (ailing.query perStore).1 = outcome at hrouted
      cases hrouted with
      | answered h => cases hfailed.symm.trans h
      | stoodIn _ _ h => exact ⟨_, rfl⟩
      | failed _ h => cases hresult.symm.trans h
    obtain ⟨hused, hdegraded⟩ := htells routed hok
    refine ⟨routed, hok, ?_, hdegraded.2 ⟨rfl, ⟨_, hfailed⟩, result, hresult⟩⟩
    cases hengine : routed.engineUsed with
    | rollup => rfl
    | partition =>
      rw [hengine, hfailed] at hused
      cases hused
  · obtain ⟨hrefused, -⟩ := query_spec compiled_plans_ailing { schema := "weekly" }
    exact (hrefused _ (.unknown rfl) ailing rfl).1

end ReportService

end RetailReport
