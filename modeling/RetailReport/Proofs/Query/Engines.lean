import RetailReport.Proofs.Query.PartitionAnswer

/-!
# Both engines give the same rows

When the stored rollups and the partitions are up to date with the fact store, both engines answer
from the same lines.  The rollup engine carries over only the fields that can be merged, which is
enough for those that are shown.  So the answers have the same rows, except in one case: days are
compared as texts in rows, and the text of a day after the year 9999 comes before all others.  A
request that ends on such a day gets no rows from the rollup engine.

## Main definitions

* `Engines.UpToDate`: what both engines answer from is up to date with the lines.

## Main results

* `Answered.rows_eq`: answers that are made from the same lines show the same rows.
* `Engines.rows_eq_iff`: when both engines show the same rows.
-/

namespace RetailReport

open Regroup

/-! ### Answers from the same lines -/

section Answered

variable {p : RebuildPlan} {projection : List String} {facts : List FactRecord}
  {kept : List FieldSpec} {v v' : Values}

/-- Values of the same lines agree where both have the field or neither has it. -/
theorem Values.Of.get?_eq (hv : v.Of kept facts) (hv' : v'.Of p.fields facts)
    (hkept : ∀ field ∈ kept, field ∈ p.fields) {name : String}
    (hname : ∀ field ∈ p.fields, field.name = name → field ∈ kept) :
    v.get? name = v'.get? name := by
  by_cases hfield : ∃ field ∈ p.fields, field.name = name
  · obtain ⟨field, hfield, rfl⟩ := hfield
    obtain ⟨m, hm, hw⟩ := hv.worth field (hname field hfield rfl)
    obtain ⟨m', hm', hw'⟩ := hv'.worth field hfield
    rw [hm, hm', hw.unique hw']
  · have hnone' : name ∉ p.fields.map (·.name) := fun h => hfield (List.mem_map.1 h)
    have hnone : name ∉ kept.map (·.name) := fun h => by
      obtain ⟨field, hmem, e⟩ := List.mem_map.1 h
      exact hfield ⟨field, hkept field hmem, e⟩
    rw [hv.only name hnone, hv'.only name hnone']

/-- What is carried over is enough for what is shown. -/
theorem alike_of_carried {identity : Bool} (hv : v.Of kept facts) (hv' : v'.Of p.fields facts)
    (h : carried p.fields identity (p.requiredFields projection) = .ok kept) :
    p.Alike projection v v' := by
  obtain ⟨hlist, -, hrequired⟩ := carried_spec h
  have hkept : ∀ field ∈ kept, field ∈ p.fields := by
    intro field hfield
    rw [hlist] at hfield
    split at hfield
    · exact hfield
    · exact (List.mem_filter.1 hfield).1
  unfold RebuildPlan.Alike
  split
  · next hempty =>
    refine SortedMap.ext_get? fun name => hv.get?_eq hv' hkept fun field hfield e => ?_
    refine hrequired field hfield ?_
    rw [RebuildPlan.requiredFields, if_pos hempty, KeySet.mem_ofList]
    exact List.mem_map_of_mem hfield
  · exact fun name hname => hv.get?_eq hv' hkept fun field hfield e =>
      hrequired field hfield (e ▸ hname)

/-- **Answers that are made from the same lines** show the same rows. -/
theorem Answered.rows_eq {r : MetricRequest} {rows rows' : List AggregateRow}
    (h : carried p.fields (sameDimensions p.groupBy r.dimensions) (p.requiredFields r.fields) =
      .ok kept)
    (ha : Answered p r kept facts rows) (hb : Answered p r p.fields facts rows') :
    rows = rows' := by
  obtain ⟨base, finished, hbase, hfinished, rfl⟩ := ha
  obtain ⟨base', finished', hbase', hfinished', rfl⟩ := hb
  refine RebuildPlan.projectRows_eq ((hbase.forall₂ hbase').imp fun row row' hrow => ?_)
    hfinished hfinished'
  exact ⟨hrow.1, alike_of_carried hrow.2.1 hrow.2.2 h⟩

end Answered

theorem PartitionEngine.answered_of_execute {p : RebuildPlan} {plans : PlanTable}
    {facts : FactStore} {store : PartitionStore} {r : MetricRequest} {cancelled : Bool}
    {b : AggregateResult} (hp : p.WellFormed) (hplan : plans.get? r.schema = some p)
    (hfacts : facts.Consistent) (hstore : store.Mirrors facts)
    (h : PartitionEngine.execute plans store r cancelled = .ok b) :
    Answered p r p.fields (facts.lines.filter r.filter.matchesFact) b.rows := by
  obtain ⟨plan, hchecked, h⟩ := Except.bind_eq_ok.1 h
  obtain rfl : plan = p := Option.some.inj
    ((PlanTable.checkedPlan_eq_ok hchecked).1.symm.trans hplan)
  cases hhealthy : store.healthy with
  | false => simp [hhealthy, bind, Except.bind, throw, throwThe, MonadExceptOf.throw] at h
  | true =>
    simp only [hhealthy, Bool.not_true, Bool.false_eq_true, if_false] at h
    cases hquery : store.query r plan cancelled with
    | error e => simp [hquery, throw, throwThe, MonadExceptOf.throw] at h
    | ok result =>
      simp only [hquery] at h
      rw [← Except.ok.inj h]
      exact PartitionStore.answered_of_query hp hfacts hstore.keyed
        (fun id _ => hstore.follows id) hquery

/-! ### Both engines -/

/-- What both engines answer from. -/
structure Engines where
  /-- The plans of all rollups. -/
  plans : PlanTable
  /-- The stored rollups. -/
  rollups : RollupStore
  /-- The slices that have been read. -/
  cache : SliceCache
  /-- The stored partitions. -/
  partitions : PartitionStore

namespace Engines

/-- **Both engines are up to date** with a fact store, as far as one rollup is concerned, and the
cache is empty. -/
structure UpToDate (e : Engines) (p : RebuildPlan) (facts : FactStore) : Prop where
  /-- The slices of the rollup are right. -/
  rollups : e.rollups.Current p facts
  /-- No slice has been read. -/
  entries : e.cache.entries = .empty
  /-- The cache knows which slices there are. -/
  knows : e.cache.Knows e.rollups p.name
  /-- The partitions are right. -/
  partitions : e.partitions.Mirrors facts

/-- **When both engines show the same rows.** If they are up to date with a fact store whose moments
fit a 64-bit count of nanoseconds, their answers have the same rows unless the request ends after
the year 9999 and there are rows to be shown. -/
theorem rows_eq_iff {e : Engines} {facts : FactStore} {schema : RollupSchema} {catalog : Catalog}
    {formulas : FormulaTable} {p : RebuildPlan} {r : MetricRequest} {cancelled cancelled' : Bool}
    {a b : AggregateResult} (hfacts : facts.Reachable)
    (hmoments : ∀ f ∈ facts.lines, FactTable.fitsWord f.timestamp.nanos = true)
    (hcompile : Compile.compile schema catalog formulas = .ok p)
    (hplan : e.plans.get? r.schema = some p) (hcurrent : e.UpToDate p facts)
    (ha : (RollupEngine.execute e.plans e.rollups e.cache r cancelled).1 = .ok a)
    (hb : PartitionEngine.execute e.plans e.partitions r cancelled' = .ok b) :
    a.rows = b.rows ↔ r.filter.EndsPlain ∨ b.rows = [] := by
  have hp := RebuildPlan.wellFormed_of_compile hcompile
  have hconsistent := hfacts.consistent
  have hcache := Cache.faithful_of_empty hcurrent.entries hcurrent.knows
  have hdates : ∀ f ∈ facts.lines, f.date.IsPlain := by
    intro f hf
    have hfits := Bool.and_eq_true_iff.1 (hmoments f hf)
    exact Timestamp.isPlain_of_nanos (of_decide_eq_true hfits.1) (of_decide_eq_true hfits.2)
  -- Both engines show the same lines, unless the rollup engine shows none at all.
  by_cases hend : r.filter.EndsPlain
  · obtain ⟨kept, hkept, hanswered⟩ := RollupEngine.answered_of_execute hp hplan hconsistent hdates
      hcurrent.rollups hcache hend ha
    have hanswered' :=
      PartitionEngine.answered_of_execute hp hplan hconsistent hcurrent.partitions hb
    exact iff_of_true (Answered.rows_eq hkept hanswered hanswered') (.inl hend)
  · rw [RollupEngine.rows_eq_nil_of_execute hp hplan hconsistent hdates hcurrent.rollups hcache
      hend ha]
    constructor
    · exact fun h => .inr h.symm
    · exact fun h => (h.resolve_left hend).symm

/-! ### One line, in both engines -/

/-- The rollup that counts the lines of each store and day. -/
def daily : RebuildPlan := lineCount "daily" [.storeId, .date]

/-- Engines that are up to date with the line. -/
def ofOneLine : Engines where
  plans := .ofPlans [daily]
  rollups := RollupStore.commit {} [⟨⟨"daily", "S1"⟩,
    [{ schema := "daily", key := ["S1", "2025-01-01"], values := .ofList [("lines", .count 1)] }]⟩]
  cache := { config := {}, filter := { capacity := 1, size := 64, probes := 0 } }
  partitions := {
    folder.nodes := .ofList
      [([], .directory), (["tmp"], .directory), (FolderPath.home, .directory),
        (FolderPath.home ++ ["day"], .table
          { columns := [],
            rows := [{
              recordId := "r1", orderId := "r1", storeId := "S1", channel := "APP",
              nanos := (sampleLine "S1" "r1").timestamp.nanos, amounts := [] }] })]
    manifestPath := FolderPath.home ++ ["manifest.json"]
    manifest := .ofList [(newYearsDay, {
      id := newYearsDay, file := "day", contentHash := "", rowCount := 1, fileSize := 0,
      writtenAt := 0 })]
    today := { year := 2025, month := 2, day := 1 } }

/-- The request for the number of lines of each store since New Year's Day 2025. -/
def untilDay (last : Date) : MetricRequest where
  schema := "daily"
  dimensions := [.storeId]
  filter.dateRange := some (newYearsDay.date, last)

theorem reachable_oneLine : oneLine.Reachable := .append .empty append_oneLine

theorem fitsWord_oneLine : ∀ f ∈ oneLine.lines, FactTable.fitsWord f.timestamp.nanos = true := by
  decide +kernel

theorem compile_daily : Compile.compile daily.schema {} .empty = .ok daily := rfl

/-- The line is in its file. -/
theorem readFile_ofOneLine : ofOneLine.partitions.readFile "day" = .ok [sampleLine "S1" "r1"] := by
  decide +kernel

theorem upToDate_ofOneLine : ofOneLine.UpToDate daily oneLine where
  rollups scope _ := by
    -- The one store has its slice; no other one has a line or a slice.
    by_cases hscope : scope = "S1"
    · rw [hscope]
      decide +kernel
    · have hlines : daily.linesFor oneLine scope = [] := by
        have hnone : oneLine.byStore.get? scope = none :=
          SortedMap.get?_ofList_of_notMem (by simpa using hscope)
        change oneLine.linesOf scope = []
        rw [FactStore.linesOf, SortedMap.getD, hnone]
        rfl
      have hslice : ofOneLine.rollups.get? ⟨"daily", scope⟩ = none :=
        RollupStore.get?_commit_of_notMem (by simpa [RollupBatch.sliceIds] using hscope) {}
      rw [hlines]
      exact ⟨[], RebuildPlan.execute_nil _, hslice⟩
  entries := rfl
  knows _ scope _ := rfl
  partitions := by
    have hother : ∀ id, id ≠ newYearsDay → ofOneLine.partitions.manifest.get? id = none :=
      fun id hid => SortedMap.get?_ofList_of_notMem (by simpa using hid)
    refine ⟨fun id e he => ?_, fun id => ?_⟩
    · by_cases hid : id = newYearsDay
      · rw [hid] at he ⊢
        rw [← Option.some.inj he]
      · rw [hother id hid] at he
        cases he
    · by_cases hid : id = newYearsDay
      · rw [hid]
        refine ⟨some [sampleLine "S1" "r1"], ?_, .refl _⟩
        change (ofOneLine.partitions.readFile "day").map some = _
        rw [readFile_ofOneLine]
        rfl
      · refine ⟨none, ?_, ?_⟩
        · rw [PartitionStore.readPartition, hother id hid]
        · refine .of_eq (List.eq_nil_iff_forall_not_mem.2 fun f hf => hid ?_).symm
          obtain ⟨hmem, hown⟩ :=
            (PartitionStore.mem_partitionOf reachable_oneLine.consistent).1 hf
          rw [← hown, List.mem_singleton.1 (show f ∈ [sampleLine "S1" "r1"] from hmem)]
          rfl

/-- A query succeeds if its parts do. -/
theorem query_eq_ok {s : PartitionStore} {r : MetricRequest} {p : RebuildPlan} {cancelled : Bool}
    {lines : List FactRecord} {rows : List AggregateRow} (hpending : s.pendingIn r.filter = 0)
    (hentries : (s.partitions.filter fun e =>
      r.filter.matchesPartition e.id.storeId e.id.date).isEmpty = false)
    (hcollect : s.collect r.filter (cancelled || r.isOver) (s.partitions.filter fun e =>
      r.filter.matchesPartition e.id.storeId e.id.date) = .ok lines)
    (haggregate : (p.withDimensions r.dimensions).aggregate lines = .ok rows) :
    s.query r p cancelled =
      .ok (.ofRows (RebuildPlan.projectRows rows r.fields) .partition) := by
  unfold PartitionStore.query
  simp only [hpending, hentries, hcollect, Nat.lt_irrefl, if_false, Bool.false_eq_true]
  simp [bind, Except.bind, haggregate, pure, Except.pure]

/-- The partition engine counts the line if the days that are asked for include its own. -/
theorem execute_untilDay (last : Date)
    (hchecked : ofOneLine.plans.checkedPlan (untilDay last) = .ok daily)
    (hmatches :
      (untilDay last).filter.matchesPartition newYearsDay.storeId newYearsDay.date = true) :
    PartitionEngine.execute ofOneLine.plans ofOneLine.partitions (untilDay last) false =
      .ok (.ofRows [{ key := ["S1"], values := .ofList [("lines", .count 1)] }] .partition) := by
  have hentries : (ofOneLine.partitions.partitions.filter fun e =>
      (untilDay last).filter.matchesPartition e.id.storeId e.id.date) =
      ofOneLine.partitions.partitions := by
    refine List.filter_eq_self.2 fun e he => ?_
    rw [List.mem_singleton.1 he]
    exact hmatches
  have hcollect : ofOneLine.partitions.collect (untilDay last).filter false
      ofOneLine.partitions.partitions = .ok [sampleLine "S1" "r1"] := by
    change ofOneLine.partitions.collect (untilDay last).filter false [_] = _
    unfold PartitionStore.collect
    rw [readFile_ofOneLine]
    rfl
  have haggregate : (daily.withDimensions [.storeId]).aggregate [sampleLine "S1" "r1"] =
      .ok [{ key := ["S1"], values := .ofList [("lines", .count 1)] }] := by
    decide +kernel
  have hquery : ofOneLine.partitions.query (untilDay last) daily false =
      .ok (.ofRows [{ key := ["S1"], values := .ofList [("lines", .count 1)] }] .partition) :=
by
    have hsome : ofOneLine.partitions.partitions.isEmpty = false := rfl
    exact query_eq_ok (r := untilDay last) (p := daily) rfl (by rw [hentries]; exact hsome)
      (by rw [hentries]; exact hcollect) haggregate
  unfold PartitionEngine.execute
  rw [hchecked]
  simp only [bind, Except.bind, hquery]
  rfl

/-- Both engines answer alike if the year ends as usual. -/
theorem rows_eq_of_oneLine : ∃ a b,
    (RollupEngine.execute ofOneLine.plans ofOneLine.rollups ofOneLine.cache
      (untilDay { year := 2025, month := 12, day := 31 }) false).1 = .ok a ∧
    PartitionEngine.execute ofOneLine.plans ofOneLine.partitions
      (untilDay { year := 2025, month := 12, day := 31 }) false = .ok b ∧
    a.rows = b.rows ∧ b.rows.length = 1 := by
  have ha : ∃ a, (RollupEngine.execute ofOneLine.plans ofOneLine.rollups ofOneLine.cache
      (untilDay { year := 2025, month := 12, day := 31 }) false).1 = .ok a ∧ True :=
    Except.exists_ok (by decide +kernel)
  obtain ⟨a, ha, -⟩ := ha
  have hb := execute_untilDay { year := 2025, month := 12, day := 31 } rfl rfl
  refine ⟨a, _, ha, hb, ?_, rfl⟩
  exact (rows_eq_iff reachable_oneLine fitsWord_oneLine compile_daily rfl upToDate_ofOneLine ha
    hb).2 (.inl (by decide))

/-- **The engines differ** when the request goes on to the year 10000: only the partitions give a
row. -/
theorem rows_ne_beyond_year_9999 : ∃ (e : Engines) (facts : FactStore) (p : RebuildPlan)
    (r : MetricRequest) (a b : AggregateResult), facts.Reachable ∧
    (∀ f ∈ facts.lines, FactTable.fitsWord f.timestamp.nanos = true) ∧
    Compile.compile p.schema {} .empty = .ok p ∧ e.plans.get? r.schema = some p ∧
    e.UpToDate p facts ∧
    (RollupEngine.execute e.plans e.rollups e.cache r false).1 = .ok a ∧
    PartitionEngine.execute e.plans e.partitions r false = .ok b ∧ a.rows ≠ b.rows := by
  have ha : ∃ a, (RollupEngine.execute ofOneLine.plans ofOneLine.rollups ofOneLine.cache
      (untilDay { year := 10000, month := 1, day := 1 }) false).1 = .ok a ∧ a.rows = [] :=
    Except.exists_ok (by decide +kernel)
  obtain ⟨a, ha, hrows⟩ := ha
  have hb := execute_untilDay { year := 10000, month := 1, day := 1 } rfl rfl
  refine ⟨ofOneLine, oneLine, daily, _, a, _, reachable_oneLine, fitsWord_oneLine, compile_daily,
    rfl, upToDate_ofOneLine, ha, hb, fun h => ?_⟩
  rw [hrows] at h
  cases h

end Engines

end RetailReport
