import RetailReport.Proofs.Query.Engines

/-!
# Rows and lines of any day

Lines may be of any day that the calendar has, also of one that is written with a sign, and so may the
ends of a range.  Rows hold their days as texts, which are not in the order of the days if signs or
years of five digits come in.  Rows and lines are asked for alike exactly if the day of the line is
legible in the range of the request (`Date.Legible`), or the line is not asked for anyway.

## Main results

* `RowFilter.asksFor_eq_matchesFact_iff`: when rows and lines are asked for alike.
-/

namespace RetailReport

namespace RowFilter

variable {plan : RebuildPlan} {r : MetricRequest} {row : RollupRow} {f : FactRecord}

/-- All ranges of a request agree on a day if the day is legible in them. -/
theorem all_inRange_eq_iff {dateRange : Option (Date × Date)} {d : Date} :
    (dateRange.all fun range => inRange range d.render) =
        (dateRange.all fun range => range.1.le d && d.le range.2) ↔
      ∀ range, dateRange = some range → Date.Legible range d := by
  cases dateRange with
  | none => simp
  | some range => simp [legible_iff]

/-- **Rows and lines are asked for alike** exactly if the line is of another store or channel than
those of the request, or its day is legible in the range of the request.  This is so if the last day
is not after the year 9999, unless both the first day and that of the line are before the year 0.  If
the last day is after the year 9999 and the first is not, no row is asked for at all. -/
theorem asksFor_eq_matchesFact_iff (hr : r.check plan = .ok ())
    (hkey : row.key = groupKey plan.groupBy f) :
    (asksFor plan.groupBy r.filter row = r.filter.matchesFact f ↔
      (r.filter.matchesStore f.storeId = true → r.filter.matchesChannel f.channel = true →
        ∀ range, r.filter.dateRange = some range → Date.Legible range f.date)) ∧
    (r.filter.EndsPlain →
      (∀ range, r.filter.dateRange = some range → 0 ≤ range.1.year ∨ 0 ≤ f.date.year) →
      asksFor plan.groupBy r.filter row = r.filter.matchesFact f) ∧
    ∀ range, r.filter.dateRange = some range → range.1.year ≤ 9999 → 9999 < range.2.year →
      asksFor plan.groupBy r.filter row = false := by
  have haccepted := MetricRequest.accepted_of_check hr
  have hexact : asksFor plan.groupBy r.filter row = r.filter.matchesFact f ↔
      (r.filter.matchesStore f.storeId = true → r.filter.matchesChannel f.channel = true →
        ∀ range, r.filter.dateRange = some range → Date.Legible range f.date) := by
    rw [asksFor_eq haccepted hkey, ← all_inRange_eq_iff, QueryFilter.matchesFact, Bool.and_right_comm,
      QueryFilter.matchesDate]
    cases r.filter.matchesStore f.storeId
    · simp
    · cases r.filter.matchesChannel f.channel
      · simp
      · simp
  refine ⟨hexact, fun hend hstart => hexact.2 fun _ _ range hrange => ?_,
    fun range hrange hstart hend => ?_⟩
  · exact Date.legible_of_year (haccepted.dates range hrange) (hend range hrange) (hstart range hrange)
  · -- Whatever the store and the channel are, no text is in the range.
    have hnot : inRange range f.date.render = false :=
      Bool.eq_false_iff.2 fun h => Date.not_between_of_late hstart hend _ (inRange_render_iff.1 h)
    rw [asksFor_eq haccepted hkey, hrange, Option.all_some, hnot, Bool.and_false]

/-- The row that a line is counted in. -/
def rowOf (plan : RebuildPlan) (f : FactRecord) : RollupRow where
  schema := plan.name
  key := groupKey plan.groupBy f
  values := .ofList []

/-- A request for the year 2025 is about the row of its first day, and about the line. -/
theorem asksFor_inYear :
    (Engines.untilDay { year := 2025, month := 12, day := 31 }).check Engines.daily = .ok () ∧
    asksFor Engines.daily.groupBy
      (Engines.untilDay { year := 2025, month := 12, day := 31 }).filter
      (rowOf Engines.daily (sampleLine "S1" "r1")) = true := by
  have hcheck :
      (Engines.untilDay { year := 2025, month := 12, day := 31 }).check Engines.daily = .ok () := rfl
  refine ⟨hcheck, ?_⟩
  rw [(asksFor_eq_matchesFact_iff (f := sampleLine "S1" "r1") hcheck rfl).2.1 (by decide)
    fun _ _ => .inr (by decide)]
  decide

/-- **Rows and lines differ** if the request goes on to the year 10000: it is about the line, but not
about its row. -/
theorem asksFor_ne_matchesFact : ∃ (plan : RebuildPlan) (r : MetricRequest) (row : RollupRow)
    (f : FactRecord), Compile.compile plan.schema {} .empty = .ok plan ∧ r.check plan = .ok () ∧
    row.key = groupKey plan.groupBy f ∧ r.filter.matchesFact f = true ∧
    asksFor plan.groupBy r.filter row = false :=
  ⟨Engines.daily, Engines.untilDay { year := 10000, month := 1, day := 1 },
    rowOf Engines.daily (sampleLine "S1" "r1"), sampleLine "S1" "r1", Engines.compile_daily, rfl, rfl,
    by decide, by decide +kernel⟩

end RowFilter

end RetailReport
