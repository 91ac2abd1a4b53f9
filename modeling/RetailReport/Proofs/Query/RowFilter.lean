import RetailReport.Proofs.Calendar.TextOrder
import RetailReport.Proofs.Outcomes
import RetailReport.Proofs.SortedMap
import RetailReport.Query.Answer

/-!
# Rows and lines that a request is about

A filter is applied to rows of a rollup by one engine and to lines by the other.  For a request that
has passed its checks, a row is asked for exactly if the lines of its group are.  There is one
exception: days are compared as texts in rows, so if the last day of a request lies after the year
9999, no row is asked for at all.

## Main definitions

* `MetricRequest.Accepted`: what the checks of a request ensure.
* `QueryFilter.EndsPlain`: the last day of a filter, if there is one, is not after the year 9999.

## Main results

* `RowFilter.asksFor_groupKey`: rows and lines are asked for alike.
* `RowFilter.asksFor_eq_false`: no row is asked for.
-/

namespace RetailReport

/-! ### Accepted requests -/

namespace MetricRequest

/-- **A request that has passed its checks.** -/
structure Accepted (plan : RebuildPlan) (r : MetricRequest) : Prop where
  /-- No dimension is asked for twice. -/
  nodup : r.dimensions.Nodup
  /-- The rollup is grouped by all dimensions that are asked for. -/
  grouped : ∀ d ∈ r.dimensions, d ∈ plan.groupBy
  /-- The rollup is grouped by all dimensions that are restricted. -/
  filtered : ∀ d ∈ filteredDimensions r.filter, d ∈ plan.groupBy
  /-- The first day does not come after the last. -/
  dates : ∀ range, r.filter.dateRange = some range → ¬range.2 < range.1
  /-- With fewer dimensions, all fields that are needed can be merged. -/
  mergeable : r.dimensions.length < plan.groupBy.length →
    ∀ f ∈ plan.fields, f.name ∈ (plan.requiredFields r.fields).members → f.agg.isMergeable = true

theorem checkDimensions_spec {plan : RebuildPlan} {seen dimensions : List Dimension} {u : Unit}
    (h : checkDimensions plan seen dimensions = .ok u) :
    dimensions.Nodup ∧ (∀ d ∈ dimensions, d ∉ seen) ∧ ∀ d ∈ dimensions, d ∈ plan.groupBy := by
  induction dimensions generalizing seen with
  | nil => simp
  | cons d rest ih =>
    unfold checkDimensions at h
    split at h
    · cases h
    · next hgrouped =>
      split at h
      · cases h
      · next hseen =>
        obtain ⟨hnodup, hfresh, hrest⟩ := ih h
        rw [List.contains_iff_mem] at hseen
        refine ⟨List.nodup_cons.2 ⟨fun hd => hfresh d hd List.mem_cons_self, hnodup⟩,
          fun e he => ?_, fun e he => ?_⟩
        · rcases List.mem_cons.1 he with rfl | he
          · exact hseen
          · exact fun hin => hfresh e he (List.mem_cons_of_mem _ hin)
        · rcases List.mem_cons.1 he with rfl | he
          · simpa using hgrouped
          · exact hrest e he

/-- **The checks ensure what they are for.** -/
theorem accepted_of_check {plan : RebuildPlan} {r : MetricRequest} {u : Unit}
    (h : r.check plan = .ok u) : r.Accepted plan := by
  obtain ⟨_, hdimensions, h⟩ := Except.bind_eq_ok.1 h
  obtain ⟨_, hfilter, h⟩ := Except.bind_eq_ok.1 h
  obtain ⟨_, hdates, h⟩ := Except.bind_eq_ok.1 h
  obtain ⟨_, -, hmergeable⟩ := Except.bind_eq_ok.1 h
  obtain ⟨hnodup, -, hgrouped⟩ := checkDimensions_spec hdimensions
  refine ⟨hnodup, hgrouped, fun d hd => ?_, fun range hrange hlt => ?_, fun hlength f hf hreq => ?_⟩
  · unfold checkFilter at hfilter
    split at hfilter
    · cases hfilter
    · next hnone => simpa using List.find?_eq_none.1 hnone d hd
  · unfold checkDates at hdates
    rw [hrange] at hdates
    simp only [hlt] at hdates
    cases hdates
  · unfold checkMergeable at hmergeable
    rw [if_pos hlength] at hmergeable
    simp only at hmergeable
    split at hmergeable
    · cases hmergeable
    · next hnone =>
      have hnot := List.find?_eq_none.1 hnone f hf
      rw [KeySet.contains_iff.2 hreq] at hnot
      simpa using hnot

end MetricRequest

/-! ### Rows and lines -/

namespace RowFilter

variable {groupBy : List Dimension} {q : QueryFilter} {f : FactRecord}

theorem passes_none (groupBy : List Dimension) (key : GroupKey) (d : Dimension) :
    passes groupBy key d none = true := by
  unfold passes
  split
  · next h => cases h
  · rfl

/-- The group of a line passes if the line does. -/
theorem passes_groupKey {d : Dimension} (h : d ∈ groupBy) (f : FactRecord) (test : String → Bool) :
    passes groupBy (groupKey groupBy f) d (some test) = test (d.extract f) := by
  obtain ⟨i, hi⟩ : ∃ i, groupBy.idxOf? d = some i := by
    cases hindex : groupBy.idxOf? d with
    | none => exact absurd h (List.idxOf?_eq_none_iff.1 hindex)
    | some i => exact ⟨i, rfl⟩
  obtain ⟨hlength, hget, -⟩ := List.idxOf?_eq_some_iff.1 hi
  simp only [passes, hi, groupKey, List.getElem?_map, List.getElem?_eq_getElem hlength, hget,
    Option.map_some, Option.any_some]

/-- The group of a line passes an optional restriction if the line does. -/
theorem passes_groupKey_map {α : Type} {d : Dimension} {restriction : Option α}
    (h : restriction.isSome → d ∈ groupBy) (f : FactRecord) (test : α → String → Bool) :
    passes groupBy (groupKey groupBy f) d (restriction.map test) =
      restriction.all fun a => test a (d.extract f) := by
  cases restriction with
  | none => exact passes_none groupBy _ d
  | some a => exact passes_groupKey (h rfl) f (test a)

theorem mem_filteredDimensions (q : QueryFilter) :
    (q.stores.isSome → Dimension.storeId ∈ MetricRequest.filteredDimensions q) ∧
      (q.dateRange.isSome → Dimension.date ∈ MetricRequest.filteredDimensions q) ∧
      (q.channels.isSome → Dimension.channel ∈ MetricRequest.filteredDimensions q) := by
  unfold MetricRequest.filteredDimensions
  refine ⟨fun h => ?_, fun h => ?_, fun h => ?_⟩ <;> simp [h]

end RowFilter

/-- The last day of a filter, if there is one, is not after the year 9999. -/
def QueryFilter.EndsPlain (q : QueryFilter) : Prop :=
  ∀ range ∈ q.dateRange, range.2.year ≤ 9999

instance (q : QueryFilter) : Decidable q.EndsPlain :=
  match h : q.dateRange with
  | none => isTrue (by simp [QueryFilter.EndsPlain, h])
  | some range => decidable_of_iff (range.2.year ≤ 9999) (by simp [QueryFilter.EndsPlain, h])

namespace RowFilter

variable {groupBy : List Dimension} {q : QueryFilter} {f : FactRecord}

/-- A written day is in a range of texts according to its rank. -/
theorem inRange_render_iff {range : Date × Date} {d : Date} : inRange range d.render = true ↔
    ¬d.textRank < range.1.textRank ∧ ¬range.2.textRank < d.textRank := by
  unfold inRange
  rw [Bool.and_eq_true, decide_eq_true_eq, decide_eq_true_eq, ← String.not_lt, ← String.not_lt,
    Date.render_lt_render_iff_textRank, Date.render_lt_render_iff_textRank]

/-- A legible day is one that is in the range of texts exactly if it is in the range of days. -/
theorem legible_iff {range : Date × Date} {d : Date} :
    Date.Legible range d ↔ inRange range d.render = (range.1.le d && d.le range.2) := by
  rw [Bool.eq_iff_iff, inRange_render_iff, Bool.and_eq_true, Date.le_iff, Date.le_iff, Date.Legible]

/-- What a row of the group of a line is asked for by: the store and the channel of the line, and its
day as a text. -/
theorem asksFor_eq {plan : RebuildPlan} {r : MetricRequest} (hr : r.Accepted plan) {row : RollupRow}
    (hkey : row.key = groupKey plan.groupBy f) :
    asksFor plan.groupBy r.filter row = (r.filter.matchesStore f.storeId &&
      r.filter.matchesChannel f.channel &&
        r.filter.dateRange.all fun range => inRange range f.date.render) := by
  obtain ⟨hstores, hdates, hchannels⟩ := mem_filteredDimensions r.filter
  unfold asksFor
  rw [hkey, passes_groupKey_map (fun h => hr.filtered _ (hstores h)),
    passes_groupKey_map (fun h => hr.filtered _ (hchannels h)),
    passes_groupKey_map (fun h => hr.filtered _ (hdates h))]
  rfl

/-- **Rows and lines are asked for alike**, unless the request reaches beyond the year 9999. -/
theorem asksFor_groupKey {plan : RebuildPlan} {r : MetricRequest} (hr : r.Accepted plan)
    (hend : r.filter.EndsPlain) {row : RollupRow} (hdate : f.date.IsPlain)
    (hkey : row.key = groupKey plan.groupBy f) :
    asksFor plan.groupBy r.filter row = r.filter.matchesFact f := by
  have hrange : (r.filter.dateRange.all fun range => inRange range f.date.render) =
      r.filter.matchesDate f.date := by
    unfold QueryFilter.matchesDate
    cases hq : r.filter.dateRange with
    | none => rfl
    | some range =>
      exact legible_iff.1 (Date.legible_of_year (hr.dates range hq) (hend range hq) (.inr hdate.1))
  rw [asksFor_eq hr hkey, hrange, Bool.and_right_comm]
  rfl

/-- **No row is asked for** by a request that reaches beyond the year 9999. -/
theorem asksFor_eq_false {plan : RebuildPlan} {r : MetricRequest} (hr : r.Accepted plan)
    (hend : ¬r.filter.EndsPlain) {row : RollupRow} (hdate : f.date.IsPlain)
    (hkey : row.key = groupKey plan.groupBy f) : asksFor plan.groupBy r.filter row = false := by
  obtain ⟨range, hrange, hlate⟩ :
      ∃ range, r.filter.dateRange = some range ∧ 9999 < range.2.year := by
    unfold QueryFilter.EndsPlain at hend
    cases hq : r.filter.dateRange with
    | none => simp [hq] at hend
    | some range => exact ⟨range, rfl, by simpa [hq] using hend⟩
  have hnot : inRange range f.date.render = false := by
    have hlt : range.2.render < f.date.render :=
      Date.render_lt_render_of_signed (fun h => by have := h.2; omega) hdate
    unfold inRange
    rw [decide_eq_false (String.not_le.2 hlt), Bool.and_false]
  rw [asksFor_eq hr hkey, hrange, Option.all_some, hnot, Bool.and_false]

end RowFilter

end RetailReport
