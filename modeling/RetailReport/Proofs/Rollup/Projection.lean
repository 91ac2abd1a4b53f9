import RetailReport.Proofs.Rollup.Compile
import RetailReport.Proofs.SortedMap

/-!
# What a projection depends on

Computing derived fields reads backwards like the liveness of variables: the names that matter
before a field is computed are those that matter after it, with the field itself replaced by its
inputs. `RebuildPlan.requiredFields` collects the names that matter before the first field, so
values that agree on these show the same under the projection.

## Main definitions

* `Values.Agree`: values that agree on some names.
* `RebuildPlan.Alike`: values that show the same under a projection.

## Main results

* `RebuildPlan.finalize_agree`: agreement is carried through the derived fields.
* `RebuildPlan.projectRows_eq`: rows with values alike show the same.
-/

namespace RetailReport

/-- Values that agree on some names. -/
def Values.Agree (names : KeySet String) (v v' : Values) : Prop :=
  ∀ name ∈ names.members, v.get? name = v'.get? name

namespace RebuildPlan

/-! ### Derived fields -/

/-- The names that matter before a field is computed, if some names matter after it. -/
def neededBefore (d : DerivedField) (needed : KeySet String) : KeySet String :=
  if needed.contains d.name then d.inputs.foldl KeySet.add (needed.erase d.name) else needed

theorem requiredFields_eq_foldr (p : RebuildPlan) {projection : List String}
    (h : projection.isEmpty = false) :
    p.requiredFields projection = p.derived.foldr neededBefore (KeySet.ofList projection) := by
  rw [requiredFields, h]
  rfl

theorem mem_foldl_add {names : List String} {s : KeySet String} {name : String} :
    name ∈ (names.foldl KeySet.add s).members ↔ name ∈ names ∨ name ∈ s.members := by
  induction names generalizing s with
  | nil => simp
  | cons n names ih =>
    rw [List.foldl_cons, ih, KeySet.mem_add, List.mem_cons, or_left_comm, or_assoc]

theorem mem_neededBefore_of_ne {d : DerivedField} {needed : KeySet String} {name : String}
    (hname : name ∈ needed.members) (hne : name ≠ d.name) :
    name ∈ (neededBefore d needed).members := by
  unfold neededBefore
  split
  · exact mem_foldl_add.2 (.inr (SortedMap.mem_keys_erase.2 ⟨hne, hname⟩))
  · exact hname

theorem mem_neededBefore_of_input {d : DerivedField} {needed : KeySet String} {name : String}
    (hd : d.name ∈ needed.members) (hname : name ∈ d.inputs) :
    name ∈ (neededBefore d needed).members := by
  rw [neededBefore, if_pos (KeySet.contains_iff.2 hd)]
  exact mem_foldl_add.2 (.inl hname)

/-- A derived field is computed from its inputs, and no other value changes. -/
theorem derive_spec {p : RebuildPlan} {values out : Values} {d : DerivedField}
    (h : p.derive values d = .ok out) :
    ∃ formula v, p.formulas.get? d.formula = some formula ∧
      formula.evaluate (d.inputs.map fun i => values.getD i .null) = .ok v ∧
      out = values.insert d.name v := by
  simp only [derive] at h
  cases hformula : p.formulas.get? d.formula with
  | none => rw [hformula] at h; cases h
  | some formula =>
    simp only [hformula] at h
    cases hv : formula.evaluate (d.inputs.map fun i => values.getD i .null) with
    | error e => rw [hv] at h; cases h
    | ok v =>
      simp only [hv] at h
      exact ⟨formula, v, rfl, hv, (Except.ok.inj h).symm⟩

theorem derive_agree {p : RebuildPlan} {needed : KeySet String} {v v' w w' : Values}
    {d : DerivedField} (hagree : Values.Agree (neededBefore d needed) v v')
    (h : p.derive v d = .ok w) (h' : p.derive v' d = .ok w') : Values.Agree needed w w' := by
  obtain ⟨formula, x, hformula, hx, rfl⟩ := derive_spec h
  obtain ⟨formula', x', hformula', hx', rfl⟩ := derive_spec h'
  intro name hname
  rw [SortedMap.get?_insert, SortedMap.get?_insert]
  split
  · next e =>
    subst e
    obtain rfl : formula = formula' := Option.some.inj (hformula.symm.trans hformula')
    have hinputs : d.inputs.map (fun i => v.getD i .null) =
        d.inputs.map fun i => v'.getD i .null := by
      refine List.map_congr_left fun i hi => ?_
      rw [SortedMap.getD, SortedMap.getD, hagree i (mem_neededBefore_of_input hname hi)]
    rw [hinputs, hx'] at hx
    rw [Except.ok.inj hx]
  · next e => exact hagree name (mem_neededBefore_of_ne hname e)

/-- **Agreement is carried through the derived fields**, from the last one to the first. -/
theorem finalize_agree {p : RebuildPlan} {derived : List DerivedField} {needed : KeySet String}
    {v v' w w' : Values} (hagree : Values.Agree (derived.foldr neededBefore needed) v v')
    (h : derived.foldlM p.derive v = .ok w) (h' : derived.foldlM p.derive v' = .ok w') :
    Values.Agree needed w w' := by
  induction derived generalizing v v' with
  | nil =>
    cases h
    cases h'
    exact hagree
  | cons d derived ih =>
    obtain ⟨u, hu, h⟩ := Except.bind_eq_ok.1 h
    obtain ⟨u', hu', h'⟩ := Except.bind_eq_ok.1 h'
    exact ih (derive_agree hagree hu hu') h h'

/-- The derived fields leave the others alone. -/
theorem get?_finalize {p : RebuildPlan} (hp : p.WellFormed) {values out : Values}
    (h : p.finalize values = .ok out) {name : String} (hname : name ∈ p.fields.map (·.name)) :
    out.get? name = values.get? name := by
  refine List.foldlM_ok_induction (P := fun _ (w : Values) => w.get? name = values.get? name) h rfl
    fun done d w w' hd hw hstep => ?_
  obtain ⟨_, v, -, -, rfl⟩ := derive_spec hstep
  have hne : name ≠ d.name := by
    rintro rfl
    exact hp.derived d hd hname
  rw [SortedMap.get?_insert, if_neg hne, hw]

/-! ### Projections -/

/-- Values that show the same under a projection once the derived fields are computed. -/
def Alike (p : RebuildPlan) (projection : List String) (v v' : Values) : Prop :=
  if projection.isEmpty then v = v' else Values.Agree (p.requiredFields projection) v v'

theorem project_eq_of_agree {projection : List String} {v v' : Values}
    (hagree : Values.Agree (KeySet.ofList projection) v v') (h : projection.isEmpty = false) :
    project v projection = project v' projection := by
  rw [project, project, h, if_neg Bool.false_ne_true, if_neg Bool.false_ne_true]
  refine SortedMap.ext_get? fun name => ?_
  rw [SortedMap.get?_filter, SortedMap.get?_filter]
  by_cases hname : name ∈ projection
  · rw [hagree name (KeySet.mem_ofList.2 hname)]
  · have hnot : projection.contains name = false := by simpa using hname
    rw [Option.filter_eq_none_iff.2 fun v _ => by rw [hnot]; exact Bool.false_ne_true,
      Option.filter_eq_none_iff.2 fun v _ => by rw [hnot]; exact Bool.false_ne_true]

/-- Values alike show the same. -/
theorem project_eq {p : RebuildPlan} {projection : List String} {v v' w w' : Values}
    (halike : p.Alike projection v v') (h : p.finalize v = .ok w) (h' : p.finalize v' = .ok w') :
    project w projection = project w' projection := by
  unfold Alike at halike
  cases hempty : projection.isEmpty with
  | true =>
    rw [hempty, if_pos rfl] at halike
    rw [halike] at h
    rw [Except.ok.inj (h.symm.trans h')]
  | false =>
    rw [hempty, if_neg Bool.false_ne_true, requiredFields_eq_foldr p hempty] at halike
    exact project_eq_of_agree (finalize_agree halike h h') hempty

/-- Finished rows keep their keys. -/
theorem finalizeRows_forall₂ {p : RebuildPlan} {rows out : List AggregateRow}
    (h : p.finalizeRows rows = .ok out) :
    rows.Forall₂ (fun row row' => row'.key = row.key ∧ p.finalize row.values = .ok row'.values)
      out := by
  refine (List.mapM_eq_ok.1 h).imp fun row row' hrow => ?_
  obtain ⟨values, hvalues, hrow⟩ := Except.bind_eq_ok.1 hrow
  cases hrow
  exact ⟨rfl, hvalues⟩

/-- **Rows with values alike show the same.** -/
theorem projectRows_eq {p : RebuildPlan} {projection : List String}
    {rows rows' out out' : List AggregateRow}
    (halike : rows.Forall₂ (fun row row' => row.key = row'.key ∧
      p.Alike projection row.values row'.values) rows')
    (h : p.finalizeRows rows = .ok out) (h' : p.finalizeRows rows' = .ok out') :
    projectRows out projection = projectRows out' projection := by
  have hout := finalizeRows_forall₂ h
  have hout' := finalizeRows_forall₂ h'
  clear h h'
  induction halike generalizing out out' with
  | nil =>
    cases hout
    cases hout'
    rfl
  | cons hrow _ ih =>
    obtain _ | ⟨hfirst, hout⟩ := hout
    obtain _ | ⟨hfirst', hout'⟩ := hout'
    have hrows := ih hout hout'
    rw [projectRows, projectRows] at hrows ⊢
    rw [List.map_cons, List.map_cons, hrows, project_eq hrow.2 hfirst.2 hfirst'.2, hfirst.1,
      hfirst'.1, hrow.1]

end RebuildPlan

end RetailReport
