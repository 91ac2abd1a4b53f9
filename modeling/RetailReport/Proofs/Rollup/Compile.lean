import RetailReport.Proofs.Outcomes
import RetailReport.Proofs.Rollup.Dependencies
import RetailReport.Proofs.SortedMap
import RetailReport.Rollup.Plan

/-!
# Compiled plans

What each check of the compiler is for, said exactly, and what they say together: a schema makes sense
(`RollupSchema.MakesSense`) or is refused for a reason that has nothing to do with cycles.  Cycles are
looked for last, so only a schema that makes sense otherwise is refused for them.

## Main definitions

* `FieldSpec.FitsSource`, `DerivedField.HasFormula`: what is checked of a field, and of a derived one.
* `RollupSchema.MakesSense`: what is checked of a schema, cycles apart.
* `RebuildPlan.WellFormed`: dimensions and names are distinct.

## Main results

* `Compile.compile_eq_of_makesSense`, `Compile.exists_of_not_makesSense`: what becomes of a schema.
* `Compile.compile_spec`: the schemas that are accepted, the order of their derived fields, and the
  fields that are found on or behind cycles.
* `RebuildPlan.wellFormed_of_compile`: a compiled plan is well formed.
-/

namespace RetailReport

/-! ### What makes sense -/

/-- **A field fits its source**: ids are only counted, an amount of orders is declared as one and an
amount of lines is not, and line ids are not of orders. -/
structure FieldSpec.FitsSource (catalog : Catalog) (f : FieldSpec) : Prop where
  /-- Ids are counted. -/
  textual : f.source.isTextual = true → f.agg = .count ∨ f.agg = .countDistinct
  /-- Exactly the amounts of orders are declared as such, and all others are amounts of lines. -/
  level : ∀ name, f.source = .field name →
    (f.isOrderLevel = true ↔ name ∈ catalog.orderFields.members) ∧
      (f.isOrderLevel = false → name ∈ catalog.itemFields.members)
  /-- Line ids are not of orders. -/
  recordId : f.source = .recordId → f.isOrderLevel = false

/-- **A derived field has a formula**, which takes as many inputs as the field has. -/
def DerivedField.HasFormula (formulas : FormulaTable) (d : DerivedField) : Prop :=
  ∃ formula, formulas.get? d.formula = some formula ∧
    ∀ expected, formula.arity = some expected → expected = d.inputs.length

/-- The names of all fields of a schema. -/
def RollupSchema.names (s : RollupSchema) : List String :=
  s.fields.map (·.name) ++ s.derivedFields.map (·.name)

/-- **A schema makes sense**, but for cycles among its derived fields. -/
structure RollupSchema.MakesSense (catalog : Catalog) (formulas : FormulaTable) (s : RollupSchema) :
    Prop where
  /-- It groups by something. -/
  grouped : s.groupBy ≠ []
  /-- It groups by nothing twice. -/
  groupBy : s.groupBy.Nodup
  /-- Its fields have names of their own. -/
  names : s.names.Nodup
  /-- Its fields fit their sources. -/
  fields : ∀ f ∈ s.fields, f.FitsSource catalog
  /-- Its derived fields have formulas. -/
  derived : ∀ d ∈ s.derivedFields, d.HasFormula formulas
  /-- All inputs are fields. -/
  inputs : ∀ d ∈ s.derivedFields, ∀ i ∈ d.inputs, i ∈ s.names

/-- A schema is refused for a cycle. -/
def SchemaError.IsCycle : SchemaError → Prop
  | .cyclicDependency _ _ => True
  | _ => False

namespace Compile

/-! ### One check at a time -/

section Checks

variable {schema : String} {catalog : Catalog} {formulas : FormulaTable} {e : SchemaError}

theorem checkDimensions_eq_ok_iff {seen dimensions : List Dimension} :
    checkDimensions schema seen dimensions = .ok () ↔
      dimensions.Nodup ∧ ∀ d ∈ dimensions, d ∉ seen := by
  induction dimensions generalizing seen with
  | nil => simp [checkDimensions]
  | cons d rest ih =>
    unfold checkDimensions
    by_cases hseen : d ∈ seen
    · rw [if_pos (List.contains_iff_mem.2 hseen)]
      simp [hseen]
    · rw [if_neg (mt List.contains_iff_mem.1 hseen), ih, List.nodup_cons, List.forall_mem_cons]
      constructor
      · rintro ⟨hnodup, hfresh⟩
        exact ⟨⟨fun hd => hfresh d hd List.mem_cons_self, hnodup⟩, hseen,
          fun e he hin => hfresh e he (List.mem_cons_of_mem _ hin)⟩
      · rintro ⟨⟨hd, hnodup⟩, -, hfresh⟩
        refine ⟨hnodup, fun e he hin => ?_⟩
        rcases List.mem_cons.1 hin with rfl | hin
        · exact hd he
        · exact hfresh e he hin

theorem not_isCycle_of_checkDimensions {seen dimensions : List Dimension}
    (h : checkDimensions schema seen dimensions = .error e) : ¬e.IsCycle := by
  induction dimensions generalizing seen with
  | nil => cases h
  | cons d rest ih =>
    unfold checkDimensions at h
    split at h
    · cases h
      exact id
    · exact ih h

/-- What is checked of a field, source by source. -/
theorem checkField_eq_ok_iff {f : FieldSpec} :
    checkField schema catalog f = .ok () ↔ f.FitsSource catalog := by
  obtain ⟨name, source, agg, isOrderLevel⟩ := f
  cases source with
  | field source =>
    have hfits : FieldSpec.FitsSource catalog ⟨name, .field source, agg, isOrderLevel⟩ ↔
        (isOrderLevel = true ↔ source ∈ catalog.orderFields.members) ∧
          (isOrderLevel = false → source ∈ catalog.itemFields.members) :=
      ⟨fun h => h.level source rfl, fun h => ⟨fun ht => Bool.noConfusion ht,
        fun _ e => SourceExpr.field.inj e ▸ h, fun e => SourceExpr.noConfusion e⟩⟩
    rw [hfits]
    simp only [checkField, SourceExpr.isTextual, Bool.false_and, Bool.false_eq_true, if_false,
      Catalog.level?, KeySet.contains_iff]
    by_cases horder : source ∈ catalog.orderFields.members
    · cases isOrderLevel <;> simp [horder]
    · by_cases hitem : source ∈ catalog.itemFields.members
      · cases isOrderLevel <;> simp [horder, hitem]
      · cases isOrderLevel <;> simp [horder, hitem]
  | constant a =>
    exact iff_of_true rfl ⟨fun h => Bool.noConfusion h, fun _ h => SourceExpr.noConfusion h,
      fun h => SourceExpr.noConfusion h⟩
  | orderId =>
    have hfits : FieldSpec.FitsSource catalog ⟨name, .orderId, agg, isOrderLevel⟩ ↔
        agg = .count ∨ agg = .countDistinct :=
      ⟨fun h => h.textual rfl, fun h => ⟨fun _ => h, fun _ e => SourceExpr.noConfusion e,
        fun e => SourceExpr.noConfusion e⟩⟩
    rw [hfits]
    cases agg <;> simp [checkField, SourceExpr.isTextual]
  | recordId =>
    have hfits : FieldSpec.FitsSource catalog ⟨name, .recordId, agg, isOrderLevel⟩ ↔
        (agg = .count ∨ agg = .countDistinct) ∧ isOrderLevel = false :=
      ⟨fun h => ⟨h.textual rfl, h.recordId rfl⟩, fun h => ⟨fun _ => h.1,
        fun _ e => SourceExpr.noConfusion e, fun _ => h.2⟩⟩
    rw [hfits]
    cases agg <;> cases isOrderLevel <;> simp [checkField, SourceExpr.isTextual]

theorem not_isCycle_of_checkField {f : FieldSpec} (h : checkField schema catalog f = .error e) :
    ¬e.IsCycle := by
  unfold checkField at h
  split at h
  · cases h
    exact id
  · split at h
    · split at h <;> cases h <;> exact id
    · split at h <;> cases h
      exact id
    · cases h
    · cases h
/-- What is checked of a derived field. -/
theorem checkFormula_eq_ok_iff {d : DerivedField} :
    checkFormula schema formulas d = .ok () ↔ d.HasFormula formulas := by
  unfold checkFormula DerivedField.HasFormula
  cases formulas.get? d.formula with
  | none => simp
  | some formula => cases harity : formula.arity <;> simp [harity]

theorem not_isCycle_of_checkFormula {d : DerivedField}
    (h : checkFormula schema formulas d = .error e) : ¬e.IsCycle := by
  unfold checkFormula at h
  split at h
  · cases h
    exact id
  · split at h
    · split at h <;> cases h
      exact id
    · cases h

section Named

variable {α : Type} {name : α → String} {check : α → Except SchemaError Unit} {l : List α}
  {seen names : List String}

/-- Things are accepted if their names are new ones and each of them is accepted. -/
theorem checkNamed_eq_ok_iff (hseen : seen.Nodup) :
    checkNamed schema name check seen l = .ok names ↔
      names = (l.map name).reverse ++ seen ∧ names.Nodup ∧ ∀ a ∈ l, check a = .ok () := by
  induction l generalizing seen with
  | nil =>
    rw [checkNamed, Except.ok.injEq, List.map_nil, List.reverse_nil, List.nil_append]
    exact ⟨fun h => ⟨h.symm, h ▸ hseen, fun _ ha => absurd ha List.not_mem_nil⟩, fun h => h.1.symm⟩
  | cons a rest ih =>
    have hshape : (List.map name (a :: rest)).reverse ++ seen =
        (rest.map name).reverse ++ name a :: seen := by simp
    unfold checkNamed
    rw [hshape, List.forall_mem_cons]
    by_cases hold : name a ∈ seen
    · rw [if_pos (List.contains_iff_mem.2 hold)]
      refine iff_of_false (fun h => by cases h) ?_
      rintro ⟨rfl, hnodup, -⟩
      have hnew := (List.nodup_append'.1 hnodup).2.1
      exact (List.nodup_cons.1 hnew).1 hold
    · rw [if_neg (mt List.contains_iff_mem.1 hold), Except.bind_eq_ok]
      have hrest := ih (List.nodup_cons.2 ⟨hold, hseen⟩)
      constructor
      · rintro ⟨_, hcheck, h⟩
        obtain ⟨hnames, hnodup, hall⟩ := hrest.1 h
        exact ⟨hnames, hnodup, hcheck, hall⟩
      · rintro ⟨hnames, hnodup, hcheck, hall⟩
        exact ⟨(), hcheck, hrest.2 ⟨hnames, hnodup, hall⟩⟩

theorem not_isCycle_of_checkNamed (hcheck : ∀ a e, check a = .error e → ¬e.IsCycle)
    (h : checkNamed schema name check seen l = .error e) : ¬e.IsCycle := by
  induction l generalizing seen with
  | nil => cases h
  | cons a rest ih =>
    unfold checkNamed at h
    split at h
    · cases h
      exact id
    · cases ha : check a with
      | error e' =>
        rw [ha] at h
        cases h
        exact hcheck a e ha
      | ok _ =>
        rw [ha] at h
        exact ih h

end Named

theorem checkInputs_eq_ok_iff {names : List String} {derived : List DerivedField} :
    checkInputs schema names derived = .ok () ↔ ∀ d ∈ derived, ∀ i ∈ d.inputs, i ∈ names := by
  induction derived with
  | nil => simp [checkInputs]
  | cons d rest ih =>
    unfold checkInputs
    rw [List.forall_mem_cons, ← ih]
    cases hfind : d.inputs.find? fun i => !names.contains i with
    | none =>
      have hall : ∀ i ∈ d.inputs, i ∈ names := by simpa using hfind
      exact (and_iff_right hall).symm
    | some i =>
      have hmissing := List.find?_some hfind
      refine iff_of_false (fun h => by cases h) fun h => ?_
      have hi := h.1 i (List.mem_of_find?_eq_some hfind)
      simp [hi] at hmissing

theorem not_isCycle_of_checkInputs {names : List String} {derived : List DerivedField}
    (h : checkInputs schema names derived = .error e) : ¬e.IsCycle := by
  induction derived with
  | nil => cases h
  | cons d rest ih =>
    unfold checkInputs at h
    split at h
    · cases h
      exact id
    · exact ih h

end Checks

/-! ### All checks -/

section Compile

variable {schema : RollupSchema} {catalog : Catalog} {formulas : FormulaTable}

/-- The names that the checks have seen when all fields have been checked. -/
def seenNames (schema : RollupSchema) : List String :=
  (schema.derivedFields.map (·.name)).reverse ++ ((schema.fields.map (·.name)).reverse ++ [])

theorem mem_seenNames {name : String} : name ∈ seenNames schema ↔ name ∈ schema.names := by
  simp [seenNames, RollupSchema.names, or_comm]

theorem nodup_seenNames : (seenNames schema).Nodup ↔ schema.names.Nodup := by
  have hperm : (seenNames schema).Perm schema.names := by
    unfold seenNames RollupSchema.names
    rw [List.append_nil, ← List.reverse_append]
    exact List.reverse_perm _
  exact hperm.nodup_iff

/-- The checks of the fields give the names that have been seen. -/
theorem checkFields_eq_ok_iff {names : List String} :
    checkFields schema.name catalog [] schema.fields = .ok names ↔
      names = (schema.fields.map (·.name)).reverse ++ [] ∧ (schema.fields.map (·.name)).Nodup ∧
        ∀ f ∈ schema.fields, f.FitsSource catalog := by
  unfold checkFields
  rw [checkNamed_eq_ok_iff List.nodup_nil]
  simp only [checkField_eq_ok_iff]
  refine and_congr_right fun hnames => ?_
  rw [hnames, List.append_nil, List.nodup_reverse]

/-- The checks of the derived fields give all names. -/
theorem checkDerived_eq_ok_iff {names : List String}
    (hfields : (schema.fields.map (·.name)).Nodup) :
    checkDerived schema.name formulas ((schema.fields.map (·.name)).reverse ++ [])
      schema.derivedFields = .ok names ↔ names = seenNames schema ∧ schema.names.Nodup ∧
        ∀ d ∈ schema.derivedFields, d.HasFormula formulas := by
  unfold checkDerived
  rw [checkNamed_eq_ok_iff (by rwa [List.append_nil, List.nodup_reverse])]
  simp only [checkFormula_eq_ok_iff]
  exact and_congr_right fun hnames => by rw [hnames, ← nodup_seenNames]; rfl

/-- **A schema that makes sense** is compiled if its derived fields can be put in order. -/
theorem compile_eq_of_makesSense (h : schema.MakesSense catalog formulas) :
    compile schema catalog formulas =
      (sortDerived schema.name schema.derivedFields).map fun derived =>
        { schema, dimensions := schema.groupBy, derived, formulas } := by
  have hnames : (schema.fields.map (·.name)).Nodup := (List.nodup_append'.1 h.names).1
  have hgrouped : schema.groupBy.isEmpty = false := by simpa using h.grouped
  have hdimensions : checkDimensions schema.name [] schema.groupBy = .ok () :=
    checkDimensions_eq_ok_iff.2 ⟨h.groupBy, fun _ _ => List.not_mem_nil⟩
  have hfields := (@checkFields_eq_ok_iff schema catalog _).2 ⟨rfl, hnames, h.fields⟩
  have hderived := (checkDerived_eq_ok_iff hnames).2 ⟨rfl, h.names, h.derived⟩
  have hinputs : checkInputs schema.name (seenNames schema) schema.derivedFields = .ok () :=
    checkInputs_eq_ok_iff.2 fun d hd i hi => mem_seenNames.2 (h.inputs d hd i hi)
  unfold compile
  rw [hgrouped, hdimensions, hfields]
  simp only [bind, Except.bind, Bool.false_eq_true, if_false, hderived, hinputs]
  cases sortDerived schema.name schema.derivedFields <;> rfl

/-- **A schema that makes no sense** is refused, but not for a cycle. -/
theorem exists_of_not_makesSense (h : ¬schema.MakesSense catalog formulas) :
    ∃ e, compile schema catalog formulas = .error e ∧ ¬e.IsCycle := by
  unfold compile
  -- The checks come in this order, and each of them fails with an error of its own.
  by_cases hgrouped : schema.groupBy.isEmpty = true
  · rw [if_pos hgrouped]
    exact ⟨_, rfl, id⟩
  rw [if_neg hgrouped]
  cases hdimensions : checkDimensions schema.name [] schema.groupBy with
  | error e => exact ⟨e, rfl, not_isCycle_of_checkDimensions hdimensions⟩
  | ok _ =>
    cases hfields : checkFields schema.name catalog [] schema.fields with
    | error e =>
      exact ⟨e, rfl, not_isCycle_of_checkNamed (fun _ _ => not_isCycle_of_checkField) hfields⟩
    | ok names =>
      obtain ⟨rfl, hnames, hfit⟩ := checkFields_eq_ok_iff.1 hfields
      cases hderived : checkDerived schema.name formulas
          ((schema.fields.map (·.name)).reverse ++ []) schema.derivedFields with
      | error e =>
        refine ⟨e, ?_, not_isCycle_of_checkNamed (fun _ _ => not_isCycle_of_checkFormula) hderived⟩
        simp only [bind, Except.bind, hderived]
      | ok names =>
        obtain ⟨rfl, hall, hformula⟩ := (checkDerived_eq_ok_iff hnames).1 hderived
        cases hinputs : checkInputs schema.name (seenNames schema) schema.derivedFields with
        | error e =>
          refine ⟨e, ?_, not_isCycle_of_checkInputs hinputs⟩
          simp only [bind, Except.bind, hderived, hinputs]
        | ok _ =>
          refine absurd ?_ h
          exact {
            grouped := by simpa using hgrouped
            groupBy := (checkDimensions_eq_ok_iff.1 hdimensions).1
            names := hall
            fields := hfit
            derived := hformula
            inputs := fun d hd i hi =>
              mem_seenNames.1 (checkInputs_eq_ok_iff.1 hinputs d hd i hi) }

/-- **Only schemas that make sense are compiled**, and those only if their derived fields can be put in
order. -/
theorem compile_eq_ok_iff {p : RebuildPlan} : compile schema catalog formulas = .ok p ↔
    schema.MakesSense catalog formulas ∧ ∃ derived,
      sortDerived schema.name schema.derivedFields = .ok derived ∧
        p = { schema, dimensions := schema.groupBy, derived, formulas } := by
  by_cases h : schema.MakesSense catalog formulas
  · rw [compile_eq_of_makesSense h, Except.map_eq_ok, and_iff_right h]
    exact exists_congr fun _ => and_congr_right fun _ => eq_comm
  · obtain ⟨e, he, -⟩ := exists_of_not_makesSense h
    rw [he]
    exact iff_of_false (fun hok => by cases hok) fun hok => h hok.1

/-- **Only schemas that make sense are refused for a cycle.** -/
theorem compile_eq_cycle_iff {s : String} {names : List String} :
    compile schema catalog formulas = .error (.cyclicDependency s names) ↔
      schema.MakesSense catalog formulas ∧
        sortDerived schema.name schema.derivedFields = .error (.cyclicDependency s names) := by
  by_cases h : schema.MakesSense catalog formulas
  · rw [compile_eq_of_makesSense h, Except.map_eq_error, and_iff_right h]
  · obtain ⟨e, he, hnot⟩ := exists_of_not_makesSense h
    rw [he]
    refine iff_of_false (fun hcycle => ?_) fun hcycle => h hcycle.1
    cases hcycle
    exact hnot trivial

/-- **The compiler.**  A schema is accepted exactly if it makes sense and its derived fields have no
cycle.  Its plan has the same derived fields, each one after those among its inputs.  A schema is
refused for a cycle exactly if it makes sense otherwise, and then the derived fields that are on a
cycle or depend on one are reported, as they are declared. -/
theorem compile_spec (schema : RollupSchema) (catalog : Catalog) (formulas : FormulaTable) :
    ((∃ p, compile schema catalog formulas = .ok p) ↔
      schema.MakesSense catalog formulas ∧ Acyclic schema.derivedFields) ∧
    (∀ p, compile schema catalog formulas = .ok p →
      p.derived.Perm schema.derivedFields ∧ InOrder schema.derivedFields p.derived) ∧
    ((∃ s names, compile schema catalog formulas = .error (.cyclicDependency s names)) ↔
      schema.MakesSense catalog formulas ∧ ¬Acyclic schema.derivedFields) ∧
    ∀ s names, compile schema catalog formulas = .error (.cyclicDependency s names) →
      s = schema.name ∧ names.Sublist (schema.derivedFields.map (·.name)) ∧
        ∀ d ∈ schema.derivedFields, d.name ∈ names ↔ OnOrBehindCycle schema.derivedFields d := by
  have hdistinct (h : schema.MakesSense catalog formulas) :
      (schema.derivedFields.map (·.name)).Nodup := (List.nodup_append'.1 h.names).2.1
  have hnodup (h : schema.MakesSense catalog formulas) : schema.derivedFields.Nodup :=
    .of_map _ (hdistinct h)
  -- Once a schema makes sense, only the order of its derived fields can fail.
  refine ⟨⟨?_, ?_⟩, fun p hp => ?_, ⟨?_, ?_⟩, fun s names h => ?_⟩
  · rintro ⟨p, hp⟩
    obtain ⟨hsense, derived, hsort, -⟩ := compile_eq_ok_iff.1 hp
    exact ⟨hsense, ((sortDerived_eq_ok_iff (hnodup hsense)).1 hsort).1⟩
  · rintro ⟨hsense, hacyclic⟩
    exact ⟨_, compile_eq_ok_iff.2
      ⟨hsense, _, (sortDerived_eq_ok_iff (hnodup hsense)).2 ⟨hacyclic, rfl⟩, rfl⟩⟩
  · obtain ⟨hsense, derived, hsort, rfl⟩ := compile_eq_ok_iff.1 hp
    exact sorted_of_sortDerived (hnodup hsense) hsort
  · rintro ⟨s, names, h⟩
    obtain ⟨hsense, hsort⟩ := compile_eq_cycle_iff.1 h
    refine ⟨hsense, fun hacyclic => ?_⟩
    rw [(sortDerived_eq_ok_iff (hnodup hsense)).2 ⟨hacyclic, rfl⟩] at hsort
    cases hsort
  · rintro ⟨hsense, hcycle⟩
    obtain ⟨names, hsort⟩ := @exists_of_not_acyclic _ schema.name (hnodup hsense) hcycle
    exact ⟨_, names, compile_eq_cycle_iff.2 ⟨hsense, hsort⟩⟩
  · obtain ⟨hsense, hsort⟩ := compile_eq_cycle_iff.1 h
    exact reported_of_sortDerived (hdistinct hsense) hsort

/-- A rollup of revenues with some derived fields. -/
def revenueSchema (derivedFields : List DerivedField) : RollupSchema where
  name := "daily"
  groupBy := [.storeId]
  fields := [{ name := "revenue", source := .field "price", agg := .sum }]
  derivedFields

/-- The amounts that lines carry. -/
def priceCatalog : Catalog := { itemFields := .ofList ["price"] }

/-- A share that is declared before what it is a share of. -/
def shareOfGross : List DerivedField :=
  [⟨"share", "ratio", ["revenue", "gross"]⟩, ⟨"gross", "sum", ["revenue", "revenue"]⟩]

/-- Two fields that refer to each other, one that refers to the second of them, and one that does not
refer to any of them. -/
def loopAndTail : List DerivedField :=
  [⟨"tail", "sum", ["back"]⟩, ⟨"forth", "sum", ["back"]⟩, ⟨"back", "sum", ["forth", "revenue"]⟩,
    ⟨"free", "sum", ["revenue"]⟩]

/-- The share comes last in the plan; of the others, three are reported. -/
theorem compile_shareOfGross_and_loopAndTail :
    (∃ p, compile (revenueSchema shareOfGross) priceCatalog .builtins = .ok p ∧
      p.derived.map (·.name) = ["gross", "share"] ∧ Acyclic shareOfGross ∧
      InOrder shareOfGross p.derived) ∧
    compile (revenueSchema loopAndTail) priceCatalog .builtins =
      .error (.cyclicDependency "daily" ["tail", "forth", "back"]) ∧
    OnOrBehindCycle loopAndTail ⟨"tail", "sum", ["back"]⟩ ∧
    ¬OnOrBehindCycle loopAndTail ⟨"free", "sum", ["revenue"]⟩ := by
  obtain ⟨haccepted, hsorted, -⟩ := compile_spec (revenueSchema shareOfGross) priceCatalog .builtins
  obtain ⟨-, -, -, hreported⟩ := compile_spec (revenueSchema loopAndTail) priceCatalog .builtins
  have hplan : ∃ p, compile (revenueSchema shareOfGross) priceCatalog .builtins = .ok p ∧
      p.derived.map (·.name) = ["gross", "share"] := Except.exists_ok (by decide +kernel)
  obtain ⟨p, hp, hnames⟩ := hplan
  have hloop : compile (revenueSchema loopAndTail) priceCatalog .builtins =
      .error (.cyclicDependency "daily" ["tail", "forth", "back"]) := rfl
  obtain ⟨-, -, hall⟩ := hreported _ _ hloop
  refine ⟨⟨p, hp, hnames, (haccepted.1 ⟨p, hp⟩).2, (hsorted p hp).2⟩, hloop, ?_, fun h => ?_⟩
  · exact (hall _ (by decide)).1 (by decide)
  · exact absurd ((hall _ (by decide)).2 h) (by decide)

end Compile

end Compile

namespace RebuildPlan

/-- **A plan as the compiler gives it.** -/
structure WellFormed (p : RebuildPlan) : Prop where
  /-- Lines are grouped by the dimensions of the schema. -/
  dimensions : p.dimensions = p.groupBy
  /-- They are distinct. -/
  groupBy : p.groupBy.Nodup
  /-- Fields have names of their own. -/
  names : (p.fields.map (·.name)).Nodup
  /-- No derived field has the name of a field. -/
  derived : ∀ d ∈ p.derived, d.name ∉ p.fields.map (·.name)

/-- **A compiled plan is well formed.** -/
theorem wellFormed_of_compile {schema : RollupSchema} {catalog : Catalog} {formulas : FormulaTable}
    {p : RebuildPlan} (h : Compile.compile schema catalog formulas = .ok p) : p.WellFormed := by
  obtain ⟨hsense, derived, hsort, rfl⟩ := Compile.compile_eq_ok_iff.1 h
  obtain ⟨hfields, hderived, hdisjoint⟩ := List.nodup_append'.1 hsense.names
  refine ⟨rfl, hsense.groupBy, hfields, fun d hd hin => ?_⟩
  have hmem : d ∈ schema.derivedFields :=
    (Compile.sorted_of_sortDerived (.of_map _ hderived) hsort).1.mem_iff.1 hd
  exact hdisjoint hin (List.mem_map_of_mem hmem)

/-- A plan has the name of the schema that it was compiled from. -/
theorem name_of_compile {schema : RollupSchema} {catalog : Catalog} {formulas : FormulaTable}
    {p : RebuildPlan} (h : Compile.compile schema catalog formulas = .ok p) :
    p.name = schema.name := by
  obtain ⟨-, derived, -, rfl⟩ := Compile.compile_eq_ok_iff.1 h
  rfl

end RebuildPlan

end RetailReport
