import RetailReport.Proofs.Rollup.Projection

/-!
# The values of derived fields

Derived fields are computed one after the other, each one written into the values that the next ones
read from.  As each comes after its inputs and none is written twice, what a run leaves solves the
equations that the schema states, all at once: each derived field is its formula applied to its inputs.
Conversely, whatever solves the equations is what a run leaves, whichever order it takes.  So the order
in which the fields are declared has no influence, though it has one on the order of the run.

## Main definitions

* `DerivedField.Holds`: the equation of a derived field.
* `Solves`: values that solve the equations of some derived fields, and are otherwise as given.
* `RebuildPlan.NeverAtLoss`: no step of a run lacks an input, a formula or the right number of inputs.

## Main results

* `solves_concat_iff`: **one field more**.
* `RebuildPlan.foldlM_derive_eq_ok_iff`: **a whole run** leaves what solves the equations.
* `Compile.exists_compile_perm_iff`: the order of declaration does not matter to the compiler.
* `RebuildPlan.finalize_perm`: nor does it matter to the values.
-/

namespace RetailReport

open SortedMap

/-! ### Equations -/

/-- The values of the inputs of a derived field. -/
def DerivedField.arguments (d : DerivedField) (values : Values) : List Metric :=
  d.inputs.map fun i => values.getD i .null

/-- **The equation of a derived field**: its value is its formula applied to the values of its
inputs. -/
def DerivedField.Holds (formulas : FormulaTable) (values : Values) (d : DerivedField) : Prop :=
  ∃ formula v, formulas.get? d.formula = some formula ∧ formula.apply (d.arguments values) = .ok v ∧
    values.get? d.name = some v

/-- **What solves the equations of some derived fields**, and is otherwise as given. -/
structure Solves (formulas : FormulaTable) (derived : List DerivedField) (values out : Values) :
    Prop where
  /-- All other values are as given. -/
  given : ∀ name, name ∉ derived.map (·.name) → out.get? name = values.get? name
  /-- The equations hold. -/
  holds : ∀ d ∈ derived, d.Holds formulas out

variable {formulas : FormulaTable} {fields derived derived' done : List DerivedField}
  {d : DerivedField} {values out w : Values}

/-- The equations know no order. -/
theorem solves_iff_of_perm (hperm : derived.Perm derived') :
    Solves formulas derived values out ↔ Solves formulas derived' values out := by
  constructor
  · rintro ⟨given, holds⟩
    exact ⟨fun name h => given name (mt (hperm.map _).mem_iff.1 h),
      fun d hd => holds d (hperm.mem_iff.2 hd)⟩
  · rintro ⟨given, holds⟩
    exact ⟨fun name h => given name (mt (hperm.map _).mem_iff.2 h),
      fun d hd => holds d (hperm.mem_iff.1 hd)⟩

/-- An equation is about a field and its inputs alone. -/
theorem DerivedField.Holds.congr (h : d.Holds formulas values)
    (hname : out.get? d.name = values.get? d.name)
    (hinputs : ∀ i ∈ d.inputs, out.get? i = values.get? i) : d.Holds formulas out := by
  obtain ⟨formula, v, hformula, hv, hvalue⟩ := h
  have harguments : d.arguments out = d.arguments values :=
    List.map_congr_left fun i hi => by rw [getD, getD, hinputs i hi]
  exact ⟨formula, v, hformula, by rw [harguments, hv], hname.trans hvalue⟩

/-- **One field more**, which is not among the inputs of any: its equation is solved by writing its
value. -/
theorem solves_concat_iff (hname : d.name ∉ done.map (·.name))
    (hinputs : ∀ e ∈ done ++ [d], d.name ∉ e.inputs) :
    Solves formulas (done ++ [d]) values out ↔ ∃ w, Solves formulas done values w ∧
      ∃ formula v, formulas.get? d.formula = some formula ∧ formula.apply (d.arguments w) = .ok v ∧
        out = w.insert d.name v := by
  have hne : ∀ e ∈ done, e.name ≠ d.name := fun e he h => hname (h ▸ List.mem_map_of_mem he)
  have hd : d ∈ done ++ [d] := List.mem_append_right _ (List.mem_singleton_self d)
  -- The equations do not see whether the new field has a value.
  have hsame {w w' : Values} (h : ∀ name, name ≠ d.name → w'.get? name = w.get? name) :
      (∀ e ∈ done, e.Holds formulas w → e.Holds formulas w') ∧ d.arguments w' = d.arguments w := by
    have hother {e : DerivedField} (he : e ∈ done ++ [d]) :
        ∀ i ∈ e.inputs, w'.get? i = w.get? i :=
      fun i hi => h i fun hi' => hinputs e he (hi' ▸ hi)
    exact ⟨fun e he hholds => hholds.congr (h _ (hne e he)) (hother (List.mem_append_left _ he)),
      List.map_congr_left fun i hi => by rw [getD, getD, hother hd i hi]⟩
  constructor
  · rintro ⟨given, holds⟩
    obtain ⟨w, hw⟩ := out.exists_get?_eq d.name (values.get? d.name)
    obtain ⟨hdone, harguments⟩ := @hsame out w fun name hname => by rw [hw, if_neg hname]
    obtain ⟨formula, v, hformula, hv, hvalue⟩ := holds d hd
    refine ⟨w, ⟨fun name hnot => ?_, fun e he =>
      hdone e he (holds e (List.mem_append_left _ he))⟩, formula, v, hformula, ?_, ?_⟩
    · rw [hw]
      split
      · next h => rw [h]
      · next h => exact given name (by simpa [h] using hnot)
    · rw [harguments, hv]
    · refine ext_get? fun name => ?_
      rw [get?_insert, hw]
      split
      · next h => rw [h, hvalue]
      · rfl
  · rintro ⟨w, ⟨given, holds⟩, formula, v, hformula, hv, rfl⟩
    obtain ⟨hdone, harguments⟩ := @hsame w (w.insert d.name v) fun name hname => by
      rw [get?_insert, if_neg hname]
    refine ⟨fun name hnot => ?_, fun e he => ?_⟩
    · rw [List.map_append, List.mem_append, not_or, List.map_singleton, List.mem_singleton] at hnot
      rw [get?_insert, if_neg hnot.2, given name hnot.1]
    · rcases List.mem_append.1 he with he | he
      · exact hdone e he (holds e he)
      · rw [List.mem_singleton.1 he]
        exact ⟨formula, v, hformula, by rw [harguments, hv], get?_insert_self ..⟩

/-! ### Runs -/

namespace Compile

theorem InOrder.of_append {before after : List DerivedField}
    (h : InOrder fields (before ++ after)) : InOrder fields before := by
  rintro front d back rfl
  exact h front d (back ++ after) (by rw [List.append_assoc, List.cons_append])

/-- The last field is not among the inputs of any. -/
theorem InOrder.notMem_inputs (h : InOrder fields (done ++ [d])) (hd : d ∈ fields)
    (hname : d.name ∉ done.map (·.name)) : ∀ e ∈ done ++ [d], d.name ∉ e.inputs := by
  intro e he hinput
  have hbefore : d ∈ done := by
    rcases List.mem_append.1 he with he | he
    · obtain ⟨before, after, rfl⟩ := List.append_of_mem he
      exact List.mem_append_left _
        (h before e (after ++ [d]) (by rw [List.append_assoc, List.cons_append]) d hd hinput)
    · rw [List.mem_singleton.1 he] at hinput
      exact h done d [] rfl d hd hinput
  exact hname (List.mem_map_of_mem hbefore)

end Compile

open Compile

namespace RebuildPlan

variable {p : RebuildPlan}

/-- The number of inputs that a derived field passes on is right. -/
theorem evaluate_arguments {formula : Formula}
    (h : ∀ expected, formula.arity = some expected → expected = d.inputs.length) :
    formula.evaluate (d.arguments values) = formula.apply (d.arguments values) := by
  have hlength : (d.arguments values).length = d.inputs.length := List.length_map _
  unfold Formula.evaluate
  split
  · next expected harity => rw [hlength, h expected harity, if_pos rfl]
  · rfl

/-- One step of a run, if the field has a formula that takes its inputs. -/
theorem derive_eq {formula : Formula} (hget : p.formulas.get? d.formula = some formula)
    (harity : ∀ expected, formula.arity = some expected → expected = d.inputs.length) :
    p.derive w d = ((formula.apply (d.arguments w)).mapError (.formula d.name d.formula)).map
      (w.insert d.name) := by
  rw [← evaluate_arguments harity, derive]
  simp only [hget]
  show _ = ((formula.evaluate (d.inputs.map fun i => w.getD i .null)).mapError _).map _
  cases formula.evaluate (d.inputs.map fun i => w.getD i .null) <;> rfl

theorem derive_eq_ok_iff (hformula : d.HasFormula p.formulas) : p.derive w d = .ok out ↔
    ∃ formula v, p.formulas.get? d.formula = some formula ∧ formula.apply (d.arguments w) = .ok v ∧
      out = w.insert d.name v := by
  obtain ⟨formula, hget, harity⟩ := hformula
  rw [derive_eq hget harity, hget]
  simp only [Option.some.injEq, exists_and_left, exists_eq_left']
  cases formula.apply (d.arguments w) with
  | error fault => simp [Except.mapError, Except.map]
  | ok v => simp [Except.mapError, Except.map, eq_comm]

theorem exists_of_derive_eq_error {e : AggregationError} (hformula : d.HasFormula p.formulas)
    (h : p.derive w d = .error e) : ∃ formula fault, p.formulas.get? d.formula = some formula ∧
      formula.apply (d.arguments w) = .error fault ∧ e = .formula d.name d.formula fault := by
  obtain ⟨formula, hget, harity⟩ := hformula
  rw [derive_eq hget harity] at h
  cases hv : formula.apply (d.arguments w) with
  | error fault =>
    rw [hv] at h
    exact ⟨formula, fault, hget, hv, (Except.error.inj h).symm⟩
  | ok v =>
    rw [hv] at h
    cases h

/-- **A whole run** leaves exactly what solves the equations of its fields. -/
theorem foldlM_derive_eq_ok_iff (hnames : (derived.map (·.name)).Nodup)
    (hfields : ∀ d ∈ derived, d ∈ fields) (horder : InOrder fields derived)
    (hformulas : ∀ d ∈ derived, d.HasFormula p.formulas) :
    derived.foldlM p.derive values = .ok out ↔ Solves p.formulas derived values out := by
  -- From the end of the run, as no field before the last one reads its value.
  induction derived using List.reverseRecOn generalizing out with
  | nil =>
    constructor
    · intro h
      cases h
      exact ⟨fun _ _ => rfl, by simp⟩
    · rintro ⟨given, -⟩
      rw [ext_get? fun name => (given name List.not_mem_nil).symm]
      rfl
  | append_singleton done d ih =>
    have hd : d ∈ done ++ [d] := List.mem_append_right _ (List.mem_singleton_self d)
    rw [List.map_append, List.nodup_append'] at hnames
    have hname : d.name ∉ done.map (·.name) :=
      fun h => hnames.2.2 h (List.mem_singleton_self d.name)
    have ih := fun out => @ih out hnames.1 (fun e he => hfields e (List.mem_append_left _ he))
      horder.of_append fun e he => hformulas e (List.mem_append_left _ he)
    rw [List.foldlM_append_eq_ok,
      solves_concat_iff hname (horder.notMem_inputs (hfields d hd) hname)]
    refine exists_congr fun w => and_congr (ih w) ?_
    rw [List.foldlM_cons, Except.bind_eq_ok, ← derive_eq_ok_iff (hformulas d hd)]
    constructor
    · rintro ⟨out', hout, h⟩
      cases h
      exact hout
    · exact fun hout => ⟨out, hout, rfl⟩

/-- **A run ends at a formula that has no value** for the inputs that it has been given. -/
def EndsAtFormula (p : RebuildPlan) (values : Values) (e : AggregationError) : Prop :=
  ∃ before d after w formula fault, p.derived = before ++ d :: after ∧
    before.foldlM p.derive values = .ok w ∧ p.formulas.get? d.formula = some formula ∧
    formula.apply (d.arguments w) = .error fault ∧ e = .formula d.name d.formula fault

/-- **No step of a run is at a loss**: whichever derived field is reached, there is a value for each of
its inputs, and a formula that takes as many. -/
def NeverAtLoss (p : RebuildPlan) (values : Values) : Prop :=
  ∀ before d after w, p.derived = before ++ d :: after →
    before.foldlM p.derive values = .ok w →
      (∀ i ∈ d.inputs, ∃ v, w.get? i = some v) ∧ d.HasFormula p.formulas

end RebuildPlan

/-! ### The order of declaration -/

section Schemas

variable {schema : RollupSchema} {catalog : Catalog}

theorem RollupSchema.names_perm (hperm : derived.Perm schema.derivedFields) :
    { schema with derivedFields := derived }.names.Perm schema.names :=
  (hperm.map _).append_left _

namespace RollupSchema.MakesSense

variable (h : schema.MakesSense catalog formulas)

include h

/-- No two derived fields share a name. -/
theorem nodup_derived : (schema.derivedFields.map (·.name)).Nodup :=
  (List.nodup_append'.1 h.names).2.1

/-- No field has the name of a derived field. -/
theorem notMem_derived {f : FieldSpec} (hf : f ∈ schema.fields) :
    f.name ∉ schema.derivedFields.map (·.name) :=
  (List.nodup_append'.1 h.names).2.2 (List.mem_map_of_mem hf)

theorem of_perm (hperm : derived.Perm schema.derivedFields) :
    { schema with derivedFields := derived }.MakesSense catalog formulas where
  grouped := h.grouped
  groupBy := h.groupBy
  names := (names_perm hperm).nodup_iff.2 h.names
  fields := h.fields
  derived := fun d hd => h.derived d (hperm.mem_iff.1 hd)
  inputs := fun d hd i hi => (names_perm hperm).mem_iff.2 (h.inputs d (hperm.mem_iff.1 hd) i hi)

end RollupSchema.MakesSense

end Schemas

namespace Compile

variable {schema : RollupSchema} {catalog : Catalog} {p : RebuildPlan}

theorem acyclic_of_perm (hperm : derived.Perm derived') (h : Acyclic derived') : Acyclic derived := by
  have hdepends : Depends derived = Depends derived' := by
    funext d e
    rw [Depends, Depends, hperm.mem_iff, hperm.mem_iff]
  unfold Acyclic
  rwa [hdepends]

/-- The schemas that are accepted, and their plans. -/
theorem compile_eq_ok_iff_acyclic : compile schema catalog formulas = .ok p ↔
    schema.MakesSense catalog formulas ∧ Acyclic schema.derivedFields ∧
      p = ⟨schema, schema.groupBy, evaluationOrder schema.derivedFields, formulas⟩ := by
  rw [compile_eq_ok_iff]
  refine and_congr_right fun hsense => ?_
  have hnodup : schema.derivedFields.Nodup := .of_map _ hsense.nodup_derived
  simp only [sortDerived_eq_ok_iff hnodup, and_assoc, exists_and_left, exists_eq_left]

theorem exists_compile_of_perm (hperm : derived.Perm schema.derivedFields)
    (h : ∃ p, compile schema catalog formulas = .ok p) :
    ∃ p, compile { schema with derivedFields := derived } catalog formulas = .ok p := by
  obtain ⟨p, hp⟩ := h
  obtain ⟨hsense, hacyclic, -⟩ := compile_eq_ok_iff_acyclic.1 hp
  exact ⟨_, compile_eq_ok_iff_acyclic.2
    ⟨hsense.of_perm hperm, acyclic_of_perm hperm hacyclic, rfl⟩⟩

/-- **The order of declaration does not matter to the compiler.** -/
theorem exists_compile_perm_iff (hperm : derived.Perm schema.derivedFields) :
    (∃ p, compile schema catalog formulas = .ok p) ↔
      ∃ p, compile { schema with derivedFields := derived } catalog formulas = .ok p := by
  constructor
  · exact exists_compile_of_perm hperm
  · intro h
    exact (exists_compile_of_perm hperm.symm h :)

end Compile

namespace RebuildPlan

variable {schema : RollupSchema} {catalog : Catalog} {p : RebuildPlan}

/-- What a compiled plan has from its schema. -/
structure CompiledFrom (p : RebuildPlan) (schema : RollupSchema) (catalog : Catalog)
    (formulas : FormulaTable) : Prop where
  sense : schema.MakesSense catalog formulas
  formulas : p.formulas = formulas
  /-- The derived fields are those of the schema. -/
  perm : p.derived.Perm schema.derivedFields
  /-- Each one comes after those that it depends on. -/
  inOrder : InOrder schema.derivedFields p.derived

theorem compiledFrom_of_compile (h : compile schema catalog formulas = .ok p) :
    p.CompiledFrom schema catalog formulas := by
  obtain ⟨hsense, hacyclic, rfl⟩ := compile_eq_ok_iff_acyclic.1 h
  have hnodup : schema.derivedFields.Nodup := .of_map _ hsense.nodup_derived
  exact ⟨hsense, rfl, evaluationOrder_perm hnodup hacyclic, inOrder_evaluationOrder hnodup⟩

namespace CompiledFrom

variable (h : p.CompiledFrom schema catalog formulas)

include h

theorem nodup_names : (p.derived.map (·.name)).Nodup :=
  (h.perm.map _).nodup_iff.2 h.sense.nodup_derived

theorem hasFormula (hd : d ∈ p.derived) : d.HasFormula p.formulas := by
  rw [h.formulas]
  exact h.sense.derived d (h.perm.mem_iff.1 hd)

/-- A run up to some field leaves what solves the equations so far. -/
theorem foldlM_eq_ok_iff {before after : List DerivedField} (hderived : p.derived = before ++ after) :
    before.foldlM p.derive values = .ok w ↔ Solves formulas before values w := by
  have hmem {d : DerivedField} (hd : d ∈ before) : d ∈ p.derived :=
    hderived ▸ List.mem_append_left _ hd
  have hnames := h.nodup_names
  have horder := h.inOrder
  rw [hderived] at hnames horder
  rw [List.map_append] at hnames
  rw [← h.formulas]
  exact foldlM_derive_eq_ok_iff (List.nodup_append'.1 hnames).1
    (fun d hd => h.perm.mem_iff.1 (hmem hd)) horder.of_append fun d hd => h.hasFormula (hmem hd)

/-- **A compiled plan** leaves exactly what solves the equations of the schema. -/
theorem finalize_eq_ok_iff :
    p.finalize values = .ok out ↔ Solves formulas schema.derivedFields values out := by
  rw [← solves_iff_of_perm h.perm]
  exact h.foldlM_eq_ok_iff (List.append_nil _).symm

/-- **A compiled plan is never at a loss**, given a value for each field. -/
theorem neverAtLoss (hvalues : ∀ f ∈ schema.fields, ∃ v, values.get? f.name = some v) :
    p.NeverAtLoss values := by
  intro before d after w hderived hw
  have hsolves := (h.foldlM_eq_ok_iff hderived).1 hw
  have hd : d ∈ p.derived := by simp [hderived]
  refine ⟨fun i hi => ?_, h.hasFormula hd⟩
  rcases List.mem_append.1 (h.sense.inputs d (h.perm.mem_iff.1 hd) i hi) with hi' | hi'
  · -- A field is none of the derived ones, so its value is as given.
    obtain ⟨f, hf, rfl⟩ := List.mem_map.1 hi'
    have hnot : f.name ∉ before.map (·.name) := by
      intro hin
      refine h.sense.notMem_derived hf ((h.perm.map _).mem_iff.1 ?_)
      rw [hderived, List.map_append]
      exact List.mem_append_left _ hin
    rw [hsolves.given f.name hnot]
    exact hvalues f hf
  · obtain ⟨e, he, rfl⟩ := List.mem_map.1 hi'
    obtain ⟨_, v, -, -, hv⟩ := hsolves.holds e (h.inOrder before d after hderived e he hi)
    exact ⟨v, hv⟩

/-- A run that fails, fails at a formula. -/
theorem endsAtFormula {e : AggregationError} (hfail : p.finalize values = .error e) :
    p.EndsAtFormula values e := by
  obtain ⟨before, d, after, w, hderived, hw, hd⟩ := List.foldlM_eq_error.1 hfail
  obtain ⟨formula, fault, hformula, hfault, rfl⟩ :=
    exists_of_derive_eq_error (h.hasFormula (by simp [hderived])) hd
  exact ⟨before, d, after, w, formula, fault, hderived, hw, hformula, hfault, rfl⟩

end CompiledFrom

/-- **The order of declaration does not matter.**  The compiler accepts a schema with its derived
fields in any order or in none.  Whatever the order, values for all fields lead to the same values of
the derived fields, those that solve their equations with the given ones, or a formula has no value;
and no run is ever at a loss. -/
theorem finalize_perm (schema : RollupSchema) (catalog : Catalog) (formulas : FormulaTable)
    {derived : List DerivedField} (hperm : derived.Perm schema.derivedFields) :
    ((∃ p, compile schema catalog formulas = .ok p) ↔
      ∃ p, compile { schema with derivedFields := derived } catalog formulas = .ok p) ∧
    ∀ p p', compile schema catalog formulas = .ok p →
      compile { schema with derivedFields := derived } catalog formulas = .ok p' →
      ∀ values : Values, (∀ f ∈ schema.fields, ∃ v, values.get? f.name = some v) →
        p.NeverAtLoss values ∧ p'.NeverAtLoss values ∧
        ((∃ out, p.finalize values = .ok out ∧ p'.finalize values = .ok out ∧
            Solves formulas schema.derivedFields values out ∧
            ∀ f ∈ schema.fields, out.get? f.name = values.get? f.name) ∨
          ∃ e e', p.finalize values = .error e ∧ p'.finalize values = .error e' ∧
            p.EndsAtFormula values e ∧ p'.EndsAtFormula values e') := by
  refine ⟨exists_compile_perm_iff hperm, fun p p' hp hp' values hvalues => ?_⟩
  have h := compiledFrom_of_compile hp
  have h' := compiledFrom_of_compile hp'
  refine ⟨h.neverAtLoss hvalues, h'.neverAtLoss hvalues, ?_⟩
  -- The equations have one solution at most, and the order of the fields plays no part in them.
  have hsame (out : Values) : p.finalize values = .ok out ↔ p'.finalize values = .ok out := by
    rw [h.finalize_eq_ok_iff, h'.finalize_eq_ok_iff, solves_iff_of_perm hperm]
  cases hout : p.finalize values with
  | ok out =>
    have hsolves := h.finalize_eq_ok_iff.1 hout
    exact .inl ⟨out, rfl, (hsame out).1 hout, hsolves,
      fun f hf => hsolves.given f.name (h.sense.notMem_derived hf)⟩
  | error e =>
    cases hout' : p'.finalize values with
    | ok out =>
      rw [(hsame out).2 hout'] at hout
      cases hout
    | error e' => exact .inr ⟨e, e', rfl, rfl, h.endsAtFormula hout, h'.endsAtFormula hout'⟩

/-- A margin that is declared before what it is the difference of. -/
def marginFields : List DerivedField :=
  [⟨"margin", "difference", ["gross", "cost"]⟩, ⟨"gross", "sum", ["revenue", "revenue"]⟩,
    ⟨"cost", "sum", ["revenue"]⟩]

/-- The revenue of a group. -/
def halfRevenue : Values := .ofList [("revenue", .amount (.ofCents 50))]

/-- Declared the other way round, the fields are computed in another order. -/
theorem finalize_marginFields : marginFields.reverse.Perm (revenueSchema marginFields).derivedFields ∧
    ∃ p p' out, compile (revenueSchema marginFields) priceCatalog .builtins = .ok p ∧
      compile (revenueSchema marginFields.reverse) priceCatalog .builtins = .ok p' ∧
      p.derived.map (·.name) = ["gross", "cost", "margin"] ∧
      p'.derived.map (·.name) = ["cost", "gross", "margin"] ∧
      p.finalize halfRevenue = .ok out ∧ p'.finalize halfRevenue = .ok out ∧
      out.get? "margin" = some (.amount (.ofCents 50)) := by
  have hperm : marginFields.reverse.Perm (revenueSchema marginFields).derivedFields :=
    List.reverse_perm marginFields
  obtain ⟨p, hp, horder, hout⟩ : ∃ p,
      compile (revenueSchema marginFields) priceCatalog .builtins = .ok p ∧
      p.derived.map (·.name) = ["gross", "cost", "margin"] ∧
      ((p.finalize halfRevenue).toOption.bind fun out => out.get? "margin") =
        some (.amount (.ofCents 50)) := Except.exists_ok (by decide +kernel)
  obtain ⟨p', hp', horder'⟩ : ∃ p',
      compile (revenueSchema marginFields.reverse) priceCatalog .builtins = .ok p' ∧
      p'.derived.map (·.name) = ["cost", "gross", "margin"] := Except.exists_ok (by decide +kernel)
  have hvalues : ∀ f ∈ (revenueSchema marginFields).fields, ∃ v, halfRevenue.get? f.name = some v := by
    intro f hf
    rw [List.mem_singleton.1 hf]
    exact ⟨_, rfl⟩
  obtain ⟨-, hfinal⟩ := finalize_perm (revenueSchema marginFields) priceCatalog .builtins hperm
  obtain ⟨-, -, hruns⟩ := hfinal p p' hp hp' halfRevenue hvalues
  rcases hruns with ⟨out, h, h', -⟩ | ⟨e, -, h, -⟩
  · rw [h] at hout
    exact ⟨hperm, p, p', out, hp, hp', horder, horder', h, h', hout⟩
  · rw [h] at hout
    cases hout

end RebuildPlan

end RetailReport
