import RetailReport.Proofs.Rollup.Derived

/-!
# What a projection rests on

A shown field rests on the aggregated fields that its formula reads, or that the formulas of its inputs
read, and so on to any depth.  These fields can be found by a search with a stack of names that are
still to be looked at, which marks each name that it has looked at: it comes to an end even where
derived fields refer to each other, since it follows the inputs of each of them once.

The derived fields of a plan come after those that they refer to, so that one pass from the last one
to the first finds the same fields.

## Main definitions

* `RestsOn`: a field rests on an aggregated field.
* `Closure.search`: the search.
* `Closure.Searching`: what holds at any time of it.

## Main results

* `Closure.Searching.mem_search_iff`: **the search finds what the projection rests on.**
* `RebuildPlan.mem_requiredFields_iff`: so does the pass over the fields of a compiled plan.
* `RebuildPlan.search_eq_requiredFields`: the search and the pass find the same fields.
-/

namespace RetailReport

/-- **A field rests on an aggregated field**: it is this field, or one of its inputs rests on it. -/
inductive RestsOn (derived : List DerivedField) : String → String → Prop where
  /-- What is not derived rests on itself. -/
  | base {name : String} (h : name ∉ derived.map (·.name)) : RestsOn derived name name
  /-- A derived field rests on what its inputs rest on. -/
  | input {d : DerivedField} {i name : String} (hd : d ∈ derived) (hi : i ∈ d.inputs)
      (h : RestsOn derived i name) : RestsOn derived d.name name

/-- Fields of a projection rest on an aggregated field. -/
def SomeRestsOn (derived : List DerivedField) (projection : List String) (name : String) : Prop :=
  ∃ shown ∈ projection, RestsOn derived shown name

variable {derived after : List DerivedField} {d : DerivedField} {projection stack : List String}
  {visited required : KeySet String} {name shown : String}

/-- Nothing rests on a derived field. -/
theorem RestsOn.notMem (h : RestsOn derived shown name) : name ∉ derived.map (·.name) := by
  induction h with
  | base h => exact h
  | input _ _ _ ih => exact ih

theorem RestsOn.eq_of_notMem (h : RestsOn derived shown name)
    (hshown : shown ∉ derived.map (·.name)) : shown = name := by
  cases h with
  | base _ => rfl
  | input hd _ _ => exact absurd (List.mem_map_of_mem hd) hshown

/-- A field that rests on another one is among names that have all inputs among them. -/
theorem RestsOn.mem_of_closed {names : List String} (h : RestsOn derived shown name)
    (hclosed : ∀ d ∈ derived, ∀ i ∈ d.inputs, i ∈ names) (hshown : shown ∈ names) :
    name ∈ names := by
  induction h with
  | base _ => exact hshown
  | input hd hi _ ih => exact ih (hclosed _ hd _ hi)

namespace Closure

/-! ### The search -/

/-- How many derived fields a search has not looked at. -/
def unvisited (derived : List DerivedField) (visited : KeySet String) : Nat :=
  derived.countP fun d => !visited.contains d.name

theorem unvisited_add_le (derived : List DerivedField) (visited : KeySet String) (name : String) :
    unvisited derived (visited.add name) ≤ unvisited derived visited := by
  refine List.countP_mono_left fun d _ hd => ?_
  rw [Bool.not_eq_true', ← Bool.not_eq_true, KeySet.contains_iff, KeySet.mem_add, not_or] at hd
  rw [Bool.not_eq_true', ← Bool.not_eq_true, KeySet.contains_iff]
  exact hd.2

theorem unvisited_add_lt (hd : d ∈ derived) (h : visited.contains d.name = false) :
    unvisited derived (visited.add d.name) < unvisited derived visited := by
  obtain ⟨before, after, rfl⟩ := List.append_of_mem hd
  have hbefore := unvisited_add_le before visited d.name
  have hafter := unvisited_add_le after visited d.name
  have hseen : (visited.add d.name).contains d.name = true :=
    KeySet.contains_iff.2 (KeySet.mem_add.2 (.inl rfl))
  unfold unvisited at hbefore hafter ⊢
  simp only [List.countP_append, List.countP_cons, hseen, h, Bool.not_true, Bool.not_false,
    Bool.false_eq_true, if_true, if_false]
  omega

/-- **The search**: each name on the stack that has not been looked at is replaced by its inputs, if it
is derived, and found to be required otherwise.  A name that is followed is not looked at again, so it
ends for any fields, whether or not they are in order. -/
def search (derived : List DerivedField) :
    (stack : List String) → (visited required : KeySet String) → KeySet String
  | [], _, required => required
  | name :: stack, visited, required =>
    if _ : visited.contains name = true then search derived stack visited required
    else
      match _ : derived.find? fun d => d.name == name with
      | some d => search derived (d.inputs.reverse ++ stack) (visited.add name) required
      | none => search derived stack (visited.add name) (required.add name)
termination_by stack visited => (unvisited derived visited, stack.length)
decreasing_by
  · exact Prod.Lex.right _ (Nat.lt_succ_self _)
  · next hvisited hfind =>
    obtain rfl : d.name = name := eq_of_beq (List.find?_some hfind :)
    exact Prod.Lex.left _ _
      (unvisited_add_lt (List.mem_of_find?_eq_some hfind) (Bool.eq_false_iff.2 hvisited))
  · rcases Nat.lt_or_eq_of_le (unvisited_add_le derived visited name) with hlt | heq
    · exact Prod.Lex.left _ _ hlt
    · rw [heq]
      exact Prod.Lex.right _ (Nat.lt_succ_self _)

/-- **What holds at any time of a search.** -/
structure Searching (derived : List DerivedField) (projection stack : List String)
    (visited required : KeySet String) : Prop where
  /-- What the names on the stack rest on, the projection rests on. -/
  pending : ∀ s ∈ stack, ∀ name, RestsOn derived s name → SomeRestsOn derived projection name
  /-- What has been found, the projection rests on. -/
  found : ∀ name ∈ required.members, SomeRestsOn derived projection name
  /-- The names of the projection have been looked at or are on the stack. -/
  shown : ∀ s ∈ projection, s ∈ visited.members ∨ s ∈ stack
  /-- So are the inputs of each field that has been looked at. -/
  inputs : ∀ d ∈ derived, d.name ∈ visited.members → ∀ i ∈ d.inputs, i ∈ visited.members ∨ i ∈ stack
  /-- Each aggregated field that has been looked at has been found. -/
  aggregated : ∀ name ∈ visited.members, name ∉ derived.map (·.name) → name ∈ required.members

namespace Searching

theorem start (derived : List DerivedField) (projection : List String) :
    Searching derived projection projection.reverse .empty .empty where
  pending s hs name h := ⟨s, List.mem_reverse.1 hs, h⟩
  found _ h := by cases h
  shown _ h := .inr (List.mem_reverse.2 h)
  inputs _ _ h := by cases h
  aggregated _ h := by cases h

/-- Of what has been looked at or is on the stack, nothing is lost when a name is passed over. -/
theorem covered_of_skip {i : String} (hname : name ∈ visited.members)
    (h : i ∈ visited.members ∨ i ∈ name :: stack) : i ∈ visited.members ∨ i ∈ stack := by
  rcases h with hseen | hstack
  · exact .inl hseen
  · rcases List.mem_cons.1 hstack with rfl | hstack
    · exact .inl hname
    · exact .inr hstack

/-- Nor when a name is looked at. -/
theorem covered_of_look {i : String} (more : List String)
    (h : i ∈ visited.members ∨ i ∈ name :: stack) :
    i ∈ (visited.add name).members ∨ i ∈ more ++ stack := by
  have hname : name ∈ (visited.add name).members := KeySet.mem_add.2 (.inl rfl)
  have hall : i ∈ (visited.add name).members ∨ i ∈ name :: stack :=
    h.imp_left fun hseen => KeySet.mem_add.2 (.inr hseen)
  exact (covered_of_skip hname hall).imp_right (List.mem_append_right more)

/-- **A name that has been looked at** is passed over. -/
theorem skip (h : Searching derived projection (name :: stack) visited required)
    (hname : name ∈ visited.members) : Searching derived projection stack visited required where
  pending s hs := h.pending s (List.mem_cons_of_mem _ hs)
  found := h.found
  shown s hs := covered_of_skip hname (h.shown s hs)
  inputs d hd hseen i hi := covered_of_skip hname (h.inputs d hd hseen i hi)
  aggregated := h.aggregated

/-- **A derived field** is followed to its inputs. -/
theorem follow (hnames : (derived.map (·.name)).Nodup) (hd : d ∈ derived)
    (h : Searching derived projection (d.name :: stack) visited required) :
    Searching derived projection (d.inputs.reverse ++ stack) (visited.add d.name) required where
  pending s hs name hrests := by
    rcases List.mem_append.1 hs with hs | hs
    · exact h.pending d.name List.mem_cons_self name (.input hd (List.mem_reverse.1 hs) hrests)
    · exact h.pending s (List.mem_cons_of_mem _ hs) name hrests
  found := h.found
  shown s hs := covered_of_look _ (h.shown s hs)
  inputs e he hseen i hi := by
    rcases KeySet.mem_add.1 hseen with heq | hseen
    · obtain rfl := List.inj_on_of_nodup_map hnames he hd heq
      exact .inr (List.mem_append_left _ (List.mem_reverse.2 hi))
    · exact covered_of_look _ (h.inputs e he hseen i hi)
  aggregated name hname hbase := by
    rcases KeySet.mem_add.1 hname with rfl | hname
    · exact absurd (List.mem_map_of_mem hd) hbase
    · exact h.aggregated name hname hbase

/-- **An aggregated field** is found. -/
theorem find (hname : name ∉ derived.map (·.name))
    (h : Searching derived projection (name :: stack) visited required) :
    Searching derived projection stack (visited.add name) (required.add name) where
  pending s hs := h.pending s (List.mem_cons_of_mem _ hs)
  found other hother := by
    rcases KeySet.mem_add.1 hother with rfl | hother
    · exact h.pending other List.mem_cons_self other (.base hname)
    · exact h.found other hother
  shown s hs := covered_of_look [] (h.shown s hs)
  inputs e he hseen i hi := by
    rcases KeySet.mem_add.1 hseen with rfl | hseen
    · exact absurd (List.mem_map_of_mem he) hname
    · exact covered_of_look [] (h.inputs e he hseen i hi)
  aggregated other hother hbase := by
    rcases KeySet.mem_add.1 hother with rfl | hother
    · exact KeySet.mem_add.2 (.inl rfl)
    · exact KeySet.mem_add.2 (.inr (h.aggregated other hother hbase))

/-- In the end, everything that a name rests on has been found. -/
theorem mem_required (h : Searching derived projection [] visited required)
    (hrests : RestsOn derived shown name) (hshown : shown ∈ visited.members) :
    name ∈ required.members := by
  induction hrests with
  | base hname => exact h.aggregated _ hshown hname
  | input hd hi _ ih => exact ih ((h.inputs _ hd hshown _ hi).resolve_right List.not_mem_nil)

/-- **The search finds what the projection rests on.** -/
theorem mem_search_iff (hnames : (derived.map (·.name)).Nodup)
    (h : Searching derived projection stack visited required) :
    name ∈ (search derived stack visited required).members ↔
      SomeRestsOn derived projection name := by
  fun_induction search derived stack visited required with
  | case1 visited required =>
    refine ⟨h.found name, ?_⟩
    rintro ⟨shown, hshown, hrests⟩
    exact h.mem_required hrests ((h.shown shown hshown).resolve_right List.not_mem_nil)
  | case2 other stack visited required hvisited ih =>
    exact ih (h.skip (KeySet.contains_iff.1 hvisited))
  | case3 other stack visited required _ d hfind ih =>
    obtain rfl : d.name = other := eq_of_beq (List.find?_some hfind :)
    exact ih (h.follow hnames (List.mem_of_find?_eq_some hfind))
  | case4 other stack visited required _ hfind ih =>
    refine ih (h.find fun hmem => ?_)
    obtain ⟨d, hd, rfl⟩ := List.mem_map.1 hmem
    exact List.find?_eq_none.1 hfind d hd (beq_self_eq_true d.name)

end Searching

end Closure

/-! ### The pass -/

namespace RebuildPlan

/-- One more field in front, which none of its inputs nor of the other names is: a field rests on what
it rests on without it, and on what the inputs are if it rests on the new one. -/
theorem restsOn_cons_iff (hname : d.name ∉ after.map (·.name))
    (hinputs : ∀ i ∈ d.inputs, i ∉ (d :: after).map (·.name)) :
    RestsOn (d :: after) shown name ↔ (RestsOn after shown name ∧ name ≠ d.name) ∨
      (RestsOn after shown d.name ∧ name ∈ d.inputs) := by
  constructor
  · intro h
    induction h with
    | @base name h =>
      rw [List.map_cons, List.mem_cons, not_or] at h
      exact .inl ⟨.base h.2, h.1⟩
    | @input e i name he hi h ih =>
      rcases List.mem_cons.1 he with rfl | he
      · -- The inputs of the new field are aggregated ones.
        obtain rfl := h.eq_of_notMem (hinputs i hi)
        exact .inr ⟨.base hname, hi⟩
      · exact ih.imp (fun ⟨h, hne⟩ => ⟨.input he hi h, hne⟩) fun ⟨h, hi'⟩ => ⟨.input he hi h, hi'⟩
  · rintro (⟨h, hne⟩ | ⟨h, hi⟩)
    · induction h with
      | @base name h =>
        refine .base ?_
        rw [List.map_cons, List.mem_cons, not_or]
        exact ⟨hne, h⟩
      | input he hi _ ih => exact .input (List.mem_cons_of_mem _ he) hi (ih hne)
    · generalize htarget : d.name = target at h
      induction h with
      | @base target _ =>
        obtain rfl := htarget
        exact .input List.mem_cons_self hi (.base (hinputs name hi))
      | input he hi' _ ih => exact .input (List.mem_cons_of_mem _ he) hi' (ih htarget)

theorem mem_neededBefore_iff {needed : KeySet String} :
    name ∈ (neededBefore d needed).members ↔ (name ∈ needed.members ∧ name ≠ d.name) ∨
      (d.name ∈ needed.members ∧ name ∈ d.inputs) := by
  unfold neededBefore
  split
  · next h =>
    rw [KeySet.contains_iff] at h
    rw [mem_foldl_add, KeySet.members, SortedMap.mem_keys_erase]
    simp only [h, true_and]
    rw [or_comm, and_comm]
    rfl
  · next h =>
    rw [KeySet.contains_iff] at h
    simp only [h, false_and, or_false]
    exact ⟨fun hname => ⟨hname, fun heq => h (heq ▸ hname)⟩, And.left⟩

/-- **Fields in order**: none has a name among its own inputs or those of a field in front of it, and
none has the name of another one. -/
def Ordered : List DerivedField → Prop
  | [] => True
  | d :: after => d.name ∉ after.map (·.name) ∧ (∀ i ∈ d.inputs, i ∉ (d :: after).map (·.name)) ∧
      Ordered after

/-- A pass over fields in order finds what the projection rests on. -/
theorem mem_foldr_neededBefore_iff (h : Ordered derived) :
    name ∈ (derived.foldr neededBefore (KeySet.ofList projection)).members ↔
      SomeRestsOn derived projection name := by
  induction derived generalizing name with
  | nil =>
    rw [List.foldr_nil, KeySet.mem_ofList]
    constructor
    · exact fun hname => ⟨name, hname, .base List.not_mem_nil⟩
    · rintro ⟨shown, hshown, hrests⟩
      rwa [← hrests.eq_of_notMem List.not_mem_nil]
  | cons d after ih =>
    obtain ⟨hname, hinputs, hafter⟩ := h
    rw [List.foldr_cons, mem_neededBefore_iff, ih hafter, ih hafter]
    unfold SomeRestsOn
    simp only [restsOn_cons_iff hname hinputs, and_or_left, exists_or, exists_and_right, ← and_assoc]

variable {p : RebuildPlan} {schema : RollupSchema} {catalog : Catalog} {formulas : FormulaTable}

theorem ordered_of_inOrder {fields : List DerivedField} (hfields : ∀ e ∈ derived, e ∈ fields)
    (hnames : (derived.map (·.name)).Nodup) (horder : Compile.InOrder fields derived) :
    Ordered derived := by
  suffices ∀ before after, derived = before ++ after → Ordered after from this [] derived rfl
  intro before after
  induction after generalizing before with
  | nil => exact fun _ => trivial
  | cons d after ih =>
    intro heq
    have hsplit := hnames
    rw [heq, List.map_append, List.nodup_append'] at hsplit
    refine ⟨(List.nodup_cons.1 hsplit.2.1).1, fun i hi hmem => ?_, ih (before ++ [d]) (by simp [heq])⟩
    obtain ⟨e, he, rfl⟩ := List.mem_map.1 hmem
    -- An input that is derived comes before the field, and so not behind it as well.
    have hbefore : e ∈ before := horder before d after heq e
      (hfields e (heq ▸ List.mem_append_right _ he)) hi
    exact hsplit.2.2 (List.mem_map_of_mem hbefore) (List.mem_map_of_mem he)

namespace CompiledFrom

variable (h : p.CompiledFrom schema catalog formulas)

include h

theorem ordered : Ordered p.derived :=
  ordered_of_inOrder (fun _ he => h.perm.mem_iff.1 he) h.nodup_names h.inOrder

end CompiledFrom

/-- **The pass over the fields of a compiled plan finds what the projection rests on.** -/
theorem mem_requiredFields_iff (h : p.CompiledFrom schema catalog formulas) (hshown : projection ≠ []) :
    name ∈ (p.requiredFields projection).members ↔ SomeRestsOn p.derived projection name := by
  rw [requiredFields_eq_foldr p (List.isEmpty_eq_false_iff.2 hshown)]
  exact mem_foldr_neededBefore_iff h.ordered

/-- **The search and the pass find the same fields.** -/
theorem search_eq_requiredFields (h : p.CompiledFrom schema catalog formulas)
    (hshown : projection ≠ []) :
    Closure.search p.derived projection.reverse .empty .empty = p.requiredFields projection := by
  refine KeySet.ext_mem fun name => ?_
  rw [(Closure.Searching.start p.derived projection).mem_search_iff h.nodup_names,
    mem_requiredFields_iff h hshown]

end RebuildPlan

end RetailReport
