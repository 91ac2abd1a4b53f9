import Mathlib.Data.Fintype.Card
import Mathlib.Data.List.Perm.Subperm
import Mathlib.Data.Set.Finite.List
import Mathlib.Logic.Relation
import RetailReport.Rollup.Compile

/-!
# The order of derived fields

Derived fields are placed one after the other, and each of them counts how many of its inputs have not
been placed yet.  What the counts are for is that at any time a field has been placed or queued exactly
if all its inputs have been placed; so a field that is left in the end has an input that is left, and
as there are only finitely many fields, it leads into a cycle.

## Main definitions

* `Compile.Depends`: one derived field has another one among its inputs.
* `Compile.OnOrBehindCycle`: a derived field refers to itself, or to fields that do.
* `Compile.InOrder`: each field comes after those that it depends on.
* `Compile.Placing`: what holds at any time.

## Main results

* `Compile.Placing.step`, `Compile.Placing.run`: each step keeps it, and so does the whole run.
* `Compile.mem_evaluationOrder_iff`: exactly the fields in front of all cycles are placed.
* `Compile.sorted_of_sortDerived`, `Compile.reported_of_sortDerived`: what comes of the derived fields.
-/

namespace RetailReport.Compile

open Relation

/-! ### Dependencies -/

/-- **A derived field depends on another one** that is among its inputs. -/
def Depends (fields : List DerivedField) (d e : DerivedField) : Prop :=
  d ∈ fields ∧ e ∈ fields ∧ e.name ∈ d.inputs

/-- **A derived field is on a cycle**, or depends on one that is, directly or indirectly. -/
def OnOrBehindCycle (fields : List DerivedField) (d : DerivedField) : Prop :=
  ∃ e, ReflTransGen (Depends fields) d e ∧ TransGen (Depends fields) e e

/-- **There is no cycle.** -/
def Acyclic (fields : List DerivedField) : Prop := ∀ d, ¬TransGen (Depends fields) d d

/-- **Each field comes after those that it depends on.** -/
def InOrder (fields order : List DerivedField) : Prop :=
  ∀ before d after, order = before ++ d :: after → ∀ e ∈ fields, e.name ∈ d.inputs → e ∈ before

/-- All derived fields among the inputs of a field have been placed. -/
def Ready (fields placed : List DerivedField) (d : DerivedField) : Prop :=
  ∀ e ∈ fields, e.name ∈ d.inputs → e ∈ placed

variable {fields order queue placed : List DerivedField} {waiting : List WaitingField}
  {d e : DerivedField}

theorem mem_of_transGen (h : TransGen (Depends fields) d e) : d ∈ fields := by
  obtain ⟨_, hdepends, -⟩ := TransGen.head'_iff.1 h
  exact hdepends.1

/-- Whatever a placed field depends on, directly or indirectly, has been placed before it. -/
theorem InOrder.mem_before (h : InOrder fields order) (hdepends : TransGen (Depends fields) d e) :
    ∀ before after, order = before ++ d :: after → e ∈ before := by
  induction hdepends using TransGen.head_induction_on with
  | single hdepends =>
    intro before after horder
    exact h before _ after horder e hdepends.2.1 hdepends.2.2
  | @head d c hdepends _ ih =>
    intro before after horder
    have hc : c ∈ before := h before d after horder c hdepends.2.1 hdepends.2.2
    obtain ⟨front, back, rfl⟩ := List.append_of_mem hc
    have he : e ∈ front := ih front (back ++ d :: after) (by simp [horder])
    exact List.mem_append_left _ he

/-- Fields in order are not on a cycle, nor do they depend on one. -/
theorem InOrder.not_onOrBehindCycle (h : InOrder fields order) (hnodup : order.Nodup)
    (hd : d ∈ order) : ¬OnOrBehindCycle fields d := by
  rintro ⟨c, hreach, hcycle⟩
  have hc : c ∈ order := by
    rcases reflTransGen_iff_eq_or_transGen.1 hreach with rfl | hreach
    · exact hd
    · obtain ⟨before, after, rfl⟩ := List.append_of_mem hd
      exact List.mem_append_left _ (h.mem_before hreach before after rfl)
  obtain ⟨before, after, rfl⟩ := List.append_of_mem hc
  have hbefore : c ∈ before := h.mem_before hcycle before after rfl
  exact List.disjoint_of_nodup_append hnodup hbefore List.mem_cons_self

/-- A field in front of all cycles is placed, if all fields whose inputs are placed are. -/
theorem mem_of_not_onOrBehindCycle (hclosed : ∀ d ∈ fields, Ready fields order d → d ∈ order)
    (hd : d ∈ fields) (h : ¬OnOrBehindCycle fields d) : d ∈ order := by
  -- Among the finitely many fields that the field leads to, to depend on another one is well-founded.
  let Below := { x // x ∈ fields ∧ ReflTransGen (Depends fields) d x }
  have : Finite Below :=
    (fields.finite_toSet.subset fun x (hx : x ∈ fields ∧ _) => hx.1).to_subtype
  let below (x y : Below) : Prop := TransGen (Depends fields) y.1 x.1
  have : IsTrans Below below := ⟨fun x y z hxy hyz => TransGen.trans hyz hxy⟩
  have : Std.Irrefl below := ⟨fun x hx => h ⟨x.1, x.2.2, hx⟩⟩
  have hplaced : ∀ x : Below, x.1 ∈ order := by
    intro x
    induction x using (Finite.wellFounded_of_trans_of_irrefl below).induction with
    | _ x ih =>
      refine hclosed x.1 x.2.1 fun y hy hinput => ?_
      have hdepends : Depends fields x.1 y := ⟨x.2.1, hy, hinput⟩
      exact ih ⟨y, hy, x.2.2.tail hdepends⟩ (TransGen.single hdepends)
  exact hplaced ⟨d, hd, .refl⟩

/-! ### Counts -/

/-- How many inputs of a field have not been placed yet. -/
def missing (fields placed : List DerivedField) (d : DerivedField) : Nat :=
  fields.countP fun e => d.inputs.contains e.name && !placed.contains e

theorem missing_eq_zero_iff : missing fields placed d = 0 ↔ Ready fields placed d := by
  simp [missing, Ready, List.countP_eq_zero]

/-- When a field is placed, it is no longer missing where it is an input. -/
theorem missing_concat (hnodup : fields.Nodup) (hd : d ∈ fields) (hnew : d ∉ placed) :
    missing fields (placed ++ [d]) e =
      if e.inputs.contains d.name then missing fields placed e - 1 else missing fields placed e := by
  have hother : ∀ l : List DerivedField, d ∉ l → missing l (placed ++ [d]) e = missing l placed e := by
    refine fun l hl => List.countP_congr fun x hx => ?_
    have hne : x ≠ d := fun h => hl (h ▸ hx)
    simp [hne]
  by_cases hinput : d.name ∈ e.inputs
  · rw [if_pos (List.contains_iff_mem.2 hinput)]
    obtain ⟨before, after, rfl⟩ := List.append_of_mem hd
    obtain ⟨-, hafter, hdisjoint⟩ := List.nodup_append'.1 hnodup
    have hbefore : d ∉ before := fun h => hdisjoint h List.mem_cons_self
    have hbeforeEq := hother before hbefore
    have hafterEq := hother after (List.nodup_cons.1 hafter).1
    unfold missing at hbeforeEq hafterEq ⊢
    rw [List.countP_append, List.countP_append, List.countP_cons, List.countP_cons, hbeforeEq,
      hafterEq]
    simp [hinput, hnew]
  · rw [if_neg (mt List.contains_iff_mem.1 hinput)]
    refine List.countP_congr fun x _ => ?_
    by_cases hx : x = d
    · subst hx
      simp [hinput]
    · simp [hx]

/-! ### The run -/

/-- **What holds at any time**, with some fields placed and others queued: fields wait for as many
inputs as are missing, a field is placed or queued exactly if all its inputs are placed, and it comes
after them. -/
structure Placing (fields queue : List DerivedField) (waiting : List WaitingField)
    (placed : List DerivedField) : Prop where
  /-- The counts are right. -/
  waiting : waiting = fields.map fun d => ⟨d, missing fields placed d⟩
  /-- No field is placed or queued twice. -/
  nodup : (placed ++ queue).Nodup
  /-- A field is placed or queued as soon as all its inputs are placed. -/
  mem_iff : ∀ d, d ∈ placed ++ queue ↔ d ∈ fields ∧ Ready fields placed d
  /-- Each placed field comes after those that it depends on. -/
  inOrder : InOrder fields placed

theorem InOrder.concat (h : InOrder fields placed) (hready : Ready fields placed d) :
    InOrder fields (placed ++ [d]) := by
  intro before x after horder
  rcases List.eq_nil_or_concat after with rfl | ⟨after, last, rfl⟩
  · obtain ⟨rfl, hx⟩ := List.append_inj' horder rfl
    obtain rfl := (List.cons.inj hx).1
    exact hready
  · rw [List.concat_eq_append, ← List.cons_append, ← List.append_assoc] at horder
    exact h before x after (List.append_inj' horder rfl).1

theorem Ready.concat (h : Ready fields placed e) : Ready fields (placed ++ [d]) e :=
  fun x hx hinput => List.mem_append_left _ (h x hx hinput)

/-- At the start, the fields without inputs among them are queued. -/
theorem Placing.start (hnodup : fields.Nodup) :
    Placing fields (((fields.map (WaitingField.ofField fields)).filter
        fun w => w.missing == 0).map (·.field))
      (fields.map (WaitingField.ofField fields)) [] := by
  have hcount : ∀ d, WaitingField.ofField fields d = ⟨d, missing fields [] d⟩ := by
    intro d
    simp [WaitingField.ofField, missing]
  have hqueue : ((fields.map (WaitingField.ofField fields)).filter fun w => w.missing == 0).map
      (·.field) = fields.filter fun d => missing fields [] d == 0 := by
    rw [List.filter_map, List.map_map, List.map_congr_left fun d _ => ?_, List.map_id']
    · exact List.filter_congr fun d _ => by rw [Function.comp_apply, hcount]
    · rfl
  rw [hqueue]
  refine ⟨List.map_congr_left fun d _ => hcount d, hnodup.filter _, fun d => ?_, ?_⟩
  · rw [List.nil_append, List.mem_filter, beq_iff_eq, missing_eq_zero_iff]
  · intro before d after h
    cases before <;> cases h

/-- **Placing the next field** keeps it all. -/
theorem Placing.step (hnodup : fields.Nodup) (h : Placing fields (d :: queue) waiting placed) :
    Placing fields
      (queue ++ ((waiting.map (WaitingField.countDown d)).filter
        fun w => w.field.inputs.contains d.name && w.missing == 0).map (·.field))
      (waiting.map (WaitingField.countDown d)) (placed ++ [d]) := by
  obtain ⟨hd, hready⟩ := (h.mem_iff d).1 (by simp)
  have hnew : d ∉ placed := fun hplaced =>
    List.disjoint_of_nodup_append h.nodup hplaced List.mem_cons_self
  have hwaiting : waiting.map (WaitingField.countDown d) =
      fields.map fun e => ⟨e, missing fields (placed ++ [d]) e⟩ := by
    rw [h.waiting, List.map_map]
    refine List.map_congr_left fun e _ => ?_
    rw [Function.comp_apply, WaitingField.countDown, missing_concat hnodup hd hnew]
    split <;> rfl
  have hfreed : ((waiting.map (WaitingField.countDown d)).filter
      fun w => w.field.inputs.contains d.name && w.missing == 0).map (·.field) =
      fields.filter fun e =>
        e.inputs.contains d.name && missing fields (placed ++ [d]) e == 0 := by
    rw [hwaiting, List.filter_map, List.map_map]
    exact List.map_id'' (fun _ => rfl) _
  have hmem : ∀ e, e ∈ fields.filter (fun e =>
      e.inputs.contains d.name && missing fields (placed ++ [d]) e == 0) ↔
      e ∈ fields ∧ d.name ∈ e.inputs ∧ Ready fields (placed ++ [d]) e := by
    intro e
    rw [List.mem_filter, Bool.and_eq_true, beq_iff_eq, missing_eq_zero_iff, List.contains_iff_mem]
  have hregroup : ∀ freed, placed ++ [d] ++ (queue ++ freed) = placed ++ d :: queue ++ freed := by
    simp
  rw [hfreed]
  refine ⟨hwaiting, ?_, fun e => ?_, h.inOrder.concat hready⟩
  · rw [hregroup]
    refine List.nodup_append'.2 ⟨h.nodup, hnodup.filter _, fun e he hfreed => ?_⟩
    -- A field that has just been freed has not been ready before.
    obtain ⟨-, hinput, -⟩ := (hmem e).1 hfreed
    exact hnew (((h.mem_iff e).1 he).2 d hd hinput)
  · rw [hregroup, List.mem_append, h.mem_iff, hmem]
    constructor
    · rintro (⟨he, hready⟩ | ⟨he, -, hready⟩)
      · exact ⟨he, hready.concat⟩
      · exact ⟨he, hready⟩
    · rintro ⟨he, hready⟩
      by_cases hinput : d.name ∈ e.inputs
      · exact .inr ⟨he, hinput, hready⟩
      · refine .inl ⟨he, fun x hx hxinput => ?_⟩
        rcases List.mem_append.1 (hready x hx hxinput) with hplaced | hlast
        · exact hplaced
        · rw [List.mem_singleton.1 hlast] at hxinput
          exact absurd hxinput hinput

/-- No more fields are placed than there are. -/
theorem Placing.length_le (h : Placing fields queue waiting placed) :
    placed.length + queue.length ≤ fields.length := by
  rw [← List.length_append]
  exact (h.nodup.subperm fun d hd => ((h.mem_iff d).1 hd).1).length_le

/-- **The whole run** keeps it all, and leaves no field in the queue. -/
theorem Placing.run (hnodup : fields.Nodup) {fuel : Nat} (h : Placing fields queue waiting placed)
    (hfuel : fuel + placed.length = fields.length) :
    ∃ waiting', Placing fields [] waiting' (placeAll fuel queue waiting placed) := by
  induction fuel generalizing queue waiting placed with
  | zero =>
    have hlength := h.length_le
    obtain rfl : queue = [] := List.eq_nil_of_length_eq_zero (by omega)
    exact ⟨waiting, h⟩
  | succ fuel ih =>
    cases queue with
    | nil => exact ⟨waiting, h⟩
    | cons d queue =>
      refine ih (h.step hnodup) ?_
      rw [List.length_append, List.length_singleton]
      omega

theorem exists_placing_evaluationOrder (hnodup : fields.Nodup) :
    ∃ waiting, Placing fields [] waiting (evaluationOrder fields) :=
  (Placing.start hnodup).run hnodup rfl

/-! ### The result -/

theorem nodup_evaluationOrder (hnodup : fields.Nodup) : (evaluationOrder fields).Nodup := by
  obtain ⟨_, h⟩ := exists_placing_evaluationOrder hnodup
  simpa using h.nodup

/-- **Each field comes after those that it depends on.** -/
theorem inOrder_evaluationOrder (hnodup : fields.Nodup) : InOrder fields (evaluationOrder fields) := by
  obtain ⟨_, h⟩ := exists_placing_evaluationOrder hnodup
  exact h.inOrder

/-- **Exactly the fields in front of all cycles are placed.** -/
theorem mem_evaluationOrder_iff (hnodup : fields.Nodup) :
    d ∈ evaluationOrder fields ↔ d ∈ fields ∧ ¬OnOrBehindCycle fields d := by
  obtain ⟨_, h⟩ := exists_placing_evaluationOrder hnodup
  have hmem : ∀ d, d ∈ evaluationOrder fields ↔ d ∈ fields ∧ Ready fields (evaluationOrder fields) d :=
    fun d => by simpa using h.mem_iff d
  constructor
  · intro hd
    exact ⟨((hmem d).1 hd).1, h.inOrder.not_onOrBehindCycle (nodup_evaluationOrder hnodup) hd⟩
  · rintro ⟨hd, hcycle⟩
    exact mem_of_not_onOrBehindCycle (fun e he hready => (hmem e).2 ⟨he, hready⟩) hd hcycle

/-- All fields are placed if there is no cycle. -/
theorem evaluationOrder_perm (hnodup : fields.Nodup) (hacyclic : Acyclic fields) :
    (evaluationOrder fields).Perm fields := by
  refine (List.perm_ext_iff_of_nodup (nodup_evaluationOrder hnodup) hnodup).2 fun d => ?_
  rw [mem_evaluationOrder_iff hnodup]
  exact and_iff_left fun ⟨e, _, hcycle⟩ => hacyclic e hcycle

/-- **All fields are placed** exactly if there is no cycle. -/
theorem length_evaluationOrder_iff (hnodup : fields.Nodup) :
    (evaluationOrder fields).length = fields.length ↔ Acyclic fields := by
  refine ⟨fun hlength d hcycle => ?_, fun h => (evaluationOrder_perm hnodup h).length_eq⟩
  have hsubperm : (evaluationOrder fields).Subperm fields :=
    (nodup_evaluationOrder hnodup).subperm fun d hd => ((mem_evaluationOrder_iff hnodup).1 hd).1
  have hd : d ∈ evaluationOrder fields :=
    (hsubperm.perm_of_length_le (Nat.le_of_eq hlength.symm)).mem_iff.2 (mem_of_transGen hcycle)
  exact ((mem_evaluationOrder_iff hnodup).1 hd).2 ⟨d, .refl, hcycle⟩

variable {schema : String}

/-- Derived fields can be put in order exactly if there is no cycle. -/
theorem sortDerived_eq_ok_iff (hnodup : fields.Nodup) :
    sortDerived schema fields = .ok order ↔ Acyclic fields ∧ order = evaluationOrder fields := by
  simp only [sortDerived, ← length_evaluationOrder_iff hnodup]
  split
  · next hlength => simp [hlength, eq_comm]
  · next hlength => simp [hlength]

/-- Derived fields that are put in order are all there, each one after those that it depends on. -/
theorem sorted_of_sortDerived (hnodup : fields.Nodup) (h : sortDerived schema fields = .ok order) :
    order.Perm fields ∧ InOrder fields order := by
  obtain ⟨hacyclic, rfl⟩ := (sortDerived_eq_ok_iff hnodup).1 h
  exact ⟨evaluationOrder_perm hnodup hacyclic, inOrder_evaluationOrder hnodup⟩

/-- **If there is a cycle**, that is what is reported. -/
theorem exists_of_not_acyclic (hnodup : fields.Nodup) (h : ¬Acyclic fields) :
    ∃ names, sortDerived schema fields = .error (.cyclicDependency schema names) := by
  rw [← length_evaluationOrder_iff hnodup] at h
  simp only [sortDerived, if_neg h]
  exact ⟨_, rfl⟩

/-- **The fields that are reported** are those on or behind cycles, as they are declared. -/
theorem reported_of_sortDerived (hdistinct : (fields.map (·.name)).Nodup) {s : String}
    {names : List String} (h : sortDerived schema fields = .error (.cyclicDependency s names)) :
    s = schema ∧ names.Sublist (fields.map (·.name)) ∧
      ∀ d ∈ fields, d.name ∈ names ↔ OnOrBehindCycle fields d := by
  have hnodup : fields.Nodup := .of_map _ hdistinct
  simp only [sortDerived] at h
  split at h
  · cases h
  · cases h
    refine ⟨rfl, List.filter_sublist, fun d hd => ?_⟩
    have hplaced : d.name ∈ (evaluationOrder fields).map (·.name) ↔ ¬OnOrBehindCycle fields d := by
      rw [List.mem_map]
      constructor
      · rintro ⟨e, he, hname⟩
        obtain ⟨hmem, hcycle⟩ := (mem_evaluationOrder_iff hnodup).1 he
        rwa [List.inj_on_of_nodup_map hdistinct hmem hd hname] at hcycle
      · exact fun hcycle => ⟨d, (mem_evaluationOrder_iff hnodup).2 ⟨hd, hcycle⟩, rfl⟩
    rw [List.mem_filter, and_iff_right (List.mem_map_of_mem hd), Bool.not_eq_true',
      ← Bool.not_eq_true, List.contains_iff_mem, hplaced, not_not]

end RetailReport.Compile
