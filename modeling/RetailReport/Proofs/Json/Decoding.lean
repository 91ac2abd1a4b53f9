import RetailReport.Json.Decode
import RetailReport.Proofs.Json.Reading
import RetailReport.Proofs.Outcomes
import RetailReport.Proofs.SortedMap

/-!
# Decoding what was encoded

Some values come back from their JSON form and others are refused, but nothing is decoded as another
value.  What holds of single values so holds of lists and tables of them: they come back exactly if
all their values do.

## Main definitions

* `Json.ComesBack`: a value comes back if it is good, and nothing else does.

## Main results

* `Json.comesBack_list`, `Json.comesBack_table`: lists and tables.
* `Json.decodeText_pretty`: the text of a value gives back what the value does.
-/

namespace RetailReport.Json

variable {α σ : Type} {d : Decoder α} {enc : α → Json} {good : α → Prop}

/-- **A value comes back** from its JSON form if it is good, and nothing else does. -/
def ComesBack (d : Decoder α) (enc : α → Json) (good : α → Prop) (a : α) : Prop :=
  ∀ b, d (enc a) = .ok b ↔ good a ∧ a = b

theorem ComesBack.eq_ok {a : α} (h : ComesBack d enc good a) (hgood : good a) :
    d (enc a) = .ok a :=
  (h a).2 ⟨hgood, rfl⟩

/-- The values of a list are decoded one by one. -/
theorem mapM_map_eq_ok {items : List α} (h : ∀ a ∈ items, ComesBack d enc good a)
    (items' : List α) :
    (items.map enc).mapM d = .ok items' ↔ (∀ a ∈ items, good a) ∧ items = items' := by
  rw [List.mapM_eq_ok, List.forall₂_map_left_iff]
  induction items generalizing items' with
  | nil =>
    rw [List.forall₂_nil_left_iff]
    simp [eq_comm]
  | cons a items ih =>
    have ha := h a List.mem_cons_self
    have hitems : ∀ a ∈ items, ComesBack d enc good a := fun a ha => h a (List.mem_cons_of_mem _ ha)
    rw [List.forall₂_cons_left_iff, List.forall_mem_cons]
    constructor
    · rintro ⟨b, rest, hb, hrest, rfl⟩
      obtain ⟨hgood, rfl⟩ := (ha b).1 hb
      obtain ⟨hall, rfl⟩ := (ih hitems rest).1 hrest
      exact ⟨⟨hgood, hall⟩, rfl⟩
    · rintro ⟨⟨hgood, hall⟩, rfl⟩
      exact ⟨a, items, ha.eq_ok hgood, (ih hitems items).2 ⟨hall, rfl⟩, rfl⟩

/-- **A list comes back** if all its values do. -/
theorem comesBack_list {items : List α} (h : ∀ a ∈ items, ComesBack d enc good a) :
    ComesBack (list d) (fun items => .array (items.map enc)) (fun items => ∀ a ∈ items, good a)
      items :=
  mapM_map_eq_ok h

/-- The values of a table are put in one by one. -/
theorem foldlM_insert_eq_ok {entries : List (String × α)}
    (h : ∀ e ∈ entries, ComesBack d enc good e.2) (m m' : SortedMap String α) :
    (entries.map fun e => (e.1, enc e.2)).foldlM (fun m (name, j) => (d j).map (m.insert name)) m =
        .ok m' ↔
      (∀ e ∈ entries, good e.2) ∧ entries.foldl (fun m e => m.insert e.1 e.2) m = m' := by
  induction entries generalizing m with
  | nil => simp [pure, Except.pure]
  | cons e entries ih =>
    have he := h e List.mem_cons_self
    have hentries : ∀ e ∈ entries, ComesBack d enc good e.2 :=
      fun e he => h e (List.mem_cons_of_mem _ he)
    rw [List.map_cons, List.foldlM_cons, List.foldl_cons, List.forall_mem_cons, Except.bind_eq_ok]
    constructor
    · rintro ⟨next, hnext, hrest⟩
      obtain ⟨a, ha, rfl⟩ := Except.map_eq_ok.1 hnext
      obtain ⟨hgood, rfl⟩ := (he a).1 ha
      obtain ⟨hall, hfold⟩ := (ih hentries _).1 hrest
      exact ⟨⟨hgood, hall⟩, hfold⟩
    · rintro ⟨⟨hgood, hall⟩, hfold⟩
      exact ⟨m.insert e.1 e.2, Except.map_eq_ok.2 ⟨e.2, he.eq_ok hgood, rfl⟩,
        (ih hentries _).2 ⟨hall, hfold⟩⟩

/-- **A table comes back** if all its values do. -/
theorem comesBack_table {m : SortedMap String α}
    (h : ∀ e ∈ m.toList, ComesBack d enc good e.2) :
    ComesBack (table d) (fun m => .object (m.toList.map fun (name, a) => (name, enc a)))
      (fun m => ∀ e ∈ m.toList, good e.2) m := by
  intro m'
  have hofList : m.toList.foldl (fun m e => m.insert e.1 e.2) .empty = m :=
    SortedMap.ofList_toList m
  have hfold := foldlM_insert_eq_ok h .empty m'
  rw [hofList] at hfold
  exact hfold

/-- **The text of a value** gives back what the value does. -/
theorem decodeText_pretty {j : Json} (h : Plain maxDepth j) (d : Decoder α) :
    decodeText d j.pretty = d j := by
  unfold decodeText
  simp only [pretty, h.read_write, if_true]
  cases d j <;> rfl

/-- A string comes back. -/
theorem comesBack_text (s : String) : ComesBack text .string (fun _ => True) s := by
  intro t
  show Except.ok s = .ok t ↔ _
  rw [Except.ok.injEq, true_and]

/-! ### Records -/

namespace Shape

variable {shape : Shape σ} {seen : List String} {s : σ} {name : String} {j : Json}
  {rest : List (String × Json)}

/-- **One more field of a record** is read. -/
theorem readMembers_cons {step : Json → σ → Except Refusal σ}
    (hstep : shape.lookup name = some step) (hnew : seen.contains name = false)
    (hnamed : ∀ value, j ≠ .unnamed value) :
    shape.readMembers seen s ((name, j) :: rest) =
      step j s >>= fun s => shape.readMembers (name :: seen) s rest := by
  cases j with
  | unnamed value => exact absurd rfl (hnamed value)
  | _ => simp only [readMembers, hstep, hnew, Bool.false_eq_true, if_false]

/-- A field that can be decoded is put into the draft. -/
theorem readMembers_field {d : Decoder α} {put : α → σ → σ} {a : α}
    (hfield : shape.lookup name = some (field name d put).2) (hnew : seen.contains name = false)
    (hnamed : ∀ value, j ≠ .unnamed value) (hdecode : d j = .ok a) :
    shape.readMembers seen s ((name, j) :: rest) =
      shape.readMembers (name :: seen) (put a s) rest := by
  rw [readMembers_cons hfield hnew hnamed]
  simp only [field, hdecode]
  rfl

/-- The last field decides. -/
theorem readMembers_last {d : Decoder α} {put : α → σ → σ}
    (hfield : shape.lookup name = some (field name d put).2) (hnew : seen.contains name = false)
    (hnamed : ∀ value, j ≠ .unnamed value) :
    shape.readMembers seen s [(name, j)] = (d j).map fun a => put a s := by
  rw [readMembers_cons hfield hnew hnamed]
  simp only [field]
  cases d j <;> rfl

end Shape

end RetailReport.Json
