import Mathlib.Data.List.Forall2
import Mathlib.Data.List.Induction

/-!
# Computations that may fail

What it takes for a computation in several parts to succeed: each part succeeds, and the results of
the parts make up the result of the whole.

## Main results

* `Except.bind_eq_ok`, `Except.map_eq_ok`: two parts, one after the other.
* `List.mapM_eq_ok`: one part for each member of a list.
* `List.foldlM_ok_induction`: what every part preserves, the whole preserves.
* `List.exists_foldlM_eq_ok_iff`, `List.foldlM_eq_error`: when a run over a list succeeds, and where it
  fails.
* `FailsOnly.bind`, `FailsOnly.mapM`, `FailsOnly.foldlM`: a whole fails for no other reasons than its
  parts.
-/

namespace RetailReport

variable {ε α β γ : Type}

theorem Except.bind_eq_ok {x : Except ε α} {f : α → Except ε β} {b : β} :
    (x >>= f) = .ok b ↔ ∃ a, x = .ok a ∧ f a = .ok b := by
  cases x with
  | error e => simp [bind, Except.bind]
  | ok a => simp [bind, Except.bind]

theorem Except.exists_bind_eq_ok {x : Except ε α} {f : α → Except ε β} :
    (∃ b, (x >>= f) = .ok b) ↔ ∃ a, x = .ok a ∧ ∃ b, f a = .ok b := by
  simp only [Except.bind_eq_ok]
  exact ⟨fun ⟨b, a, ha, hb⟩ => ⟨a, ha, b, hb⟩, fun ⟨a, ha, b, hb⟩ => ⟨b, a, ha, hb⟩⟩

/-- A last step that cannot fail does not matter. -/
theorem Except.exists_bind_pure_eq_ok {x : Except ε α} {g : α → β} :
    (∃ b, (x >>= fun a => pure (g a)) = .ok b) ↔ ∃ a, x = .ok a := by
  rw [Except.exists_bind_eq_ok]
  exact exists_congr fun a => and_iff_left ⟨g a, rfl⟩

theorem Except.bind_eq_error {x : Except ε α} {f : α → Except ε β} {e : ε} :
    (x >>= f) = .error e ↔ x = .error e ∨ ∃ a, x = .ok a ∧ f a = .error e := by
  cases x with
  | error e => simp [bind, Except.bind]
  | ok a => simp [bind, Except.bind]

theorem Except.map_eq_ok {x : Except ε α} {f : α → β} {b : β} :
    x.map f = .ok b ↔ ∃ a, x = .ok a ∧ f a = b := by
  cases x <;> simp [Except.map]

theorem Except.map_eq_error {x : Except ε α} {f : α → β} {e : ε} :
    x.map f = .error e ↔ x = .error e := by
  cases x <;> simp [Except.map]

theorem Except.isOk_iff {x : Except ε α} : x.isOk = true ↔ ∃ a, x = .ok a := by
  cases x with
  | error e => exact iff_of_false Bool.false_ne_true nofun
  | ok a => exact iff_of_true rfl ⟨a, rfl⟩

/-- What can be checked of the result of a computation that succeeds. -/
theorem Except.exists_ok {x : Except ε α} {P : α → Prop} [DecidablePred P]
    (h : x.toOption.any (fun a => decide (P a)) = true) : ∃ a, x = .ok a ∧ P a := by
  cases x with
  | error e => cases h
  | ok a => exact ⟨a, rfl, of_decide_eq_true h⟩

/-- A list of computations succeeds if each of them does. -/
theorem List.mapM_eq_ok {f : α → Except ε β} {l : List α} {r : List β} :
    l.mapM f = .ok r ↔ l.Forall₂ (fun a b => f a = .ok b) r := by
  induction l generalizing r with
  | nil =>
    rw [List.mapM_nil, List.forall₂_nil_left_iff]
    exact ⟨fun h => (Except.ok.inj h).symm, fun h => h ▸ rfl⟩
  | cons a l ih =>
    rw [List.mapM_cons, List.forall₂_cons_left_iff, Except.bind_eq_ok]
    constructor
    · rintro ⟨b, hb, h⟩
      obtain ⟨bs, hbs, h⟩ := Except.bind_eq_ok.1 h
      exact ⟨b, bs, hb, ih.1 hbs, (Except.ok.inj h).symm⟩
    · rintro ⟨b, bs, hb, hbs, rfl⟩
      exact ⟨b, hb, Except.bind_eq_ok.2 ⟨bs, ih.2 hbs, rfl⟩⟩

theorem List.mapM_eq_ok_map {f : α → Except ε β} {g : α → β} {l : List α}
    (h : ∀ a ∈ l, f a = .ok (g a)) : l.mapM f = .ok (l.map g) :=
  List.mapM_eq_ok.2 (List.forall₂_map_right_iff.2 (List.forall₂_same.2 h))

theorem List.exists_mem_of_mapM_eq_ok {f : α → Except ε β} {l : List α} {r : List β}
    (h : l.mapM f = .ok r) {a : α} (ha : a ∈ l) : ∃ b ∈ r, f a = .ok b := by
  rw [List.mapM_eq_ok] at h
  induction h with
  | nil => cases ha
  | cons hab _ ih =>
    rcases List.mem_cons.1 ha with rfl | ha
    · exact ⟨_, List.mem_cons_self, hab⟩
    · obtain ⟨b, hb, e⟩ := ih ha
      exact ⟨b, List.mem_cons_of_mem _ hb, e⟩

theorem List.exists_of_mem_mapM_eq_ok {f : α → Except ε β} {l : List α} {r : List β}
    (h : l.mapM f = .ok r) {b : β} (hb : b ∈ r) : ∃ a ∈ l, f a = .ok b := by
  rw [List.mapM_eq_ok] at h
  induction h with
  | nil => cases hb
  | cons hab _ ih =>
    rcases List.mem_cons.1 hb with rfl | hb
    · exact ⟨_, List.mem_cons_self, hab⟩
    · obtain ⟨a, ha, e⟩ := ih hb
      exact ⟨a, List.mem_cons_of_mem _ ha, e⟩

/-- A run over a list fails at one of its members. -/
theorem List.exists_mem_of_mapM_eq_error {f : α → Except ε β} {l : List α} {e : ε}
    (h : l.mapM f = .error e) : ∃ a ∈ l, f a = .error e := by
  induction l with
  | nil => cases h
  | cons a l ih =>
    rw [List.mapM_cons] at h
    cases ha : f a with
    | error e' =>
      rw [ha] at h
      exact ⟨a, List.mem_cons_self, ha.trans (congrArg Except.error (Except.error.inj h))⟩
    | ok b =>
      rw [ha] at h
      cases hrest : l.mapM f with
      | error e' =>
        rw [hrest] at h
        cases h
        obtain ⟨a', ha', hfail⟩ := ih hrest
        exact ⟨a', List.mem_cons_of_mem _ ha', hfail⟩
      | ok bs =>
        rw [hrest] at h
        cases h

/-- Whether a list of computations succeeds. -/
theorem List.exists_mapM_eq_ok_iff {f : α → Except ε β} {l : List α} :
    (∃ r, l.mapM f = .ok r) ↔ ∀ a ∈ l, ∃ b, f a = .ok b := by
  constructor
  · rintro ⟨r, hr⟩ a ha
    obtain ⟨b, -, hb⟩ := List.exists_mem_of_mapM_eq_ok hr ha
    exact ⟨b, hb⟩
  · intro h
    cases hr : l.mapM f with
    | ok r => exact ⟨r, rfl⟩
    | error e =>
      obtain ⟨a, ha, he⟩ := List.exists_mem_of_mapM_eq_error hr
      obtain ⟨b, hb⟩ := h a ha
      rw [hb] at he
      cases he

/-- What each result has in common with the member that it comes from. -/
theorem List.map_eq_of_mapM_eq_ok {f : α → Except ε β} {l : List α} {r : List β} {g : β → γ}
    {g' : α → γ} (h : l.mapM f = .ok r) (e : ∀ a b, f a = .ok b → g b = g' a) :
    r.map g = l.map g' := by
  rw [List.mapM_eq_ok] at h
  induction h with
  | nil => rfl
  | cons hab _ ih => rw [List.map_cons, List.map_cons, e _ _ hab, ih]

theorem List.foldlM_append_eq_ok {f : β → α → Except ε β} {l l' : List α} {b c : β} :
    (l ++ l').foldlM f b = .ok c ↔ ∃ b', l.foldlM f b = .ok b' ∧ l'.foldlM f b' = .ok c := by
  rw [List.foldlM_append, Except.bind_eq_ok]

/-- **Where a run over a list fails**: at the first member that is refused, after those before it have
been taken. -/
theorem List.foldlM_eq_error {f : β → α → Except ε β} {l : List α} {b : β} {e : ε} :
    l.foldlM f b = .error e ↔ ∃ before a after c,
      l = before ++ a :: after ∧ before.foldlM f b = .ok c ∧ f c a = .error e := by
  constructor
  · intro h
    induction l generalizing b with
    | nil => cases h
    | cons a l ih =>
      rw [List.foldlM_cons, Except.bind_eq_error] at h
      rcases h with ha | ⟨b', ha, h⟩
      · exact ⟨[], a, l, b, rfl, rfl, ha⟩
      · obtain ⟨before, a', after, c, rfl, hbefore, hrefused⟩ := ih h
        refine ⟨a :: before, a', after, c, rfl, ?_, hrefused⟩
        rw [List.foldlM_cons, Except.bind_eq_ok]
        exact ⟨b', ha, hbefore⟩
  · rintro ⟨before, a, after, c, rfl, hbefore, hrefused⟩
    rw [List.foldlM_append, hbefore]
    show (a :: after).foldlM f c = .error e
    rw [List.foldlM_cons, hrefused]
    rfl

/-- What holds at the start of a run over a list, and is kept by every step that succeeds, holds at
its end. -/
theorem List.foldlM_ok_induction {f : β → α → Except ε β} {P : List α → β → Prop} {l : List α}
    {b c : β} (h : l.foldlM f b = .ok c) (start : P [] b)
    (step : ∀ done a b b', a ∈ l → P done b → f b a = .ok b' → P (done ++ [a]) b') : P l c := by
  suffices ∀ (todo done : List α) (b : β), done ++ todo = l → P done b →
      todo.foldlM f b = .ok c → P l c from this l [] b rfl start h
  intro todo
  induction todo with
  | nil =>
    rintro done b rfl hb h
    cases h
    rwa [List.append_nil]
  | cons a todo ih =>
    intro done b hl hb h
    obtain ⟨b', hb', h⟩ := Except.bind_eq_ok.1 h
    have ha : a ∈ l := hl ▸ List.mem_append_right _ List.mem_cons_self
    exact ih (done ++ [a]) b' (by rw [← hl, List.append_assoc]; rfl) (step _ _ _ _ ha hb hb') h

/-- **Whether a run over a list succeeds**, if it shows in the members that have been taken whether the
next step does: what shows has to hold after each step. -/
theorem List.exists_foldlM_eq_ok_iff {f : β → α → Except ε β} {P : List α → β → Prop}
    {Q : List α → Prop} {l : List α} {b : β} (start : P [] b) (empty : Q [])
    (step : ∀ done a b b', P done b → f b a = .ok b' → P (done ++ [a]) b')
    (succeeds : ∀ done a b, P done b → ((∃ b', f b a = .ok b') ↔ Q (done ++ [a]))) :
    (∃ c, l.foldlM f b = .ok c) ↔ ∀ done, done <+: l → Q done := by
  induction l using List.reverseRecOn with
  | nil =>
    refine iff_of_true ⟨b, rfl⟩ fun done hdone => ?_
    rwa [List.prefix_nil.1 hdone]
  | append_singleton l a ih =>
    -- The last step is reached if all before it succeed, and then it decides.
    have hrun : (∃ c, (l ++ [a]).foldlM f b = .ok c) ↔
        (∃ b', l.foldlM f b = .ok b') ∧ Q (l ++ [a]) := by
      rw [List.foldlM_append, Except.exists_bind_eq_ok]
      constructor
      · rintro ⟨b', hb', c, hc⟩
        rw [List.foldlM_cons, Except.bind_eq_ok] at hc
        obtain ⟨c', hc', -⟩ := hc
        have hdone := List.foldlM_ok_induction hb' start fun done a b b' _ => step done a b b'
        exact ⟨⟨b', hb'⟩, (succeeds l a b' hdone).1 ⟨c', hc'⟩⟩
      · rintro ⟨⟨b', hb'⟩, hq⟩
        have hdone := List.foldlM_ok_induction hb' start fun done a b b' _ => step done a b b'
        obtain ⟨c, hc⟩ := (succeeds l a b' hdone).2 hq
        exact ⟨b', hb', c, by rw [List.foldlM_cons, hc]; rfl⟩
    rw [hrun, ih]
    constructor
    · rintro ⟨hbefore, hlast⟩ done hdone
      rcases List.prefix_concat_iff.1 hdone with rfl | hdone
      · exact hlast
      · exact hbefore done hdone
    · exact fun h => ⟨fun done hdone => h done (hdone.trans (List.prefix_append l [a])),
        h _ List.prefix_rfl⟩

/-! ### Kinds of errors -/

/-- **A computation fails for reasons of some kind only.** -/
def FailsOnly (P : ε → Prop) (x : Except ε α) : Prop := ∀ e, x = .error e → P e

namespace FailsOnly

variable {P : ε → Prop}

theorem ok (a : α) : FailsOnly P (.ok a) := by
  intro e h
  cases h

theorem error {e : ε} (h : P e) : FailsOnly P (.error e : Except ε α) := by
  intro e' h'
  cases h'
  exact h

theorem of_eq_ok {x : Except ε α} {a : α} (h : x = .ok a) : FailsOnly P x := by
  rw [h]
  exact .ok a

theorem bind {x : Except ε α} {f : α → Except ε β} (hx : FailsOnly P x)
    (hf : ∀ a, FailsOnly P (f a)) : FailsOnly P (x >>= f) := by
  intro e h
  rcases Except.bind_eq_error.1 h with h | ⟨a, -, h⟩
  · exact hx e h
  · exact hf a e h

theorem map {x : Except ε α} (hx : FailsOnly P x) (f : α → β) : FailsOnly P (x.map f) :=
  fun e h => hx e (Except.map_eq_error.1 h)

theorem mapM {f : α → Except ε β} {l : List α} (h : ∀ a ∈ l, FailsOnly P (f a)) :
    FailsOnly P (l.mapM f) := by
  intro e he
  obtain ⟨a, ha, hfail⟩ := List.exists_mem_of_mapM_eq_error he
  exact h a ha e hfail

theorem foldlM {f : β → α → Except ε β} (h : ∀ b a, FailsOnly P (f b a)) (l : List α) (b : β) :
    FailsOnly P (l.foldlM f b) := by
  intro e he
  obtain ⟨-, a, -, c, -, -, hfail⟩ := List.foldlM_eq_error.1 he
  exact h c a e hfail

end FailsOnly

end RetailReport
