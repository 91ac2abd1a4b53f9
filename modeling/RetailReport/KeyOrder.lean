/-!
# Keys with a decidable strict total order

Everything that this library lists, it lists in ascending order of a key: fields by name, groups by
their key, partitions by store and date.  `KeyOrder` is what such a key has to offer, and this module
gives it to the key types that occur: numbers, strings (compared by code point), lists compared
lexicographically, and anything that is told apart by a key of its own (`KeyOrder.byKey`).
-/

namespace RetailReport

/-- A type whose `<` is a decidable strict total order. -/
class KeyOrder (κ : Type) [LT κ] where
  /-- The order can be decided. -/
  decLt : DecidableLT κ
  /-- Nothing is below itself. -/
  irrefl : ∀ a : κ, ¬ a < a
  /-- The order is transitive. -/
  trans : ∀ {a b c : κ}, a < b → b < c → a < c
  /-- Two keys of which neither is below the other are equal. -/
  eq_of_not_lt : ∀ {a b : κ}, ¬ a < b → ¬ b < a → a = b

namespace KeyOrder

variable {κ : Type} [LT κ] [KeyOrder κ]

instance (priority := low) : DecidableLT κ := KeyOrder.decLt

theorem asymm {a b : κ} (h : a < b) : ¬ b < a := fun h' => KeyOrder.irrefl a (KeyOrder.trans h h')

theorem ne_of_lt {a b : κ} (h : a < b) : a ≠ b := fun e => KeyOrder.irrefl b (e ▸ h)

/-- Equality of keys is decided by two comparisons. -/
def decEq (a b : κ) : Decidable (a = b) :=
  if h : a < b then isFalse (ne_of_lt h)
  else if h' : b < a then isFalse fun e => ne_of_lt h' e.symm
  else isTrue (KeyOrder.eq_of_not_lt h h')

end KeyOrder

instance : KeyOrder Nat where
  decLt := inferInstance
  irrefl := Nat.lt_irrefl
  trans := Nat.lt_trans
  eq_of_not_lt h h' := Nat.le_antisymm (Nat.le_of_not_lt h') (Nat.le_of_not_lt h)

instance : KeyOrder Int where
  decLt := inferInstance
  irrefl := Int.lt_irrefl
  trans := Int.lt_trans
  eq_of_not_lt h h' := Int.le_antisymm (Int.not_lt.1 h') (Int.not_lt.1 h)

instance : KeyOrder String where
  decLt := inferInstance
  irrefl := String.lt_irrefl
  trans := String.lt_trans
  eq_of_not_lt h h' := String.le_antisymm (String.not_lt.1 h') (String.not_lt.1 h)

/-- Lists of keys in lexicographic order, a proper initial piece first. -/
instance {κ : Type} [LT κ] [KeyOrder κ] : KeyOrder (List κ) where
  decLt := fun a b =>
    letI : DecidableEq κ := KeyOrder.decEq
    inferInstance
  irrefl := by
    have : Std.Irrefl (α := κ) (· < ·) := ⟨KeyOrder.irrefl⟩
    exact fun a => List.lt_irrefl a
  trans := by
    have : Trans (α := κ) (β := κ) (γ := κ) (· < ·) (· < ·) (· < ·) := ⟨KeyOrder.trans⟩
    exact fun {_ _ _} h h' => List.lt_trans h h'
  eq_of_not_lt := by
    have : Std.Trichotomous (α := κ) (· < ·) := ⟨fun _ _ => KeyOrder.eq_of_not_lt⟩
    have : Std.Asymm (α := κ) (· < ·) := ⟨fun _ _ => KeyOrder.asymm⟩
    exact fun {_ _} h h' => List.le_antisymm (List.not_lt.1 h') (List.not_lt.1 h)

/-- The order of a type that is told apart by a key: `a` comes before `b` when its key does. -/
abbrev KeyOrder.byKey {α κ : Type} [LT κ] [KeyOrder κ] [LT α] (key : α → κ)
    (lt_iff : ∀ a b : α, a < b ↔ key a < key b) (inj : ∀ {a b : α}, key a = key b → a = b) :
    KeyOrder α where
  decLt := fun a b => decidable_of_iff _ (lt_iff a b).symm
  irrefl := fun a h => KeyOrder.irrefl _ ((lt_iff a a).1 h)
  trans := fun h h' => (lt_iff _ _).2 (KeyOrder.trans ((lt_iff _ _).1 h) ((lt_iff _ _).1 h'))
  eq_of_not_lt := fun h h' =>
    inj (KeyOrder.eq_of_not_lt (fun l => h ((lt_iff _ _).2 l)) (fun l => h' ((lt_iff _ _).2 l)))

/-- The order of a type that is told apart by two keys, of which the first decides first. -/
abbrev KeyOrder.byKeys {α κ ι : Type} [LT κ] [KeyOrder κ] [LT ι] [KeyOrder ι] [LT α]
    (first : α → κ) (second : α → ι)
    (lt_iff : ∀ a b : α, a < b ↔ first a < first b ∨ first a = first b ∧ second a < second b)
    (inj : ∀ {a b : α}, first a = first b → second a = second b → a = b) : KeyOrder α where
  decLt := fun a b =>
    letI : DecidableEq κ := KeyOrder.decEq
    decidable_of_iff _ (lt_iff a b).symm
  irrefl := fun a h => ((lt_iff a a).1 h).elim (KeyOrder.irrefl _) fun h => KeyOrder.irrefl _ h.2
  trans := fun {a b c} h h' => (lt_iff a c).2 <|
    match (lt_iff a b).1 h, (lt_iff b c).1 h' with
    | .inl l, .inl l' => .inl (KeyOrder.trans l l')
    | .inl l, .inr ⟨e, _⟩ => .inl (e ▸ l)
    | .inr ⟨e, _⟩, .inl l => .inl (e ▸ l)
    | .inr ⟨e, l⟩, .inr ⟨e', l'⟩ => .inr ⟨e.trans e', KeyOrder.trans l l'⟩
  eq_of_not_lt := fun {a b} h h' =>
    have e : first a = first b := KeyOrder.eq_of_not_lt
      (fun l => h ((lt_iff a b).2 (.inl l))) (fun l => h' ((lt_iff b a).2 (.inl l)))
    inj e (KeyOrder.eq_of_not_lt
      (fun l => h ((lt_iff a b).2 (.inr ⟨e, l⟩))) (fun l => h' ((lt_iff b a).2 (.inr ⟨e.symm, l⟩))))

end RetailReport
