import RetailReport.Json.Basic

/-!
# Values with a JSON form

## Main definitions

* `Json.Encode`, `Json.encode`: types whose values have a JSON form.
-/

namespace RetailReport.Json

/-- Types whose values have a JSON form. -/
class Encode (α : Type) where
  /-- The JSON form of a value. -/
  encode : α → Json

export Encode (encode)

instance : Encode Json := ⟨id⟩

instance : Encode Unit := ⟨fun _ => .null⟩

instance : Encode Bool := ⟨.bool⟩

instance : Encode Nat := ⟨fun n => .int n⟩

instance : Encode Int := ⟨.int⟩

instance : Encode Binary64 := ⟨.float⟩

instance : Encode Float := ⟨fun x => .float x⟩

instance : Encode String := ⟨.string⟩

/-- A list has the forms of its values in order. -/
instance [Encode α] : Encode (List α) := ⟨fun items => .array (items.map encode)⟩

/-- What is missing is `null`. -/
instance [Encode α] : Encode (Option α) := ⟨fun value => (value.map encode).getD .null⟩

/-- A set has the forms of its members in ascending order. -/
instance [LT α] [KeyOrder α] [Encode α] : Encode (KeySet α) := ⟨fun keys => encode keys.members⟩

end RetailReport.Json
