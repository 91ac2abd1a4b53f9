import RetailReport.Json.Basic
import RetailReport.Text.Digits

/-!
# Numbers in JSON

A number without fraction and exponent is an integer if it fits a 64-bit word, signed if it has a
minus sign; minus zero is a float.  All other numbers are floats.

A float is computed from its first digits, as many as fit an unsigned 64-bit word, by multiplication
with or division by a power of ten.  That is exact for short numbers and may be off by one unit in
the last place for long ones.

## Main definitions

* `Json.Spelling`: the pieces of a number as it is spelt.
* `Json.ofSpelling`: the number, or `unreadable` if it is beyond every float.
-/

namespace RetailReport.Json

-- Powers are those of the core library.
attribute [local instance (high)] instPowNat

open Digits

/-- The pieces of a number as it is spelt. -/
structure Spelling where
  /-- Whether there is a minus sign. -/
  negative : Bool
  /-- The digits before the point. -/
  whole : List Char
  /-- The digits after the point, if there is one. -/
  fraction : Option (List Char)
  /-- The sign and the digits of the exponent, if there is one: negative or not. -/
  exponent : Option (Bool × List Char)

/-- Digits that fit a word, and the power of ten that the last of them stands for. -/
structure Significand where
  /-- The digits as a number below `2 ^ 64`. -/
  digits : Nat
  /-- The power of ten of the last digit. -/
  exponent : Int

/-- Whether one more digit fits a word. -/
def fits (digits : Nat) (c : Char) : Bool := 10 * digits + digitValue c < 2 ^ (64 : Nat)

/-- Takes in whole digits while they fit, and counts those that follow. -/
def Significand.addWhole (digits : Nat) : List Char → Significand
  | [] => ⟨digits, 0⟩
  | c :: rest =>
    if fits digits c then Significand.addWhole (10 * digits + digitValue c) rest
    else ⟨digits, (rest.length + 1 : Nat)⟩

/-- Takes in decimals while they fit, and drops those that follow. -/
def Significand.addFraction (s : Significand) : List Char → Significand
  | [] => s
  | c :: rest =>
    if fits s.digits c then
      Significand.addFraction ⟨10 * s.digits + digitValue c, s.exponent - 1⟩ rest
    else s

/-- Ten to a power, as a float. -/
def powerOfTen (n : Nat) : Float := Float.ofScientific 1 false n

/-- Scales a float by a power of ten, in steps of at most 308. -/
def scaleFloat : (fuel : Nat) → Float → Int → Option Float
  | 0, f, _ => some f
  | fuel + 1, f, e =>
    if e.natAbs ≤ 308 then
      if 0 ≤ e then
        let g := f * powerOfTen e.natAbs
        if g.isInf then none else some g
      else some (f / powerOfTen e.natAbs)
    else if f == 0.0 then some f
    else if 0 ≤ e then none
    else scaleFloat fuel (f / powerOfTen 308) (e + 308)

/-- The float of a spelling, unless it is too large. -/
def floatOf (n : Spelling) : Option Float :=
  let s := (Significand.addWhole 0 n.whole).addFraction (n.fraction.getD [])
  let e : Int := match n.exponent with
    | none => 0
    | some (negative, digits) => if negative then -(value digits : Int) else value digits
  (scaleFloat 8 (UInt64.ofNat s.digits).toFloat (s.exponent + e)).map fun f =>
    if n.negative then -f else f

/-- The value of a spelling. -/
def ofSpelling (n : Spelling) : Json :=
  let float : Json := match floatOf n with
    | some f => .float f
    | none => .unreadable
  match n.fraction, n.exponent with
  | none, none =>
    let m := value n.whole
    if n.negative then
      if 0 < m ∧ m ≤ 2 ^ (63 : Nat) then .int (-(m : Int)) else float
    else if m < 2 ^ (64 : Nat) then .int m else float
  | _, _ => float

end RetailReport.Json
