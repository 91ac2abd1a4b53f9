/-!
# Amounts of money

An `Amount` is a decimal number with four places, held as a whole number of ten-thousandths (its
`raw` value) in the range of a signed 64-bit word.  Sums never round and never wrap: an operation
whose exact result leaves the range has no result.

## Main definitions

* `Amount`: a raw value with the proof that it is in range.
* `Amount.ofRaw?`: the amount of a raw value, if it is in range.
* `Amount.add?`, `Amount.sub?`: exact sum and difference.
* `Amount.ofUnits`, `Amount.ofCents`: whole units and hundredths, clamped to the range.
-/

namespace RetailReport

/-- A decimal number with four places, in the range of a signed 64-bit count of ten-thousandths. -/
structure Amount where
  /-- The number of ten-thousandths. -/
  raw : Int
  /-- The least raw value is `-2 ^ 63`. -/
  le_raw : -9223372036854775808 ≤ raw := by decide
  /-- The greatest raw value is `2 ^ 63 - 1`. -/
  raw_le : raw ≤ 9223372036854775807 := by decide
deriving DecidableEq, Repr

namespace Amount

/-- How many ten-thousandths make one unit. -/
def scale : Nat := 10000

/-- The least raw value. -/
def minRaw : Int := -9223372036854775808

/-- The greatest raw value. -/
def maxRaw : Int := 9223372036854775807

/-- Nothing. -/
def zero : Amount := ⟨0, by decide, by decide⟩

instance : Inhabited Amount := ⟨zero⟩

@[ext] theorem ext {a b : Amount} (h : a.raw = b.raw) : a = b := by
  cases a; cases b; cases h; rfl

instance : LT Amount := ⟨fun a b => a.raw < b.raw⟩
instance : LE Amount := ⟨fun a b => a.raw ≤ b.raw⟩

theorem lt_def {a b : Amount} : a < b ↔ a.raw < b.raw := Iff.rfl
theorem le_def {a b : Amount} : a ≤ b ↔ a.raw ≤ b.raw := Iff.rfl

instance (a b : Amount) : Decidable (a < b) := inferInstanceAs (Decidable (a.raw < b.raw))
instance (a b : Amount) : Decidable (a ≤ b) := inferInstanceAs (Decidable (a.raw ≤ b.raw))

/-- The greater of two amounts. -/
protected def max (a b : Amount) : Amount := if a ≤ b then b else a

/-- The smaller of two amounts. -/
protected def min (a b : Amount) : Amount := if a ≤ b then a else b

/-- The amount with a given raw value, if that is in range. -/
def ofRaw? (raw : Int) : Option Amount :=
  if h : -9223372036854775808 ≤ raw ∧ raw ≤ 9223372036854775807 then some ⟨raw, h.1, h.2⟩ else none

/-- The amount nearest to a raw value. -/
def clamp (raw : Int) : Amount :=
  ⟨max minRaw (min raw maxRaw), by unfold minRaw maxRaw; omega, by unfold minRaw maxRaw; omega⟩

/-- A number of whole units, clamped to the range. -/
def ofUnits (units : Int) : Amount := clamp (units * 10000)

/-- A number of hundredths, clamped to the range. -/
def ofCents (cents : Int) : Amount := clamp (cents * 100)

/-- The exact sum, if it is in range. -/
def add? (a b : Amount) : Option Amount := ofRaw? (a.raw + b.raw)

/-- The exact difference, if it is in range. -/
def sub? (a b : Amount) : Option Amount := ofRaw? (a.raw - b.raw)

/-- Whether the amount is nothing. -/
def isZero (a : Amount) : Bool := a.raw == 0

@[simp] theorem raw_zero : zero.raw = 0 := rfl

theorem ofRaw?_eq_some {raw : Int} {a : Amount} : ofRaw? raw = some a ↔ a.raw = raw := by
  unfold ofRaw?
  split
  · next h =>
    constructor
    · intro e; cases e; rfl
    · intro e; exact congrArg some (ext e.symm)
  · next h =>
    constructor
    · intro e; cases e
    · intro e; exact absurd (e ▸ ⟨a.le_raw, a.raw_le⟩) h

/-- A sum is exact. -/
theorem add?_eq_some {a b c : Amount} : a.add? b = some c ↔ c.raw = a.raw + b.raw := ofRaw?_eq_some

/-- A difference is exact. -/
theorem sub?_eq_some {a b c : Amount} : a.sub? b = some c ↔ c.raw = a.raw - b.raw := ofRaw?_eq_some

end Amount

end RetailReport
