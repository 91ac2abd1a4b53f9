import RetailReport.Text.Digits

/-!
# Binary floating point numbers

A `Binary64` is a floating point number known by its bits.  Unlike a `Float` it tells apart the many
encodings of an undefined number, which keep through calculations where they came from: the result
for an undefined operand is that operand, and only an operation without a result of its own makes a
new one.

A finite number is a whole number of units times a power of two.  This module takes it apart exactly
(`Binary64.parts`) and writes it as a decimal in the two forms that reports use: with a fixed number
of decimals, rounded to nearest and a tie to the even neighbour (`Binary64.fixed`), and with the
fewest digits that read back as the same number (`Binary64.shortest`).

## Main definitions

* `Binary64`, `Binary64.toFloat`, `Binary64.ofFloat`, `Binary64.bitsHex`, `Binary64.ofBitsHex?`.
* `Binary64.lift`: arithmetic.
* `Binary64.Parts`, `Binary64.parts`.
* `Binary64.roundDiv`: a quotient rounded to nearest, a tie to even.
* `Binary64.fixed`, `Binary64.shortest`.
-/

namespace RetailReport

-- Powers are those of the core library.
attribute [local instance (high)] instPowNat

/-- A floating point number by its encoding. -/
structure Binary64 where
  /-- The encoding: sign, exponent and fraction. -/
  bits : UInt64
deriving DecidableEq, Repr, Inhabited

namespace Binary64

open Digits

/-- The number that is calculated with. -/
def toFloat (x : Binary64) : Float := Float.ofBits x.bits

/-- The encoding of a number that has been calculated. -/
def ofFloat (x : Float) : Binary64 := ⟨x.toBits⟩

instance : Coe Float Binary64 := ⟨ofFloat⟩

/-- The magnitude of a finite number: `units * 2 ^ exponent`. -/
structure Parts where
  /-- The whole number of units, below `2 ^ 53`. -/
  units : Nat
  /-- The power of two that one unit stands for. -/
  exponent : Int
deriving DecidableEq, Repr

/-- Whether the sign bit is set. -/
def isNegative (x : Binary64) : Bool := x.bits.toNat / 2 ^ (63 : Nat) == 1

/-- The exponent field of the encoding. -/
def exponentField (x : Binary64) : Nat := x.bits.toNat / 2 ^ (52 : Nat) % 2 ^ (11 : Nat)

/-- The fraction field of the encoding. -/
def fractionField (x : Binary64) : Nat := x.bits.toNat % 2 ^ (52 : Nat)

/-- Whether the number is neither infinite nor undefined. -/
def isFinite (x : Binary64) : Bool := exponentField x != 2047

/-- Whether the number is undefined. -/
def isUndefined (x : Binary64) : Bool := exponentField x == 2047 && fractionField x != 0

/-- The magnitude of a finite number. -/
def parts (x : Binary64) : Parts :=
  if exponentField x = 0 then ⟨fractionField x, -1074⟩
  else ⟨2 ^ (52 : Nat) + fractionField x, (exponentField x : Int) - 1075⟩

/-- The encoding as sixteen hexadecimal digits. -/
def bitsHex (x : Binary64) : String := String.ofList (hex 16 x.bits.toNat)

/-- The number with a given encoding. -/
def ofBitsHex? (text : String) : Option Binary64 :=
  (text.toList.foldlM (fun n c => (hexValue? c).map (16 * n + ·)) 0).map fun n => ⟨UInt64.ofNat n⟩

/-! ### Arithmetic -/

/-- The undefined number that an operation makes which has no result. -/
def undefined : Binary64 := ⟨0xFFF8000000000000⟩

/-- An undefined number as a result: the first bit of its fraction is set. -/
def quiet (x : Binary64) : Binary64 := ⟨x.bits ||| 0x0008000000000000⟩

/-- An operation on numbers; of undefined operands the first one is the result. -/
def lift (op : Float → Float → Float) (x y : Binary64) : Binary64 :=
  if x.isUndefined then x.quiet
  else if y.isUndefined then y.quiet
  else
    let z := ofFloat (op x.toFloat y.toFloat)
    if z.isUndefined then undefined else z

instance : Add Binary64 := ⟨lift (· + ·)⟩

instance : Sub Binary64 := ⟨lift (· - ·)⟩

instance : Mul Binary64 := ⟨lift (· * ·)⟩

instance : Div Binary64 := ⟨lift (· / ·)⟩

/-! ### Decimals -/

/-- A magnitude as a fraction of two whole numbers. -/
def ratio (units : Nat) (exponent : Int) : Nat × Nat :=
  (units * 2 ^ exponent.toNat, 2 ^ (-exponent).toNat)

/-- The whole number nearest to `n / d`; of two equally near ones the even one. -/
def roundDiv (n d : Nat) : Nat :=
  let q := n / d
  let twice := 2 * (n % d)
  if d < twice ∨ (d = twice ∧ q % 2 = 1) then q + 1 else q

/-- The words for the numbers that have no decimals. -/
def special? (x : Binary64) : Option String :=
  if isFinite x then none
  else if fractionField x != 0 then some "NaN"
  else if isNegative x then some "-inf"
  else some "inf"

/-- The number with a fixed number of decimals, rounded to nearest, a tie to even. -/
def fixed (places : Nat) (x : Binary64) : String :=
  match special? x with
  | some word => word
  | none =>
    let (n, d) := ratio (parts x).units (parts x).exponent
    let scaled := roundDiv (n * 10 ^ places) d
    String.ofList <|
      (if isNegative x then ['-'] else []) ++ decimal (scaled / 10 ^ places) ++ '.' ::
        padded places (scaled % 10 ^ places)

/-! ### The fewest digits that read back -/

/-- The magnitudes that read back as a given number: those between `low` and `high`, which are
given, like the number itself, in quarters of its unit. -/
structure Reach where
  /-- The number itself. -/
  value : Nat
  /-- The halfway point to the number below. -/
  low : Nat
  /-- The halfway point to the number above. -/
  high : Nat
  /-- Whether the halfway points themselves read back. -/
  closed : Bool
  /-- The power of two that a quarter of a unit stands for. -/
  exponent : Int

/-- The reach of a magnitude.  The number below a power of two is only half a unit away, unless it
is below the least exponent. -/
def reach (p : Parts) : Reach :=
  { value := 4 * p.units
    low := 4 * p.units - (if p.units = 2 ^ (52 : Nat) ∧ -1074 < p.exponent then 1 else 2)
    high := 4 * p.units + 2
    closed := p.units % 2 == 0
    exponent := p.exponent - 2 }

/-- A decimal: `digits * 10 ^ exponent`. -/
structure Decimal where
  /-- The digits as a whole number. -/
  digits : Nat
  /-- The power of ten that the last digit stands for. -/
  exponent : Int
deriving DecidableEq, Repr

/-- The grid point of spacing `10 ^ spacing` nearest to the number, if one reads back. -/
def gridPoint? (r : Reach) (spacing : Int) : Option Nat :=
  let (two, one) := ratio 1 r.exponent
  -- `x` quarters are `x * num / den` steps of the grid
  let num := two * 10 ^ (-spacing).toNat
  let den := one * 10 ^ spacing.toNat
  let below := r.value * num / den
  let reads (k : Nat) : Bool :=
    let at_ := k * den
    (r.low * num < at_ && at_ < r.high * num) ||
      (r.closed && (at_ == r.low * num || at_ == r.high * num))
  let nearest := roundDiv (r.value * num) den
  let other := if nearest = below then below + 1 else below
  if reads nearest then some nearest else if reads other then some other else none

/-- The least `e` from `start` on, within `fuel` steps, with the number below `10 ^ e`. -/
def magnitude (n d : Nat) : (fuel : Nat) → (start : Int) → Int
  | 0, e => e
  | fuel + 1, e =>
    if n * 10 ^ (-e).toNat < d * 10 ^ e.toNat then e else magnitude n d fuel (e + 1)

/-- The decimal with the fewest digits that reads back as the magnitude, searched from `count`
digits on. -/
def fewest (r : Reach) (top : Int) : (fuel : Nat) → (count : Nat) → Decimal
  | 0, count => ⟨0, top - count⟩
  | fuel + 1, count =>
    match gridPoint? r (top - count) with
    | some digits => ⟨digits, top - count⟩
    | none => fewest r top fuel (count + 1)

/-- The decimal with the fewest digits that reads back as a magnitude other than zero. -/
def shortestDecimal (p : Parts) : Decimal :=
  let (n, d) := ratio p.units p.exponent
  fewest (reach p) (magnitude n d 640 (-325)) 18 1

/-- A decimal without the zeros at its end. -/
def Decimal.trimmed (digits : Nat) (exponent : Int) : Decimal :=
  if h : digits ≠ 0 ∧ digits % 10 = 0 then Decimal.trimmed (digits / 10) (exponent + 1)
  else ⟨digits, exponent⟩
termination_by digits
decreasing_by omega

/-- A finite number with the fewest digits that read back: positional from `0.00001` up to sixteen
whole digits, with a signed power of ten beyond. -/
def shortest (x : Binary64) : String :=
  let sign := if isNegative x then ['-'] else []
  if (parts x).units = 0 then String.ofList (sign ++ "0.0".toList)
  else
    let found := shortestDecimal (parts x)
    let t := Decimal.trimmed found.digits found.exponent
    let ds := decimal t.digits
    -- the number of digits before the point
    let point : Int := ds.length + t.exponent
    String.ofList <| sign ++
      if 0 ≤ t.exponent ∧ point ≤ 16 then
        ds ++ List.replicate t.exponent.toNat '0' ++ ".0".toList
      else if 0 < point ∧ point ≤ 16 then
        ds.take point.toNat ++ '.' :: ds.drop point.toNat
      else if -5 < point ∧ point ≤ 0 then
        "0.".toList ++ List.replicate (-point).toNat '0' ++ ds
      else
        let sign := if 1 ≤ point then ['+'] else []
        ds.take 1 ++ (if ds.length = 1 then [] else '.' :: ds.drop 1) ++
          'e' :: (sign ++ signed (point - 1))

end Binary64

end RetailReport
