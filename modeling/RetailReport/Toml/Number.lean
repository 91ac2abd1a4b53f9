import RetailReport.Calendar.Date
import RetailReport.Toml.Basic
import RetailReport.Toml.Text

/-!
# Numbers and moments in TOML

A decimal number may have a sign, a fraction, an exponent, and underscores between digits, but no
leading zero.  Numbers in base 16, 8 and 2 have neither sign nor fraction.  Integers fit a signed
64-bit word.  A float is the one nearest to its decimal form; one that would be positive infinity is
refused.

A moment is a date, a time of day, or both with an optional offset.

## Main definitions

* `Toml.integer?`, `Toml.float?`, `Toml.moment?`.
* `Toml.numeric?`: any of them.
-/

namespace RetailReport.Toml

-- Powers are those of the core library.
attribute [local instance (high)] instPowNat

open Digits

/-! ### Digits -/

/-- The digits of some base with single underscores between them, without the underscores, in
reverse order behind `acc`. -/
def digitsFrom (isDigit : Char → Bool) (acc : List Char) : Reader (List Char)
  | '_' :: c :: rest => if isDigit c then digitsFrom isDigit (c :: acc) rest else none
  | c :: rest =>
    if c = '_' then none
    else if isDigit c then digitsFrom isDigit (c :: acc) rest
    else some (acc, c :: rest)
  | [] => some (acc, [])

/-- At least one digit, with single underscores in between. -/
def digits? (isDigit : Char → Bool) : Reader (List Char)
  | c :: rest =>
    if isDigit c then (digitsFrom isDigit [c] rest).map fun (acc, rest) => (acc.reverse, rest)
    else none
  | [] => none

/-- A sign, and whether it is a minus sign. -/
def sign : List Char → Bool × List Char
  | '-' :: rest => (true, rest)
  | '+' :: rest => (false, rest)
  | cs => (false, cs)

/-- The digits of a decimal number: a zero, or digits that start with another one. -/
def wholeDigits? : Reader (List Char)
  | '0' :: rest => some (['0'], rest)
  | cs => digits? isDigit cs

/-! ### Integers -/

/-- Digits of some base as a number that fits a signed word. -/
def wordOfBase? (base : Nat) (digits : List Char) : Option Nat := do
  let n ← digits.foldlM (fun n c => (hexValue? c).map (base * n + ·)) 0
  if n < 2 ^ (63 : Nat) then return n else none

/-- An integer of some base, after the two characters that name the base. -/
def based? (base : Nat) (isDigit : Char → Bool) : Reader Toml := fun cs => do
  let (digits, rest) ← digits? isDigit cs
  let n ← wordOfBase? base digits
  return (.int n, rest)

/-- A decimal integer. -/
def decimal? : Reader Toml := fun cs => do
  let (negative, cs) := sign cs
  let (digits, rest) ← wholeDigits? cs
  let n := value digits
  let i : Int := if negative then -n else n
  if -2 ^ (63 : Nat) ≤ i ∧ i < 2 ^ (63 : Nat) then return (.int i, rest) else none

/-- An integer. -/
def integer? : Reader Toml
  | '0' :: 'x' :: rest => based? 16 (fun c => (hexValue? c).isSome) rest
  | '0' :: 'o' :: rest => based? 8 (fun c => '0' ≤ c && c ≤ '7') rest
  | '0' :: 'b' :: rest => based? 2 (fun c => c == '0' || c == '1') rest
  | cs => decimal? cs

/-! ### Floats -/

/-- The digits after a point, if there is one. -/
def fraction? : Reader (Option (List Char))
  | '.' :: rest => (digits? isDigit rest).map fun (ds, rest) => (some ds, rest)
  | cs => some (none, cs)

/-- The exponent after its letter, if there is one. -/
def exponent? : Reader (Option Int)
  | 'e' :: rest | 'E' :: rest => do
    let (negative, rest) := sign rest
    let (ds, rest) ← digits? isDigit rest
    let n : Int := value ds
    return (some (if negative then -n else n), rest)
  | cs => some (none, cs)

/-- The float nearest to a whole number, given by its digits, times a power of ten.  The digit before
which the point stands tells numbers that are far out of range. -/
def nearestFloat (digits : List Char) (exponent : Int) : Float :=
  let digits := digits.dropWhile (· == '0')
  let point := exponent + digits.length
  if digits.isEmpty || point < -400 then 0.0
  else if 400 < point then 1.0 / 0.0
  else Float.ofScientific (value digits) (exponent < 0) exponent.natAbs

/-- A number with a fraction or an exponent. -/
def decimalFloat? : Reader Toml := fun cs => do
  let (negative, cs) := sign cs
  let (whole, cs) ← wholeDigits? cs
  let (fraction, cs) ← fraction? cs
  let (exponent, rest) ← exponent? cs
  if fraction.isNone && exponent.isNone then none
  let decimals := fraction.getD []
  let size := nearestFloat (whole ++ decimals) (exponent.getD 0 - decimals.length)
  if size.isInf && !negative then none
  return (.float (if negative then -size else size), rest)

/-- The text after a word, if it starts with it. -/
def word? (word : String) (cs : List Char) : Option (List Char) :=
  if word.toList.isPrefixOf cs then some (cs.drop word.length) else none

/-- Infinity or the undefined number. -/
def specialFloat? : Reader Toml := fun cs =>
  let (negative, cs) := sign cs
  let size? : Option (Float × List Char) :=
    ((word? "inf" cs).map fun rest => (1.0 / 0.0, rest)).or
      ((word? "nan" cs).map fun rest => (0.0 / 0.0, rest))
  size?.map fun (x, rest) => (.float (if negative then -x else x), rest)

/-- A float. -/
def float? : Reader Toml := fun cs => (decimalFloat? cs).or (specialFloat? cs)

/-! ### Moments -/

/-- A number of exactly `width` digits between two bounds. -/
def fixed? (width low high : Nat) : Reader Nat := fun cs =>
  let ds := cs.take width
  if ds.length = width ∧ ds.all isDigit ∧ low ≤ value ds ∧ value ds ≤ high then
    some (value ds, cs.drop width)
  else none

/-- The text after a mark, if it starts with it. -/
def mark? (mark : Char) : List Char → Option (List Char)
  | c :: rest => if c = mark then some rest else none
  | [] => none

/-- The text after a date. -/
def date? (cs : List Char) : Option (List Char) := do
  let (year, cs) ← fixed? 4 0 9999 cs
  let cs ← mark? '-' cs
  let (month, cs) ← fixed? 2 1 12 cs
  let cs ← mark? '-' cs
  let (_, cs) ← fixed? 2 1 (Calendar.daysInMonth year month) cs
  return cs

/-- The text after a time of day. -/
def time? (cs : List Char) : Option (List Char) := do
  let (_, cs) ← fixed? 2 0 23 cs
  let cs ← mark? ':' cs
  let (_, cs) ← fixed? 2 0 59 cs
  let cs ← mark? ':' cs
  let (_, cs) ← fixed? 2 0 60 cs
  match cs with
  | '.' :: rest =>
    let decimals := rest.takeWhile isDigit
    if decimals.isEmpty then none else return rest.drop decimals.length
  | cs => return cs

/-- The text after an offset, if there is one. -/
def offset? (cs : List Char) : Option (List Char) :=
  match cs with
  | 'Z' :: rest | 'z' :: rest => some rest
  | '+' :: rest | '-' :: rest => do
    let (_, rest) ← fixed? 2 0 23 rest
    let rest ← mark? ':' rest
    let (_, rest) ← fixed? 2 0 59 rest
    return rest
  | cs => some cs

/-- The text after a time of day and an offset that may follow a date. -/
def timeAfterDate? (cs : List Char) : Option (List Char) :=
  match cs with
  | 'T' :: rest | 't' :: rest => (time? rest).bind offset?
  | ' ' :: rest => if (fixed? 2 0 23 rest).isSome then (time? rest).bind offset? else some cs
  | cs => some cs

/-- A date, a time of day, or both. -/
def moment? : Reader Toml := fun cs =>
  ((date? cs).bind timeAfterDate?).or (time? cs) |>.map fun rest =>
    (.moment (String.ofList (cs.take (cs.length - rest.length))), rest)

/-- A number or a moment. -/
def numeric? : Reader Toml := fun cs => (moment? cs).or ((float? cs).or (integer? cs))

end RetailReport.Toml
