import RetailReport.Amount.Basic
import RetailReport.Text.Blank
import RetailReport.Text.Digits

/-!
# The written form of an amount

An amount is written with its sign, its whole units and at least two, at most four decimals: a
third and fourth decimal are dropped while they are zeros.  It is read more liberally: blanks around
it, a plus sign, leading zeros, a missing whole part or a missing fraction are all accepted, but
never more than four decimals.

The sign is applied last, so a text whose digits stand for `2 ^ 63` is out of range under either
sign, although the least amount is `-2 ^ 63`.

## Main definitions

* `Amount.render`: the written form.
* `Amount.parse`: reads a text, or says with an `AmountError` why it is none.
-/

namespace RetailReport

-- Powers are those of the core library.
attribute [local instance (high)] instPowNat

/-- Why a text is not an amount.  Each cause but the first carries the text without its blanks. -/
inductive AmountError where
  /-- There is nothing but blanks. -/
  | empty
  /-- The text is not a decimal number. -/
  | invalid (text : String)
  /-- There are more than four decimals. -/
  | tooPrecise (text : String)
  /-- The number is too large. -/
  | outOfRange (text : String)
deriving DecidableEq, Repr

/-- The wording of an error. -/
def AmountError.message : AmountError → String
  | .empty => "empty amount"
  | .invalid text => "invalid amount '" ++ text ++ "'"
  | .tooPrecise text => "amount '" ++ text ++ "' has more than 4 fractional digits"
  | .outOfRange text => "amount '" ++ text ++ "' out of range"

/-- The name of an error, whatever its wording. -/
def AmountError.code : AmountError → String
  | .empty => "Empty"
  | .invalid _ => "Invalid"
  | .tooPrecise _ => "TooPrecise"
  | .outOfRange _ => "OutOfRange"

namespace Amount

open Text Digits

/-! ### Writing -/

/-- Four decimals without the zeros that may be dropped: only the third and the fourth may. -/
def trimDecimals : List Char → List Char
  | [a, b, '0', '0'] => [a, b]
  | [a, b, c, '0'] => [a, b, c]
  | cs => cs

/-- The written form: sign, whole units, and two to four decimals. -/
def render (a : Amount) : String :=
  String.ofList <|
    (if a.raw < 0 then ['-'] else []) ++ decimal (a.raw.natAbs / scale) ++ '.' ::
      trimDecimals (padded 4 (a.raw.natAbs % scale))

/-! ### Reading -/

/-- A sign in front of a number: whether it is a minus, and what follows it. -/
def splitSign : List Char → Bool × List Char
  | '-' :: cs => (true, cs)
  | '+' :: cs => (false, cs)
  | cs => (false, cs)

/-- The text before the first point and the text after it, which is empty if there is no point. -/
def splitPoint (cs : List Char) : List Char × List Char :=
  (cs.takeWhile (· != '.'), (cs.dropWhile (· != '.')).drop 1)

/-- Reads an amount. -/
def parse (text : String) : Except AmountError Amount :=
  let body := trim text.toList
  if body.isEmpty then .error .empty
  else
    let shown := String.ofList body
    let (negative, digits) := splitSign body
    let (whole, fraction) := splitPoint digits
    if whole.isEmpty && fraction.isEmpty then .error (.invalid shown)
    else if !(whole.all isDigit && fraction.all isDigit) then .error (.invalid shown)
    else if 4 < fraction.length then .error (.tooPrecise shown)
    else
      let magnitude := value whole * scale + value fraction * 10 ^ (4 - fraction.length)
      if h : magnitude ≤ 9223372036854775807 then
        .ok ⟨if negative then -(magnitude : Int) else magnitude, by split <;> omega, by split <;> omega⟩
      else .error (.outOfRange shown)

end Amount

end RetailReport
