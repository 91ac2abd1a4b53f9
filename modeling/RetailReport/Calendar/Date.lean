import RetailReport.KeyOrder
import RetailReport.Text.Digits

/-!
# Dates

A `Date` is a day of the proleptic Gregorian calendar, between the years -262143 and 262142.  Dates
are ordered as days, written as `YYYY-MM-DD` with a signed year outside of 0 to 9999, and numbered
from 1970-01-01.

## Main definitions

* `Date`, `Date.ofYmd?`: a year, month and day that exist.
* `Date.render`: the written form; `Date.renderMonth`: that of its month.
* `Date.dayNumber`, `Date.ofDayNumber?`: days counted from 1970-01-01.
-/

namespace RetailReport

namespace Calendar

/-- Whether a year has a 29th of February. -/
def isLeapYear (year : Int) : Bool :=
  year % 4 == 0 && (year % 100 != 0 || year % 400 == 0)

/-- How many days a month has; zero for a number that is no month. -/
def daysInMonth (year : Int) (month : Nat) : Nat :=
  match month with
  | 1 | 3 | 5 | 7 | 8 | 10 | 12 => 31
  | 4 | 6 | 9 | 11 => 30
  | 2 => if isLeapYear year then 29 else 28
  | _ => 0

/-- Whether a year, month and day name a day of the calendar. -/
def Exists (year : Int) (month day : Nat) : Prop :=
  -262143 ≤ year ∧ year ≤ 262142 ∧ 1 ≤ day ∧ day ≤ daysInMonth year month

instance (year : Int) (month day : Nat) : Decidable (Exists year month day) :=
  inferInstanceAs (Decidable (_ ∧ _ ∧ _ ∧ _))

end Calendar

open Calendar in
/-- A day of the calendar. -/
structure Date where
  /-- The year, zero being the year before year one. -/
  year : Int
  /-- The month, from 1. -/
  month : Nat
  /-- The day of the month, from 1. -/
  day : Nat
  /-- The day exists. -/
  valid : Exists year month day := by decide
deriving DecidableEq, Repr

namespace Date

open Calendar Digits

/-- The first of January 1970. -/
def epoch : Date := ⟨1970, 1, 1, by decide⟩

instance : Inhabited Date := ⟨epoch⟩

/-- The day of a year, month and day, if it exists. -/
def ofYmd? (year : Int) (month day : Nat) : Option Date :=
  if h : Exists year month day then some ⟨year, month, day, h⟩ else none

/-! ### Order -/

/-- Year, month and day, which compare like the days. -/
def parts (d : Date) : List Int := [d.year, d.month, d.day]

instance : LT Date := ⟨fun a b => a.parts < b.parts⟩

theorem eq_of_parts_eq {a b : Date} (h : a.parts = b.parts) : a = b := by
  cases a; cases b
  simp only [parts, List.cons.injEq, Int.natCast_inj, and_true] at h
  obtain ⟨rfl, rfl, rfl⟩ := h
  rfl

instance : KeyOrder Date := KeyOrder.byKey parts (fun _ _ => Iff.rfl) eq_of_parts_eq

instance : DecidableLT Date := KeyOrder.decLt

/-- Whether `a` is not after `b`. -/
def le (a b : Date) : Bool := !decide (b < a)

/-! ### Written form -/

/-- A year with four digits, or signed with at least four if it is not in 0 to 9999. -/
def renderYear (year : Int) : List Char :=
  if 0 ≤ year ∧ year ≤ 9999 then padded 4 year.natAbs
  else (if year < 0 then '-' else '+') :: padded 4 year.natAbs

/-- The month of the day, as `YYYY-MM`. -/
def renderMonth (d : Date) : String :=
  String.ofList (renderYear d.year ++ '-' :: padded 2 d.month)

/-- The characters of the written form. -/
def renderChars (d : Date) : List Char :=
  renderYear d.year ++ '-' :: padded 2 d.month ++ '-' :: padded 2 d.day

/-- The day, as `YYYY-MM-DD`. -/
def render (d : Date) : String := String.ofList d.renderChars

/-! ### Numbering of the days

The year is counted from March here, so that a leap day is the last day of its year, and in eras of
400 years, which all have the same 146097 days. -/

/-- Days since 1970-01-01. -/
def dayNumber (d : Date) : Int :=
  let year := if d.month ≤ 2 then d.year - 1 else d.year
  let era := year / 400
  let yearOfEra := year % 400
  let monthFromMarch := (d.month + 9) % 12
  let dayOfYear := (153 * (monthFromMarch : Int) + 2) / 5 + d.day - 1
  let dayOfEra := yearOfEra * 365 + yearOfEra / 4 - yearOfEra / 100 + dayOfYear
  era * 146097 + dayOfEra - 719468

/-- The day with a given number, if the calendar reaches that far. -/
def ofDayNumber? (n : Int) : Option Date :=
  let z := n + 719468
  let era := z / 146097
  let dayOfEra := z % 146097
  let yearOfEra := (dayOfEra - dayOfEra / 1460 + dayOfEra / 36524 - dayOfEra / 146096) / 365
  let dayOfYear := dayOfEra - (365 * yearOfEra + yearOfEra / 4 - yearOfEra / 100)
  let monthFromMarch := (5 * dayOfYear + 2) / 153
  let day := dayOfYear - (153 * monthFromMarch + 2) / 5 + 1
  let month := if monthFromMarch < 10 then monthFromMarch + 3 else monthFromMarch - 9
  let year := yearOfEra + era * 400 + (if month ≤ 2 then 1 else 0)
  ofYmd? year month.toNat day.toNat

end Date

end RetailReport
