import RetailReport.Calendar.Date

/-!
# Moments of local time

A `Timestamp` is a date with a time of day to the nanosecond.  A minute may end in a leap second,
which is held as the second before it with a nanosecond part of one billion or more, and written as
second 60.  Any other second may be held like this, too; then it is written as the second after it,
like the ordinary moment with that second.

## Main definitions

* `Timestamp`, `Timestamp.hour`.
* `Timestamp.render`, `Timestamp.renderSpaced`: the written form, with `T` or a blank in the middle.
* `Timestamp.nanos`, `Timestamp.ofNanos?`: nanoseconds since 1970-01-01.  A leap second has the same
  count as the second after it, so the count does not give it back.
-/

namespace RetailReport

/-- A date with a time of day. -/
structure Timestamp where
  /-- The day. -/
  date : Date
  /-- Seconds since midnight. -/
  second : Nat
  /-- Nanoseconds since that second, one billion more in a leap second. -/
  nano : Nat
  /-- There is such a time of day.  That only the last second of a minute is a leap second is not asked
  for. -/
  valid : second < 86400 ∧ nano < 2000000000 := by decide
deriving DecidableEq, Repr

namespace Timestamp

open Digits

instance : Inhabited Timestamp := ⟨⟨Date.epoch, 0, 0, by decide⟩⟩

/-- The moment at a second and nanosecond of a day, if there is one. -/
def of? (date : Date) (second nano : Nat) : Option Timestamp :=
  if h : second < 86400 ∧ nano < 2000000000 then some ⟨date, second, nano, h⟩ else none

/-- The hour of the day. -/
def hour (t : Timestamp) : Nat := t.second / 3600

/-- The hour of the day with two digits. -/
def renderHour (t : Timestamp) : String := String.ofList (padded 2 t.hour)

/-! ### Written form -/

/-- A fraction of a second with 3, 6 or 9 decimals, as few as are exact; nothing if there is none. -/
def renderFraction (nano : Nat) : List Char :=
  if nano = 0 then []
  else if nano % 1000000 = 0 then '.' :: padded 3 (nano / 1000000)
  else if nano % 1000 = 0 then '.' :: padded 6 (nano / 1000)
  else '.' :: padded 9 nano

/-- The time of day as `HH:MM:SS` with a fraction; a leap second has the number after its own, which is
60 at the end of a minute. -/
def renderTime (t : Timestamp) : List Char :=
  padded 2 t.hour ++ ':' :: padded 2 (t.second / 60 % 60) ++ ':' ::
    padded 2 (t.second % 60 + t.nano / 1000000000) ++ renderFraction (t.nano % 1000000000)

/-- The characters of the written form. -/
def renderChars (t : Timestamp) : List Char := t.date.renderChars ++ 'T' :: t.renderTime

/-- The written form, with `T` between date and time. -/
def render (t : Timestamp) : String := String.ofList t.renderChars

/-- The written form with a blank between date and time, as messages show it. -/
def renderSpaced (t : Timestamp) : String :=
  String.ofList (t.date.renderChars ++ ' ' :: t.renderTime)

/-! ### Nanoseconds since 1970-01-01 -/

/-- Nanoseconds since 1970-01-01. -/
def nanos (t : Timestamp) : Int :=
  (t.date.dayNumber * 86400 + t.second) * 1000000000 + t.nano

/-- The moment with a given count of nanoseconds, if the calendar reaches that far. -/
def ofNanos? (n : Int) : Option Timestamp :=
  let seconds := n / 1000000000
  (Date.ofDayNumber? (seconds / 86400)).bind fun date =>
    of? date (seconds % 86400).toNat (n % 1000000000).toNat

end Timestamp

end RetailReport
