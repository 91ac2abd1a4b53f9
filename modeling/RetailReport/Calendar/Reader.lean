import RetailReport.Calendar.Timestamp
import RetailReport.Text.Blank

/-!
# Reading dates and moments

Dates and moments are read leniently: numbers may have fewer digits than they are written with,
blanks may stand before a number and before and after the marks between numbers, and a fraction of a
second may have any number of digits, of which nine count.  A year has at most four digits unless it
has a sign.

## Main definitions

* `Date.parse?`, `Timestamp.parse?`.
-/

namespace RetailReport.Calendar

-- Powers are those of the core library.
attribute [local instance (high)] instPowNat

open Text Digits

/-- The rest of a text after blanks. -/
def skipBlanks (cs : List Char) : List Char := cs.dropWhile isBlank

/-- At least one and at most `width` digits, after blanks: their value and the rest. -/
def number? (width : Nat) (cs : List Char) : Option (Nat × List Char) :=
  let cs := skipBlanks cs
  let digits := (cs.take width).takeWhile isDigit
  if digits.isEmpty then none else some (value digits, cs.drop digits.length)

/-- Any number of digits, but at least one. -/
def longNumber? (cs : List Char) : Option (Nat × List Char) :=
  let digits := cs.takeWhile isDigit
  if digits.isEmpty then none else some (value digits, cs.drop digits.length)

/-- A year: up to four digits, or a sign and any number of digits. -/
def year? (cs : List Char) : Option (Int × List Char) :=
  match skipBlanks cs with
  | '-' :: rest => (longNumber? rest).map fun (n, rest) => (-(n : Int), rest)
  | '+' :: rest => (longNumber? rest).map fun (n, rest) => ((n : Int), rest)
  | rest => (number? 4 rest).map fun (n, rest) => ((n : Int), rest)

/-- A mark that has to follow, after blanks. -/
def mark? (c : Char) (cs : List Char) : Option (List Char) :=
  match skipBlanks cs with
  | c' :: rest => if c' = c then some rest else none
  | [] => none

/-- A date at the start of a text, and the rest of the text. -/
def date? (cs : List Char) : Option (Date × List Char) := do
  let (year, cs) ← year? cs
  let cs ← mark? '-' cs
  let (month, cs) ← number? 2 cs
  let cs ← mark? '-' cs
  let (day, cs) ← number? 2 cs
  let date ← Date.ofYmd? year month day
  return (date, cs)

/-- A fraction of a second in nanoseconds, if a point follows: nine digits count, more are skipped. -/
def fraction? (cs : List Char) : Option (Nat × List Char) :=
  match cs with
  | '.' :: rest =>
    let digits := rest.takeWhile isDigit
    if digits.isEmpty then none
    else
      let counted := digits.take 9
      some (value counted * 10 ^ (9 - counted.length), rest.drop digits.length)
  | _ => some (0, cs)

/-- A time of day at the start of a text: second of the day, nanoseconds, and the rest.  Second 60
is the leap second after second 59. -/
def time? (cs : List Char) : Option (Nat × Nat × List Char) := do
  let (hour, cs) ← number? 2 cs
  let cs ← mark? ':' cs
  let (minute, cs) ← number? 2 cs
  let cs ← mark? ':' cs
  let (second, cs) ← number? 2 cs
  let (nano, cs) ← fraction? cs
  if 23 < hour ∨ 59 < minute ∨ 60 < second then none
  else if second = 60 then
    some (hour * 3600 + minute * 60 + 59, 1000000000 + nano, cs)
  else some (hour * 3600 + minute * 60 + second, nano, cs)

end RetailReport.Calendar

namespace RetailReport

open Calendar

/-- Reads a date. -/
def Date.parse? (text : String) : Option Date :=
  match date? text.toList with
  | some (date, rest) => if (skipBlanks rest).isEmpty then some date else none
  | none => none

/-- Reads a moment, with `T` between date and time. -/
def Timestamp.parse? (text : String) : Option Timestamp := do
  let (date, rest) ← date? text.toList
  let rest ← mark? 'T' rest
  let (second, nano, rest) ← time? rest
  if (skipBlanks rest).isEmpty then Timestamp.of? date second nano else none

end RetailReport
