import RetailReport.Calendar.Reader
import RetailReport.Proofs.Calendar.Written

/-!
# Reading written days and moments

A written day is read back, whichever year it is of: the readers accept fewer digits than days are
written with, but never take more than there are, since a hyphen follows.  So is a written moment, with
its fraction of a second, and a leap second at the end of a minute too, which is written as second 60.
Any other second that is held with one billion nanoseconds or more is written as the second after it,
and that is what is read.

## Main definitions

* `Timestamp.Regular`: a leap second ends its minute.
* `Timestamp.carried`: the moment that is read back.

## Main results

* `Calendar.number?_padded`, `Calendar.longNumber?_padded`: numbers of a fixed width.
* `Date.parse?_render`: **a written day is read back**.
* `Timestamp.parse?_render`, `Timestamp.render_eq_iff`: **so is a written moment**, up to `carried`.
-/

namespace RetailReport

-- Powers are those of the core library.
attribute [local instance (high)] instPowNat

open Digits

namespace Text

/-- Digits are not blank. -/
theorem isBlank_of_isDigit {c : Char} (h : isDigit c = true) : isBlank c = false := by
  obtain ⟨hlow, hhigh⟩ := isDigit_iff.1 h
  rw [isBlank, Bool.eq_false_iff]
  intro hblank
  simp only [Bool.or_eq_true, Bool.and_eq_true, decide_eq_true_eq, beq_iff_eq] at hblank
  omega

end Text

namespace Calendar

open Text

theorem skipBlanks_cons {c : Char} (h : isBlank c = false) (cs : List Char) :
    skipBlanks (c :: cs) = c :: cs :=
  List.dropWhile_cons_of_neg (by simp [h])

/-- A number of a fixed width begins with a digit. -/
theorem exists_padded_eq_cons (width n : Nat) :
    ∃ c cs, padded width n = c :: cs ∧ isDigit c = true := by
  have hne : padded width n ≠ [] := by
    rw [padded]
    exact List.append_ne_nil_of_right_ne_nil _ (decimal_ne_nil n)
  obtain ⟨c, cs, hcs⟩ := List.exists_cons_of_ne_nil hne
  exact ⟨c, cs, hcs, isDigit_of_mem_padded (hcs ▸ List.mem_cons_self)⟩

theorem skipBlanks_padded (width n : Nat) (rest : List Char) :
    skipBlanks (padded width n ++ rest) = padded width n ++ rest := by
  obtain ⟨c, cs, hcs, hc⟩ := exists_padded_eq_cons width n
  rw [hcs, List.cons_append, skipBlanks_cons (isBlank_of_isDigit hc)]

theorem padded_ne_nil (width n : Nat) : padded width n ≠ [] := by
  obtain ⟨c, cs, hcs, -⟩ := exists_padded_eq_cons width n
  rw [hcs]
  exact List.cons_ne_nil _ _

theorem takeWhile_padded (width n : Nat) (rest : List Char) :
    (padded width n ++ rest).takeWhile isDigit = padded width n ++ rest.takeWhile isDigit :=
  List.takeWhile_append_of_pos fun _ hc => isDigit_of_mem_padded hc

/-- **A number of a fixed width** is read back. -/
theorem number?_padded {width n : Nat} (h : n < 10 ^ width) (hwidth : 0 < width)
    (rest : List Char) : number? width (padded width n ++ rest) = some (n, rest) := by
  have hlength := length_padded h hwidth
  have hdigits : ((padded width n ++ rest).take width).takeWhile isDigit = padded width n := by
    rw [List.take_left' hlength, ← List.append_nil (padded width n), takeWhile_padded]
    rfl
  have hdrop : (padded width n ++ rest).drop width = rest := List.drop_left' hlength
  have hempty : (padded width n).isEmpty = false := by
    rw [List.isEmpty_eq_false_iff]
    exact padded_ne_nil width n
  simp only [number?, skipBlanks_padded, hdigits, hempty, Bool.false_eq_true, if_false,
    value_padded, hlength, hdrop]

/-- So is a number without a bound on its digits, if a hyphen follows. -/
theorem longNumber?_padded (width n : Nat) (rest : List Char) :
    longNumber? (padded width n ++ '-' :: rest) = some (n, '-' :: rest) := by
  have htake : (padded width n ++ '-' :: rest).takeWhile isDigit = padded width n := by
    rw [takeWhile_padded, List.takeWhile_cons_of_neg (by decide), List.append_nil]
  have hempty : (padded width n).isEmpty = false := by
    rw [List.isEmpty_eq_false_iff]
    exact padded_ne_nil width n
  simp only [longNumber?, htake, hempty, Bool.false_eq_true, if_false, value_padded,
    List.drop_left]

theorem mark?_cons {c : Char} (h : isBlank c = false) (rest : List Char) :
    mark? c (c :: rest) = some rest := by
  rw [mark?, skipBlanks_cons h]
  exact if_pos rfl

/-- **A year is read back**, with its sign or without one. -/
theorem year?_renderYear (year : Int) (rest : List Char) :
    year? (Date.renderYear year ++ '-' :: rest) = some (year, '-' :: rest) := by
  unfold Date.renderYear
  split
  · next hplain =>
    have hvalue : (year.natAbs : Int) = year := by omega
    have hnumber : number? 4 (padded 4 year.natAbs ++ '-' :: rest) =
        some (year.natAbs, '-' :: rest) := number?_padded (by omega) (by decide) _
    obtain ⟨c, cs, hcs, hc⟩ := exists_padded_eq_cons 4 year.natAbs
    unfold year?
    rw [skipBlanks_padded]
    -- The first character is a digit, so it is no sign.
    split
    · next heq =>
      rw [hcs, List.cons_append, List.cons.injEq] at heq
      rw [heq.1] at hc
      cases hc
    · next heq =>
      rw [hcs, List.cons_append, List.cons.injEq] at heq
      rw [heq.1] at hc
      cases hc
    · simp only [hnumber, Option.map_some, hvalue]
  · next hsigned =>
    by_cases hneg : year < 0
    · have hvalue : -(year.natAbs : Int) = year := by omega
      rw [if_pos hneg, List.cons_append, year?, skipBlanks_cons (by decide)]
      simp only [longNumber?_padded, Option.map_some, hvalue]
    · have hvalue : (year.natAbs : Int) = year := by omega
      rw [if_neg hneg, List.cons_append, year?, skipBlanks_cons (by decide)]
      simp only [longNumber?_padded, Option.map_some, hvalue]

theorem date?_renderChars (d : Date) (rest : List Char) :
    date? (d.renderChars ++ rest) = some (d, rest) := by
  have hday : Date.ofYmd? d.year d.month d.day = some d := dif_pos d.valid
  have hmonth : number? 2 (padded 2 d.month ++ '-' :: (padded 2 d.day ++ rest)) =
      some (d.month, '-' :: (padded 2 d.day ++ rest)) :=
    number?_padded d.month_lt (by decide) _
  rw [Date.renderChars, List.append_assoc, List.append_assoc, List.cons_append, List.cons_append,
    date?, year?_renderYear]
  simp only [Option.bind_eq_bind, Option.bind_some, mark?_cons (c := '-') (by decide), hmonth,
    number?_padded d.day_lt (by decide), hday, Option.pure_def]

end Calendar

/-- **A written day is read back.** -/
theorem Date.parse?_render (d : Date) : Date.parse? d.render = some d := by
  have hread := Calendar.date?_renderChars d []
  rw [List.append_nil] at hread
  rw [Date.parse?, Date.render, String.toList_ofList, hread]
  rfl

/-! ### Moments -/

namespace Timestamp

/-- A leap second is the last second of its minute. -/
def Regular (t : Timestamp) : Prop := 1000000000 ≤ t.nano → t.second % 60 = 59

/-- **The moment that is read back**: a second with one billion nanoseconds or more is the second after
it, unless a minute ends there. -/
def carried (t : Timestamp) : Timestamp :=
  if h : 1000000000 ≤ t.nano ∧ t.second % 60 ≠ 59 then
    ⟨t.date, t.second + 1, t.nano - 1000000000, by have := t.valid; omega⟩
  else t

theorem regular_carried (t : Timestamp) : t.carried.Regular := by
  have hnano := t.valid.2
  by_cases h : 1000000000 ≤ t.nano ∧ t.second % 60 ≠ 59
  · intro hcarried
    rw [carried, dif_pos h] at hcarried
    dsimp only at hcarried
    omega
  · rw [carried, dif_neg h]
    exact fun hnano => Decidable.not_not.1 fun hsecond => h ⟨hnano, hsecond⟩

/-- **The regular moments are read back as they are.** -/
theorem carried_eq_self_iff (t : Timestamp) : t.carried = t ↔ t.Regular := by
  refine ⟨fun h => h ▸ t.regular_carried, fun h => dif_neg fun hsecond => ?_⟩
  exact hsecond.2 (h hsecond.1)

/-- A moment and the one that is read back are written alike. -/
theorem renderTime_carried (t : Timestamp) : t.carried.renderTime = t.renderTime := by
  by_cases h : 1000000000 ≤ t.nano ∧ t.second % 60 ≠ 59
  · have hnano := t.valid.2
    have hhour : (t.second + 1) / 3600 = t.second / 3600 := by omega
    have hminute : (t.second + 1) / 60 % 60 = t.second / 60 % 60 := by omega
    have hsecond : (t.second + 1) % 60 + (t.nano - 1000000000) / 1000000000 =
        t.second % 60 + t.nano / 1000000000 := by omega
    have hfraction : (t.nano - 1000000000) % 1000000000 = t.nano % 1000000000 := by omega
    rw [carried, dif_pos h]
    unfold renderTime hour
    dsimp only
    rw [hhour, hminute, hsecond, hfraction]
  · rw [carried, dif_neg h]

theorem date_carried (t : Timestamp) : t.carried.date = t.date := by
  by_cases h : 1000000000 ≤ t.nano ∧ t.second % 60 ≠ 59
  · rw [carried, dif_pos h]
  · rw [carried, dif_neg h]

theorem render_carried (t : Timestamp) : t.carried.render = t.render := by
  rw [render, render, renderChars, renderChars, renderTime_carried, date_carried]

end Timestamp

namespace Calendar

/-- Decimals of a second are read back with the zeros that were left out. -/
theorem fraction?_padded {width n : Nat} (h : n < 10 ^ width) (hwidth : 0 < width)
    (hshort : width ≤ 9) :
    fraction? ('.' :: padded width n) = some (n * 10 ^ (9 - width), []) := by
  have hlength := length_padded h hwidth
  have hdigits : (padded width n).takeWhile isDigit = padded width n := by
    rw [← List.append_nil (padded width n), takeWhile_padded]
    rfl
  have hempty : (padded width n).isEmpty = false :=
    List.isEmpty_eq_false_iff.2 (padded_ne_nil width n)
  have hcounted : (padded width n).take 9 = padded width n :=
    List.take_of_length_le (by omega)
  have hrest : (padded width n).drop width = [] := List.drop_of_length_le (Nat.le_of_eq hlength)
  simp only [fraction?, hdigits, hempty, Bool.false_eq_true, if_false, hcounted, value_padded,
    hlength, hrest]

/-- **A fraction of a second** is read back. -/
theorem fraction?_renderFraction {nano : Nat} (h : nano < 1000000000) :
    fraction? (Timestamp.renderFraction nano) = some (nano, []) := by
  have hexact {width n : Nat} (hn : n < 10 ^ width) (hwidth : 0 < width) (hshort : width ≤ 9)
      (hnano : n * 10 ^ (9 - width) = nano) :
      fraction? ('.' :: padded width n) = some (nano, []) := by
    rw [fraction?_padded hn hwidth hshort, hnano]
  unfold Timestamp.renderFraction
  split
  · next hzero =>
    rw [hzero]
    rfl
  · split
    · exact hexact (by omega) (by decide) (by decide) (by omega)
    · split
      · exact hexact (by omega) (by decide) (by decide) (by omega)
      · exact hexact h (by decide) (by decide) (Nat.mul_one nano)

/-- **A time of day** is read back; second 60 is the leap second after second 59. -/
theorem time?_renderTime {t : Timestamp} (hregular : t.Regular) :
    time? t.renderTime = some (t.second, t.nano, []) := by
  obtain ⟨hsecond, hnano⟩ := t.valid
  have hhour : t.hour < 10 ^ (2 : Nat) := by
    unfold Timestamp.hour
    omega
  have hminute : t.second / 60 % 60 < 10 ^ (2 : Nat) := by omega
  have hwritten : t.second % 60 + t.nano / 1000000000 < 10 ^ (2 : Nat) := by omega
  have hfraction := fraction?_renderFraction (Nat.mod_lt t.nano (by decide : 0 < 1000000000))
  have hwithin : ¬(23 < t.hour ∨ 59 < t.second / 60 % 60 ∨
      60 < t.second % 60 + t.nano / 1000000000) := by
    have := hregular
    unfold Timestamp.Regular at this
    unfold Timestamp.hour
    omega
  simp only [time?, Timestamp.renderTime, List.append_assoc, List.cons_append,
    number?_padded hhour (by decide), number?_padded hminute (by decide),
    number?_padded hwritten (by decide), mark?_cons (c := ':') (by decide), hfraction,
    Option.bind_eq_bind, Option.bind_some, if_neg hwithin]
  have hparts : t.hour * 3600 + t.second / 60 % 60 * 60 + t.second % 60 = t.second := by
    unfold Timestamp.hour
    omega
  -- Only a leap second is written as second 60, and it is the last one of its minute.
  by_cases h : 1000000000 ≤ t.nano
  · have hbillion : 1000000000 + t.nano % 1000000000 = t.nano := by omega
    rw [hregular h] at hparts ⊢
    rw [if_pos (by omega), hparts, hbillion]
  · have hless : t.nano < 1000000000 := Nat.lt_of_not_le h
    rw [Nat.div_eq_of_lt hless, Nat.add_zero, if_neg (by omega), hparts, Nat.mod_eq_of_lt hless]

end Calendar

/-- **A written moment is read back**, a leap second within a minute as the second after it. -/
theorem Timestamp.parse?_render (t : Timestamp) : Timestamp.parse? t.render = some t.carried := by
  rw [← render_carried, Timestamp.parse?, Timestamp.render, String.toList_ofList,
    Timestamp.renderChars, Calendar.date?_renderChars]
  simp only [Option.bind_eq_bind, Option.bind_some, Calendar.mark?_cons (c := 'T') (by decide),
    Calendar.time?_renderTime t.regular_carried]
  exact dif_pos t.carried.valid

/-- **Two moments have the same text** exactly if they are read back as the same moment. -/
theorem Timestamp.render_eq_iff {t u : Timestamp} : t.render = u.render ↔ t.carried = u.carried := by
  refine ⟨fun h => ?_, fun h => ?_⟩
  · exact Option.some.inj ((parse?_render t).symm.trans (h ▸ parse?_render u))
  · rw [← render_carried t, h, render_carried]

end RetailReport
