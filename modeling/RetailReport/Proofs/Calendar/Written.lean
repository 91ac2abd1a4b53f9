import RetailReport.Calendar.Timestamp

/-!
# The order of written days

Days of the years 0 to 9999 are written with four digits for the year and two each for the month and
the day, so their texts come in the order of the days.  A day of another year begins with a sign,
and signs come before digits: so the text of such a day comes before all texts without a sign, which
is wrong if the day comes after year 9999.

## Main results

* `Digits.padded_lt_padded_iff`: numbers of one width.
* `Date.render_lt_render_iff`: days of the years 0 to 9999.
* `Date.render_lt_render_of_signed`: a day of another year.
* `Timestamp.isPlain_of_nanos`: a moment that a 64-bit count of nanoseconds can hold.
-/

namespace RetailReport

-- Powers are those of the core library.
attribute [local instance (high)] instPowNat

/-! ### Digit strings of one length -/

namespace Digits

theorem isDigit_iff {c : Char} : isDigit c = true ↔ 48 ≤ c.toNat ∧ c.toNat ≤ 57 := by
  rw [isDigit, Bool.and_eq_true, decide_eq_true_eq, decide_eq_true_eq, Char.le_def, Char.le_def,
    UInt32.le_iff_toNat_le, UInt32.le_iff_toNat_le]
  exact Iff.rfl

/-- A hyphen comes before all digits. -/
theorem minus_lt_of_isDigit {c : Char} (h : isDigit c = true) : '-' < c :=
  UInt32.lt_iff_toNat_lt.2 (Nat.lt_of_lt_of_le (by decide : 45 < 48) (isDigit_iff.1 h).1)

theorem digitValue_lt {c : Char} (h : isDigit c = true) : digitValue c < 10 := by
  have hc := isDigit_iff.1 h
  unfold digitValue
  simp only [Char.reduceToNat]
  omega

theorem digit_lt_iff {c d : Char} (hc : isDigit c = true) (hd : isDigit d = true) :
    c < d ↔ digitValue c < digitValue d := by
  have hc := isDigit_iff.1 hc
  have hd := isDigit_iff.1 hd
  have hlt : c < d ↔ c.toNat < d.toNat := UInt32.lt_iff_toNat_lt
  rw [hlt]
  unfold digitValue
  simp only [Char.reduceToNat]
  omega

theorem digit_inj {c d : Char} (hc : isDigit c = true) (hd : isDigit d = true)
    (h : digitValue c = digitValue d) : c = d := by
  have hc := isDigit_iff.1 hc
  have hd := isDigit_iff.1 hd
  unfold digitValue at h
  simp only [Char.reduceToNat] at h
  refine Char.toNat_inj.1 ?_
  omega

theorem value_cons (c : Char) (cs : List Char) :
    value (c :: cs) = digitValue c * 10 ^ cs.length + value cs := by
  rw [← List.singleton_append, value_append]
  simp [value, valueFrom]

theorem value_lt {cs : List Char} (h : ∀ c ∈ cs, isDigit c = true) : value cs < 10 ^ cs.length := by
  induction cs with
  | nil => decide
  | cons c cs ih =>
    have hc := digitValue_lt (h c List.mem_cons_self)
    have hcs := ih fun d hd => h d (List.mem_cons_of_mem _ hd)
    rw [value_cons, List.length_cons, Nat.pow_succ]
    have hmul : digitValue c * 10 ^ cs.length ≤ 9 * 10 ^ cs.length :=
      Nat.mul_le_mul_right _ (by omega)
    omega

/-- Digit strings of one length compare like their values. -/
theorem lt_iff_value_lt {cs ds : List Char} (hlength : cs.length = ds.length)
    (hcs : ∀ c ∈ cs, isDigit c = true) (hds : ∀ d ∈ ds, isDigit d = true) :
    cs < ds ↔ value cs < value ds := by
  induction cs generalizing ds with
  | nil =>
    obtain rfl := List.eq_nil_of_length_eq_zero hlength.symm
    simp
  | cons c cs ih =>
    cases ds with
    | nil => cases hlength
    | cons d ds =>
      have hlength : cs.length = ds.length := Nat.succ.inj hlength
      have hc := hcs c List.mem_cons_self
      have hd := hds d List.mem_cons_self
      have hcs' : ∀ c ∈ cs, isDigit c = true := fun x hx => hcs x (List.mem_cons_of_mem _ hx)
      have hds' : ∀ d ∈ ds, isDigit d = true := fun x hx => hds x (List.mem_cons_of_mem _ hx)
      have hvc := value_lt hcs'
      have hvd := value_lt hds'
      rw [List.cons_lt_cons_iff, value_cons, value_cons, ih hlength hcs' hds', digit_lt_iff hc hd,
        hlength]
      rw [hlength] at hvc
      -- The first digit decides, unless it is the same; what follows is less than one of it.
      rcases Nat.lt_trichotomy (digitValue c) (digitValue d) with hlt | heq | hgt
      · have hmul : (digitValue c + 1) * 10 ^ ds.length ≤ digitValue d * 10 ^ ds.length :=
          Nat.mul_le_mul_right _ hlt
        rw [Nat.add_mul, Nat.one_mul] at hmul
        exact iff_of_true (.inl hlt) (by omega)
      · rw [digit_inj hc hd heq]
        simp
      · have hmul : (digitValue d + 1) * 10 ^ ds.length ≤ digitValue c * 10 ^ ds.length :=
          Nat.mul_le_mul_right _ hgt
        rw [Nat.add_mul, Nat.one_mul] at hmul
        refine iff_of_false ?_ (by omega)
        rintro (hlt | ⟨rfl, -⟩)
        · omega
        · omega

/-! ### Numbers of one width -/

theorem length_decimal_le {width n : Nat} (h : n < 10 ^ width) (hwidth : 0 < width) :
    (decimal n).length ≤ width := by
  induction n using decimal.induct generalizing width with
  | case1 n hn =>
    rw [decimal, if_pos hn]
    exact hwidth
  | case2 n hn ih =>
    obtain ⟨width, rfl⟩ : ∃ w, width = w + 1 := ⟨width - 1, by omega⟩
    have hpow : n / 10 < 10 ^ width := by
      rw [Nat.pow_succ] at h
      omega
    have hpos : 0 < width := by
      refine Nat.pos_of_ne_zero ?_
      rintro rfl
      simp at h
      omega
    rw [decimal, if_neg hn, List.length_append, List.length_singleton]
    exact Nat.succ_le_succ (ih hpow hpos)

theorem length_padded {width n : Nat} (h : n < 10 ^ width) (hwidth : 0 < width) :
    (padded width n).length = width := by
  rw [padded, List.length_append, List.length_replicate]
  have := length_decimal_le h hwidth
  omega

theorem isDigit_of_mem_padded {width n : Nat} {c : Char} (h : c ∈ padded width n) :
    isDigit c = true := by
  rcases List.mem_append.1 h with h | h
  · rw [(List.mem_replicate.1 h).2]
    rfl
  · exact isDigit_of_mem_decimal h

theorem value_zeros (count : Nat) : value (List.replicate count '0') = 0 := by
  induction count with
  | zero => rfl
  | succ count ih =>
    rw [List.replicate_succ, value_cons, ih]
    simp [digitValue]

theorem value_padded (width n : Nat) : value (padded width n) = n := by
  rw [padded, value_append, value_zeros, Nat.zero_mul, Nat.zero_add, value_decimal]

/-- **Numbers of one width** compare like their texts. -/
theorem padded_lt_padded_iff {width n m : Nat} (hn : n < 10 ^ width) (hm : m < 10 ^ width)
    (hwidth : 0 < width) : padded width n < padded width m ↔ n < m := by
  rw [lt_iff_value_lt ((length_padded hn hwidth).trans (length_padded hm hwidth).symm)
    (fun _ => isDigit_of_mem_padded) fun _ => isDigit_of_mem_padded, value_padded, value_padded]

theorem padded_inj {width n m : Nat} (h : padded width n = padded width m) : n = m := by
  rw [← value_padded width n, h, value_padded]

/-- Texts of which the first parts have one length compare by these first. -/
theorem append_lt_append_iff {as bs cs ds : List Char} (h : as.length = bs.length) :
    as ++ cs < bs ++ ds ↔ as < bs ∨ as = bs ∧ cs < ds := by
  induction as generalizing bs with
  | nil =>
    obtain rfl := List.eq_nil_of_length_eq_zero h.symm
    simp
  | cons a as ih =>
    cases bs with
    | nil => cases h
    | cons b bs =>
      rw [List.cons_append, List.cons_append, List.cons_lt_cons_iff, List.cons_lt_cons_iff,
        ih (Nat.succ.inj h), List.cons.injEq]
      constructor
      · rintro (hlt | ⟨rfl, hlt | ⟨rfl, hlt⟩⟩)
        · exact .inl (.inl hlt)
        · exact .inl (.inr ⟨rfl, hlt⟩)
        · exact .inr ⟨⟨rfl, rfl⟩, hlt⟩
      · rintro ((hlt | ⟨rfl, hlt⟩) | ⟨⟨rfl, rfl⟩, hlt⟩)
        · exact .inl hlt
        · exact .inr ⟨rfl, .inl hlt⟩
        · exact .inr ⟨rfl, .inr ⟨rfl, hlt⟩⟩

end Digits

/-! ### Written days -/

namespace Date

open Digits

/-- The year is written without a sign. -/
def IsPlain (d : Date) : Prop := 0 ≤ d.year ∧ d.year ≤ 9999

instance (d : Date) : Decidable d.IsPlain := inferInstanceAs (Decidable (_ ∧ _))

theorem daysInMonth_le (year : Int) (month : Nat) : Calendar.daysInMonth year month ≤ 31 := by
  unfold Calendar.daysInMonth
  split
  all_goals try split
  all_goals omega

theorem daysInMonth_of_lt {year : Int} {month : Nat} (h : 12 < month) :
    Calendar.daysInMonth year month = 0 := by
  unfold Calendar.daysInMonth
  split <;> omega

theorem month_lt (d : Date) : d.month < 10 ^ (2 : Nat) := by
  refine Nat.lt_of_not_le fun h => ?_
  have hday := d.valid.2.2
  rw [daysInMonth_of_lt (by omega)] at hday
  omega

theorem day_lt (d : Date) : d.day < 10 ^ (2 : Nat) := by
  have hday := d.valid.2.2.2
  have := daysInMonth_le d.year d.month
  omega

theorem lt_iff {a b : Date} : a < b ↔
    a.year < b.year ∨ a.year = b.year ∧
      (a.month < b.month ∨ a.month = b.month ∧ a.day < b.day) := by
  change a.parts < b.parts ↔ _
  simp only [parts, List.cons_lt_cons_iff, Int.ofNat_lt, Int.natCast_inj, List.not_lt_nil,
    and_false, or_false]

/-- What a day is written with behind its year. -/
def dayChars (d : Date) : List Char := '-' :: padded 2 d.month ++ '-' :: padded 2 d.day

/-- Behind the year, days compare by their months and then by themselves. -/
theorem dayChars_lt_iff {a b : Date} :
    a.dayChars < b.dayChars ↔ a.month < b.month ∨ a.month = b.month ∧ a.day < b.day := by
  have hlength : ('-' :: padded 2 a.month).length = ('-' :: padded 2 b.month).length := by
    rw [List.length_cons, List.length_cons, length_padded a.month_lt (by decide),
      length_padded b.month_lt (by decide)]
  have hdash : ∀ cs ds : List Char, '-' :: cs < '-' :: ds ↔ cs < ds := fun cs ds => by
    rw [List.cons_lt_cons_iff]
    simp
  have hmonths : '-' :: padded 2 a.month = '-' :: padded 2 b.month ↔ a.month = b.month := by
    refine ⟨fun h => padded_inj (List.cons.inj h).2, fun h => by rw [h]⟩
  unfold dayChars
  rw [append_lt_append_iff hlength, hdash, hdash,
    padded_lt_padded_iff a.month_lt b.month_lt (by decide),
    padded_lt_padded_iff a.day_lt b.day_lt (by decide), hmonths]

theorem renderChars_eq {d : Date} (h : d.IsPlain) :
    d.renderChars = padded 4 d.year.natAbs ++ d.dayChars := by
  rw [renderChars, renderYear, if_pos (show 0 ≤ d.year ∧ d.year ≤ 9999 from h)]
  simp [dayChars]

/-- **Plain days** compare like their texts. -/
theorem render_lt_render_iff {a b : Date} (ha : a.IsPlain) (hb : b.IsPlain) :
    a.render < b.render ↔ a < b := by
  have hyear : a.year.natAbs < 10 ^ (4 : Nat) := by have := ha.1; have := ha.2; omega
  have hyear' : b.year.natAbs < 10 ^ (4 : Nat) := by have := hb.1; have := hb.2; omega
  have hlength : (padded 4 a.year.natAbs).length = (padded 4 b.year.natAbs).length := by
    rw [length_padded hyear (by decide), length_padded hyear' (by decide)]
  have hyears : a.year.natAbs < b.year.natAbs ↔ a.year < b.year := by
    have := ha.1; have := hb.1; omega
  have hyears' : padded 4 a.year.natAbs = padded 4 b.year.natAbs ↔ a.year = b.year := by
    refine ⟨fun h => ?_, fun h => by rw [h]⟩
    have := padded_inj h
    have := ha.1; have := hb.1; omega
  rw [String.lt_iff, render, render, String.toList_ofList, String.toList_ofList, renderChars_eq ha,
    renderChars_eq hb, append_lt_append_iff hlength, dayChars_lt_iff,
    padded_lt_padded_iff hyear hyear' (by decide), hyears, hyears', lt_iff]

/-- A plain day has a digit in front. -/
theorem exists_digit_renderChars {d : Date} (h : d.IsPlain) :
    ∃ c cs, d.renderChars = c :: cs ∧ isDigit c = true := by
  rw [renderChars_eq h]
  cases hyear : padded 4 d.year.natAbs with
  | nil =>
    have hlength : (padded 4 d.year.natAbs).length = 4 :=
      length_padded (by have := h.1; have := h.2; omega) (by decide)
    rw [hyear] at hlength
    cases hlength
  | cons c cs => exact ⟨c, _, rfl, isDigit_of_mem_padded (hyear ▸ List.mem_cons_self)⟩

/-- **A day with a signed year** comes before all plain days, as texts. -/
theorem render_lt_render_of_signed {a b : Date} (ha : ¬a.IsPlain) (hb : b.IsPlain) :
    a.render < b.render := by
  obtain ⟨c, cs, hchars, hc⟩ := exists_digit_renderChars hb
  have hminus : '-' < c := minus_lt_of_isDigit hc
  have hplus : '+' < c := Char.lt_trans (by decide) hminus
  rw [String.lt_iff, render, render, String.toList_ofList, String.toList_ofList, hchars,
    renderChars, renderYear, if_neg (show ¬(0 ≤ a.year ∧ a.year ≤ 9999) from ha),
    List.cons_append, List.cons_append, List.cons_lt_cons_iff]
  split
  · exact .inl hminus
  · exact .inl hplus

theorem le_iff {a b : Date} : a.le b = true ↔ ¬b < a := by
  rw [le, Bool.not_eq_true', decide_eq_false_iff_not]

/-- The days of a year from March on are numbered within some 400 days of where 365.2425 days a year
would put it. -/
theorem dayNumber_bounds (d : Date) :
    146097 * (d.year - 1) ≤ 400 * (d.dayNumber + 719868) ∧
      400 * (d.dayNumber + 719068) ≤ 146097 * d.year + 160000 := by
  have hday := d.day_lt
  have hday' := d.valid.2.2.1
  have hmonth := d.month_lt
  unfold dayNumber
  simp only
  constructor
  · split <;> omega
  · split <;> omega

end Date

/-- **The moments that a 64-bit count of nanoseconds can hold** are on plain days. -/
theorem Timestamp.isPlain_of_nanos {t : Timestamp} (hlow : -9223372036854775808 ≤ t.nanos)
    (hhigh : t.nanos ≤ 9223372036854775807) : t.date.IsPlain := by
  obtain ⟨hyear, hyear'⟩ := t.date.dayNumber_bounds
  obtain ⟨hsecond, hnano⟩ := t.valid
  unfold nanos at hlow hhigh
  constructor <;> omega

end RetailReport
