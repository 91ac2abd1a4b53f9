import RetailReport.Proofs.Calendar.Written

/-!
# The order of all written days

As texts, days with a plus sign come before those with a minus sign, and these before days without a
sign.  Days of one sign come in the order of the digits of their years, which is not that of the years:
a year of five digits stands among those of four digits where its first four digits put it.  The rank
of a day (`Date.textRank`) says in numbers where its text stands.

## Main definitions

* `Date.textRank`: what a written day is compared by.
* `Date.Legible`: a day is in a range of texts exactly if it is in the range of days.

## Main results

* `Date.render_lt_render_iff_textRank`: written days compare like their ranks.
* `Date.legible_of_year`: ranges that hold the same days as texts and in the calendar, as far as a
  given day is concerned.
* `Date.not_between_of_late`: a range that goes on beyond the year 9999 is empty as a range of texts.
-/

namespace RetailReport

-- Powers are those of the core library.
attribute [local instance (high)] instPowNat

namespace Digits

/-! ### Digit strings of different lengths -/

/-- Digit strings of one length are told apart by their values. -/
theorem eq_of_value_eq {cs ds : List Char} (hlength : cs.length = ds.length)
    (hcs : ∀ c ∈ cs, isDigit c = true) (hds : ∀ d ∈ ds, isDigit d = true)
    (h : value cs = value ds) : cs = ds := by
  refine List.le_antisymm (List.not_lt.1 ?_) (List.not_lt.1 ?_)
  · rw [lt_iff_value_lt hlength.symm hds hcs]
    omega
  · rw [lt_iff_value_lt hlength hcs hds]
    omega

/-- A number has as many digits as its size asks for. -/
theorem lt_length_decimal {width n : Nat} (h : 10 ^ width ≤ n) : width < (decimal n).length := by
  have hvalue := value_lt fun _ hc => isDigit_of_mem_decimal (n := n) hc
  rw [value_decimal] at hvalue
  exact (Nat.pow_lt_pow_iff_right (by decide)).1 (Nat.lt_of_le_of_lt h hvalue)

/-- A number that fills a width is the same for all smaller widths. -/
theorem padded_eq_padded {width width' n : Nat} (h : 10 ^ width ≤ n) (hwidth : width' ≤ width) :
    padded width' n = padded (width + 1) n := by
  have hlength := lt_length_decimal h
  unfold padded
  rw [Nat.sub_eq_zero_of_le (by omega), Nat.sub_eq_zero_of_le (by omega)]

/-- The first digits of a number, and its other digits. -/
theorem exists_padded_append {width more n : Nat} (hwidth : 0 < width)
    (h : n < 10 ^ (width + more)) : ∃ back, padded (width + more) n =
      padded width (n / 10 ^ more) ++ back ∧ back.length = more ∧ ∀ c ∈ back, isDigit c = true := by
  have hlength := length_padded h (Nat.lt_of_lt_of_le hwidth (Nat.le_add_right width more))
  have hdigit : ∀ c ∈ padded (width + more) n, isDigit c = true := fun _ => isDigit_of_mem_padded
  have hvalue := value_padded (width + more) n
  generalize padded (width + more) n = cs at hlength hdigit hvalue ⊢
  have hback : (cs.drop width).length = more := by rw [List.length_drop]; omega
  have hfront : (cs.take width).length = width := by rw [List.length_take]; omega
  have hdigit' : ∀ c ∈ cs.take width, isDigit c = true :=
    fun c hc => hdigit c (List.mem_of_mem_take hc)
  have hsmall : value (cs.drop width) < 10 ^ more :=
    hback ▸ value_lt fun c hc => hdigit c (List.mem_of_mem_drop hc)
  have hdiv : n / 10 ^ more = value (cs.take width) := by
    have hsplit : value (cs.take width) * 10 ^ more + value (cs.drop width) = n := by
      rw [← hback, ← value_append, List.take_append_drop, hvalue]
    rw [← hsplit, Nat.mul_comm, Nat.mul_add_div (Nat.pow_pos (by decide)),
      Nat.div_eq_of_lt hsmall, Nat.add_zero]
  refine ⟨cs.drop width, ?_, hback, fun c hc => hdigit c (List.mem_of_mem_drop hc)⟩
  have hlt : n / 10 ^ more < 10 ^ width := by
    have hbound := value_lt hdigit'
    rwa [hfront, ← hdiv] at hbound
  have hpadded : padded width (n / 10 ^ more) = cs.take width :=
    eq_of_value_eq ((length_padded hlt hwidth).trans hfront.symm)
      (fun _ => isDigit_of_mem_padded) hdigit' ((value_padded _ _).trans hdiv)
  rw [hpadded, List.take_append_drop]

section Widths

variable {width more n m : Nat} {cs ds : List Char} (hwidth : 0 < width) (hmore : 0 < more)
  (hn : n < 10 ^ width) (hm : m < 10 ^ (width + more))

include hwidth hmore hn hm

/-- A shorter number that a hyphen ends comes before a longer one, as a text, if it is not greater
than the first digits of the longer one. -/
theorem padded_lt_longer_iff :
    padded width n ++ '-' :: cs < padded (width + more) m ++ ds ↔ n * 10 ^ more ≤ m := by
  obtain ⟨back, hback, hlength, hdigit⟩ := exists_padded_append hwidth hm
  have hpow : 0 < 10 ^ more := Nat.pow_pos (by decide)
  have hfirst : m / 10 ^ more < 10 ^ width :=
    Nat.div_lt_of_lt_mul (by rwa [← Nat.pow_add, Nat.add_comm])
  obtain ⟨c, back, rfl⟩ := List.exists_cons_of_length_pos (hlength ▸ hmore)
  have hhyphen : '-' :: cs < c :: back ++ ds :=
    List.cons_lt_cons_iff.2 (.inl (minus_lt_of_isDigit (hdigit c List.mem_cons_self)))
  rw [hback, List.append_assoc, append_lt_append_iff
      ((length_padded hn hwidth).trans (length_padded hfirst hwidth).symm),
    padded_lt_padded_iff hn hfirst hwidth, ← Nat.le_div_iff_mul_le hpow, Nat.le_iff_lt_or_eq]
  refine or_congr Iff.rfl ⟨fun h => padded_inj h.1, fun h => ⟨by rw [h], hhyphen⟩⟩

/-- A longer number comes before a shorter one that a hyphen ends, as a text, if its first digits are
less than the shorter one. -/
theorem longer_lt_padded_iff :
    padded (width + more) m ++ ds < padded width n ++ '-' :: cs ↔ m < n * 10 ^ more := by
  obtain ⟨back, hback, hlength, hdigit⟩ := exists_padded_append hwidth hm
  have hfirst : m / 10 ^ more < 10 ^ width :=
    Nat.div_lt_of_lt_mul (by rwa [← Nat.pow_add, Nat.add_comm])
  obtain ⟨c, back, rfl⟩ := List.exists_cons_of_length_pos (hlength ▸ hmore)
  have hhyphen : ¬c :: back ++ ds < '-' :: cs := by
    have hlt := minus_lt_of_isDigit (hdigit c List.mem_cons_self)
    rw [List.cons_append, List.cons_lt_cons_iff]
    rintro (h | ⟨rfl, -⟩)
    · exact absurd (Char.lt_trans hlt h) (Char.lt_irrefl _)
    · exact absurd hlt (Char.lt_irrefl _)
  rw [hback, List.append_assoc, append_lt_append_iff
      ((length_padded hfirst hwidth).trans (length_padded hn hwidth).symm),
    padded_lt_padded_iff hfirst hn hwidth, Nat.div_lt_iff_lt_mul (Nat.pow_pos (by decide))]
  exact or_iff_left fun h => hhyphen h.2

end Widths

end Digits

namespace Date

open Digits

/-! ### Where a written day stands -/

/-- Where the sign of a year puts it: first plus, then minus, then none. -/
def signRank (d : Date) : Nat :=
  if 0 ≤ d.year ∧ d.year ≤ 9999 then 2 else if d.year < 0 then 1 else 0

theorem signRank_cases (d : Date) : d.signRank = 2 ∧ d.IsPlain ∨ d.signRank = 1 ∧ d.year < 0 ∨
    d.signRank = 0 ∧ 9999 < d.year := by
  unfold signRank IsPlain
  split
  · next h => exact .inl ⟨rfl, h⟩
  · split
    · next h => exact .inr (.inl ⟨rfl, h⟩)
    · next h h' => exact .inr (.inr ⟨rfl, by omega⟩)

/-- The sign that a year is written with. -/
def sign (d : Date) : List Char :=
  match d.signRank with
  | 0 => ['+']
  | 1 => ['-']
  | _ => []

/-- How many digits a year is written with. -/
def yearWidth (d : Date) : Nat :=
  if d.year.natAbs < 10000 then 4 else if d.year.natAbs < 100000 then 5 else 6

theorem year_bounds (d : Date) : d.year.natAbs < 1000000 := by
  have hvalid := d.valid
  unfold Calendar.Exists at hvalid
  omega

theorem yearWidth_cases (d : Date) : d.yearWidth = 4 ∧ d.year.natAbs < 10 ^ (4 : Nat) ∨
    d.yearWidth = 5 ∧ 10 ^ (4 : Nat) ≤ d.year.natAbs ∧ d.year.natAbs < 10 ^ (5 : Nat) ∨
    d.yearWidth = 6 ∧ 10 ^ (5 : Nat) ≤ d.year.natAbs ∧ d.year.natAbs < 10 ^ (6 : Nat) := by
  have hbound := d.year_bounds
  unfold yearWidth
  split
  · next h => exact .inl ⟨rfl, h⟩
  · split
    · next h h' => exact .inr (.inl ⟨rfl, Nat.le_of_not_lt h, h'⟩)
    · next h h' => exact .inr (.inr ⟨rfl, Nat.le_of_not_lt h', hbound⟩)

/-- The digits of a written day. -/
def digits (d : Date) : List Char := padded d.yearWidth d.year.natAbs ++ d.dayChars

theorem renderChars_eq_sign (d : Date) : d.renderChars = d.sign ++ d.digits := by
  have hpadded : padded 4 d.year.natAbs = padded d.yearWidth d.year.natAbs := by
    rcases d.yearWidth_cases with ⟨h, -⟩ | ⟨h, hlow, -⟩ | ⟨h, hlow, -⟩
    · rw [h]
    · rw [h, padded_eq_padded hlow (by decide)]
    · rw [h, padded_eq_padded hlow (by decide)]
  have hsign : renderYear d.year = d.sign ++ padded 4 d.year.natAbs := by
    unfold renderYear sign signRank
    split
    · rfl
    · split <;> rfl
  rw [renderChars, hsign, hpadded, digits, dayChars]
  simp

/-- What the digits of a written day are compared by: the year, filled up with zeros behind it to six
digits, then the width of the year, as its end comes before a further digit, then month and day. -/
def digitRank (d : Date) : List Int :=
  [(d.year.natAbs * 10 ^ (6 - d.yearWidth) : Nat), d.yearWidth, d.month, d.day]

theorem digitRank_lt_iff {a b : Date} : a.digitRank < b.digitRank ↔
    a.year.natAbs * 10 ^ (6 - a.yearWidth) < b.year.natAbs * 10 ^ (6 - b.yearWidth) ∨
      a.year.natAbs * 10 ^ (6 - a.yearWidth) = b.year.natAbs * 10 ^ (6 - b.yearWidth) ∧
        (a.yearWidth < b.yearWidth ∨ a.yearWidth = b.yearWidth ∧ a.dayChars < b.dayChars) := by
  rw [dayChars_lt_iff]
  simp only [digitRank, List.cons_lt_cons_iff, Int.ofNat_lt, Int.natCast_inj, List.not_lt_nil,
    and_false, or_false]

theorem yearWidth_bounds (d : Date) :
    4 ≤ d.yearWidth ∧ d.yearWidth ≤ 6 ∧ d.year.natAbs < 10 ^ d.yearWidth := by
  rcases d.yearWidth_cases with ⟨h, hn⟩ | ⟨h, -, hn⟩ | ⟨h, -, hn⟩
  all_goals exact ⟨by omega, by omega, by rwa [h]⟩

/-- Numbers of which one is scaled up compare like both scaled up to one width. -/
theorem scaled_le_iff {width more n m : Nat} (h : width + more ≤ 6) :
    n * 10 ^ more ≤ m ↔ n * 10 ^ (6 - width) ≤ m * 10 ^ (6 - (width + more)) := by
  have hsum : 6 - width = more + (6 - (width + more)) := by omega
  rw [hsum, Nat.pow_add, ← Nat.mul_assoc]
  exact (Nat.mul_le_mul_right_iff (Nat.pow_pos (by decide))).symm

/-- Days of one sign compare by their digits. -/
theorem digits_lt_iff {a b : Date} : a.digits < b.digits ↔ a.digitRank < b.digitRank := by
  obtain ⟨ha, ha', hn⟩ := a.yearWidth_bounds
  obtain ⟨hb, hb', hm⟩ := b.yearWidth_bounds
  rw [digitRank_lt_iff]
  unfold digits
  -- Texts of one width compare like the years; a longer text compares by its first digits.
  rcases Nat.lt_trichotomy a.yearWidth b.yearWidth with hlt | heq | hgt
  · obtain ⟨more, hmore⟩ := Nat.exists_eq_add_of_lt hlt
    rw [Nat.add_assoc] at hmore
    rw [hmore] at hm hb' hlt ⊢
    refine (padded_lt_longer_iff (by omega) (Nat.succ_pos more) hn hm).trans ?_
    rw [scaled_le_iff hb', Nat.le_iff_lt_or_eq]
    simp [hlt]
  · have hlength : (padded a.yearWidth a.year.natAbs).length =
        (padded b.yearWidth b.year.natAbs).length := by
      rw [length_padded hn (by omega), length_padded hm (by omega), heq]
    have hpow : 0 < 10 ^ (6 - b.yearWidth) := Nat.pow_pos (by decide)
    rw [append_lt_append_iff hlength, heq, padded_lt_padded_iff (heq ▸ hn) hm (by omega),
      Nat.mul_lt_mul_right hpow, Nat.mul_right_cancel_iff hpow]
    have hyears : padded b.yearWidth a.year.natAbs = padded b.yearWidth b.year.natAbs ↔
        a.year.natAbs = b.year.natAbs := ⟨padded_inj, fun h => by rw [h]⟩
    rw [hyears]
    simp
  · obtain ⟨more, hmore⟩ := Nat.exists_eq_add_of_lt hgt
    rw [Nat.add_assoc] at hmore
    rw [hmore] at hn ha' hgt ⊢
    refine (longer_lt_padded_iff (by omega) (Nat.succ_pos more) hm hn).trans ?_
    have hscaled := not_congr (scaled_le_iff (n := b.year.natAbs) (m := a.year.natAbs) ha')
    rw [Nat.not_le, Nat.not_le] at hscaled
    rw [hscaled]
    simp [Nat.not_lt_of_gt hgt]

/-- **What a written day is compared by.** -/
def textRank (d : Date) : List Int := d.signRank :: d.digitRank

theorem render_lt_render_of_signRank {a b : Date} (h : a.signRank < b.signRank) :
    a.render < b.render := by
  rcases b.signRank_cases with ⟨hb, hplain⟩ | ⟨hb, -⟩ | ⟨hb, -⟩
  · refine render_lt_render_of_signed (fun ha => ?_) hplain
    unfold signRank at h hb
    rw [if_pos (show 0 ≤ a.year ∧ a.year ≤ 9999 from ha)] at h
    omega
  · -- Of the two signs, plus comes first.
    have ha : a.signRank = 0 := by omega
    rw [String.lt_iff, render, render, String.toList_ofList, String.toList_ofList,
      renderChars_eq_sign, renderChars_eq_sign, sign, sign, ha, hb]
    exact List.cons_lt_cons_iff.2 (.inl (by decide))
  · omega

/-- **Written days compare like their ranks.** -/
theorem render_lt_render_iff_textRank {a b : Date} : a.render < b.render ↔ a.textRank < b.textRank := by
  rw [textRank, textRank, List.cons_lt_cons_iff, Int.ofNat_lt, Int.natCast_inj]
  rcases Nat.lt_trichotomy a.signRank b.signRank with hlt | heq | hgt
  · exact iff_of_true (render_lt_render_of_signRank hlt) (.inl hlt)
  · have hsign : a.sign = b.sign := by rw [sign, sign, heq]
    rw [String.lt_iff, render, render, String.toList_ofList, String.toList_ofList,
      renderChars_eq_sign, renderChars_eq_sign, hsign, append_lt_append_iff rfl, digits_lt_iff, heq]
    simp only [List.lt_irrefl b.sign, Nat.lt_irrefl, false_or, true_and]
  · refine iff_of_false (KeyOrder.asymm (render_lt_render_of_signRank hgt)) ?_
    omega

/-! ### Ranges of days -/

/-- **A day is legible in a range** if it is between the written ends exactly if it is between the
days. -/
def Legible (range : Date × Date) (d : Date) : Prop :=
  (¬d.textRank < range.1.textRank ∧ ¬range.2.textRank < d.textRank) ↔
    ¬d < range.1 ∧ ¬range.2 < d

theorem textRank_lt_of_signRank {a b : Date} (h : a.signRank < b.signRank) :
    a.textRank < b.textRank :=
  render_lt_render_iff_textRank.1 (render_lt_render_of_signRank h)

/-- A day that is not after the year 9999 stands to a plain day as in the calendar. -/
theorem textRank_iff_of_isPlain {a b : Date} (ha : a.year ≤ 9999) (hb : b.IsPlain) :
    (a.textRank < b.textRank ↔ a < b) ∧ (b.textRank < a.textRank ↔ b < a) := by
  rcases a.signRank_cases with ⟨-, hplain⟩ | ⟨hsign, hneg⟩ | ⟨-, hlate⟩
  · rw [← render_lt_render_iff_textRank, ← render_lt_render_iff_textRank]
    exact ⟨render_lt_render_iff hplain hb, render_lt_render_iff hb hplain⟩
  · have hbefore : a < b := lt_iff.2 (.inl (Int.lt_of_lt_of_le hneg hb.1))
    have hbefore' : a.textRank < b.textRank := by
      refine textRank_lt_of_signRank ?_
      rw [hsign, signRank, if_pos (show 0 ≤ b.year ∧ b.year ≤ 9999 from hb)]
      decide
    exact ⟨iff_of_true hbefore' hbefore,
      iff_of_false (KeyOrder.asymm hbefore') (KeyOrder.asymm hbefore)⟩
  · omega

theorem signRank_pos_iff {d : Date} : 0 < d.signRank ↔ d.year ≤ 9999 := by
  unfold signRank
  split
  · omega
  · split <;> omega

/-- **Ranges that end by the year 9999** hold the same days as texts and in the calendar, but for days
before the year 0 if the range begins before it too. -/
theorem legible_of_year {range : Date × Date} {d : Date} (horder : ¬range.2 < range.1)
    (hend : range.2.year ≤ 9999) (h : 0 ≤ range.1.year ∨ 0 ≤ d.year) : Legible range d := by
  have hstart : range.1.year ≤ 9999 := by
    refine Int.not_lt.1 fun hlate => horder (lt_iff.2 (.inl ?_))
    omega
  rcases d.signRank_cases with ⟨-, hplain⟩ | ⟨-, hneg⟩ | ⟨hsign, hlate⟩
  · unfold Legible
    rw [(textRank_iff_of_isPlain hstart hplain).2, (textRank_iff_of_isPlain hend hplain).1]
  · -- The day comes before the range, which begins with a plain day.
    have hplain : range.1.IsPlain := ⟨h.resolve_right (by omega), hstart⟩
    have hbefore : d < range.1 := lt_iff.2 (.inl (Int.lt_of_lt_of_le hneg hplain.1))
    have hbefore' := (textRank_iff_of_isPlain (by omega) hplain).1.2 hbefore
    exact iff_of_false (fun hd => hd.1 hbefore') fun hd => hd.1 hbefore
  · -- The day comes after the range, but its text before that of the first day.
    have hafter : range.2 < d := lt_iff.2 (.inl (by omega))
    have hbefore : d.textRank < range.1.textRank :=
      textRank_lt_of_signRank (hsign ▸ signRank_pos_iff.2 hstart)
    exact iff_of_false (fun hd => hd.1 hbefore) fun hd => hd.2 hafter

/-- **A range that goes on beyond the year 9999** is empty as a range of texts. -/
theorem not_between_of_late {range : Date × Date} (hstart : range.1.year ≤ 9999)
    (hend : 9999 < range.2.year) (d : Date) :
    ¬(¬d.textRank < range.1.textRank ∧ ¬range.2.textRank < d.textRank) := by
  rintro ⟨hfrom, hto⟩
  have hlate : range.2.signRank = 0 :=
    Nat.eq_zero_of_not_pos fun hpos => Int.not_lt.2 (signRank_pos_iff.1 hpos) hend
  rcases Nat.eq_zero_or_pos d.signRank with hd | hd
  · exact hfrom (textRank_lt_of_signRank (hd ▸ signRank_pos_iff.2 hstart))
  · exact hto (textRank_lt_of_signRank (hlate ▸ hd))

end Date

end RetailReport
