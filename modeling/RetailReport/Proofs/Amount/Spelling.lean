import Mathlib.Data.List.TakeWhile
import RetailReport.Amount.Text
import RetailReport.Proofs.Calendar.Reading

/-!
# Spellings of an amount

What may be read as an amount, said without the reader: a sign, whole units, and a point with
decimals, where most parts may be missing but not all digits.  Blanks may stand around it.  A spelling
stands for a number of ten-thousandths, and that number is what is read, unless it is too large.

## Main definitions

* `Text.AmongBlanks`: a text with blanks around it.
* `Spelling`: the parts of a spelled amount; `Spelling.chars`, `Spelling.raw`: how it is written, and
  what it stands for.

## Main results

* `Amount.parse_of_amongBlanks`: what becomes of a spelling when it is read.
* `Amount.parse_eq_ok_iff`: exactly the spellings are read.
-/

namespace RetailReport

-- Powers are those of the core library.
attribute [local instance (high)] instPowNat

open Digits

/-! ### Blanks around a text -/

namespace Text

/-- **A text with blanks around it**, or without. -/
def AmongBlanks (cs text : List Char) : Prop :=
  ∃ before after, (∀ c ∈ before ++ after, isBlank c = true) ∧ text = before ++ cs ++ after

theorem AmongBlanks.refl (cs : List Char) : AmongBlanks cs cs :=
  ⟨[], [], by simp, by simp⟩

theorem dropWhile_isBlank {cs : List Char} (h : ∀ c ∈ cs, isBlank c = false) :
    cs.dropWhile isBlank = cs := by
  cases cs with
  | nil => rfl
  | cons c cs => exact List.dropWhile_cons_of_neg (by simp [h c List.mem_cons_self])

/-- What is left of a text has blanks around it in the text. -/
theorem amongBlanks_trim (cs : List Char) : AmongBlanks (trim cs) cs := by
  refine ⟨cs.takeWhile isBlank, ((cs.dropWhile isBlank).reverse.takeWhile isBlank).reverse, ?_, ?_⟩
  · intro c hc
    rcases List.mem_append.1 hc with hc | hc
    · exact List.mem_takeWhile_imp hc
    · exact List.mem_takeWhile_imp (List.mem_reverse.1 hc)
  · rw [List.append_assoc, trim, ← List.reverse_append, List.takeWhile_append_dropWhile,
      List.reverse_reverse, List.takeWhile_append_dropWhile]

/-- Blanks around a text that has none are cut off. -/
theorem AmongBlanks.trim_eq {cs text : List Char} (h : AmongBlanks cs text)
    (hcs : ∀ c ∈ cs, isBlank c = false) (hsome : cs ≠ []) : trim text = cs := by
  obtain ⟨before, after, hblank, rfl⟩ := h
  obtain ⟨c, rest, rfl⟩ := List.exists_cons_of_ne_nil hsome
  have hfront : (before ++ (c :: rest) ++ after).dropWhile isBlank = c :: rest ++ after := by
    rw [List.append_assoc, List.dropWhile_append_of_pos fun x hx =>
      hblank x (List.mem_append_left _ hx), List.cons_append,
      List.dropWhile_cons_of_neg (by simp [hcs c List.mem_cons_self])]
  rw [trim, hfront, List.reverse_append, List.dropWhile_append_of_pos fun x hx =>
    hblank x (List.mem_append_right _ (List.mem_reverse.1 hx)),
    dropWhile_isBlank fun x hx => hcs x (List.mem_reverse.1 hx), List.reverse_reverse]

end Text

/-! ### Spellings -/

/-- The sign of a spelled number. -/
inductive Sign where
  | none
  | plus
  | minus
deriving DecidableEq, Repr

/-- How a sign is written. -/
def Sign.chars : Sign → List Char
  | .none => []
  | .plus => ['+']
  | .minus => ['-']

/-- **A spelled amount**: a sign, whole units, and decimals behind a point. -/
structure Spelling where
  /-- The sign, which may be missing. -/
  sign : Sign
  /-- The digits before the point. -/
  whole : List Char
  /-- The digits behind the point, if there is one. -/
  fraction : Option (List Char)
  isDigit_whole : ∀ c ∈ whole, isDigit c = true
  isDigit_fraction : ∀ c ∈ fraction.getD [], isDigit c = true
  /-- There is a digit before or behind the point. -/
  exists_digit : whole ≠ [] ∨ fraction.getD [] ≠ []
  /-- There are at most four decimals. -/
  length_fraction : (fraction.getD []).length ≤ 4

namespace Spelling

variable (s : Spelling)

/-- The digits behind the point; none if there is no point. -/
def decimals : List Char := s.fraction.getD []

/-- A point and the digits behind it. -/
def pointed : List Char := s.fraction.elim [] ('.' :: ·)

/-- How the amount is spelled. -/
def chars : List Char := s.sign.chars ++ (s.whole ++ s.pointed)

/-- The ten-thousandths without the sign. -/
def magnitude : Nat := value s.whole * Amount.scale + value s.decimals * 10 ^ (4 - s.decimals.length)

/-- **The ten-thousandths that a spelling stands for.** -/
def raw : Int := if s.sign = .minus then -(s.magnitude : Int) else s.magnitude

theorem mem_pointed {c : Char} (h : c ∈ s.pointed) : c = '.' ∨ isDigit c = true := by
  unfold pointed at h
  cases hf : s.fraction with
  | none =>
    rw [hf] at h
    cases h
  | some fraction =>
    rw [hf] at h
    rcases List.mem_cons.1 h with rfl | h
    · exact .inl rfl
    · exact .inr (s.isDigit_fraction c (by rwa [hf]))

/-- Behind the sign there are digits, and perhaps a point. -/
theorem mem_unsigned {c : Char} (h : c ∈ s.whole ++ s.pointed) : c = '.' ∨ isDigit c = true := by
  rcases List.mem_append.1 h with h | h
  · exact .inr (s.isDigit_whole c h)
  · exact s.mem_pointed h

theorem isBlank_of_mem_chars {c : Char} (h : c ∈ s.chars) : Text.isBlank c = false := by
  rcases List.mem_append.1 h with h | h
  · unfold Sign.chars at h
    split at h
    · cases h
    · obtain rfl := List.mem_singleton.1 h
      rfl
    · obtain rfl := List.mem_singleton.1 h
      rfl
  · rcases s.mem_unsigned h with rfl | h
    · rfl
    · exact Text.isBlank_of_isDigit h

theorem unsigned_ne_nil : s.whole ++ s.pointed ≠ [] := by
  rcases s.exists_digit with h | h
  · exact List.append_ne_nil_of_left_ne_nil h _
  · refine List.append_ne_nil_of_right_ne_nil _ ?_
    unfold pointed
    cases hf : s.fraction with
    | none => simp [hf] at h
    | some fraction => exact List.cons_ne_nil _ _

theorem chars_ne_nil : s.chars ≠ [] := List.append_ne_nil_of_right_ne_nil _ s.unsigned_ne_nil

end Spelling

/-! ### Reading a spelling -/

namespace Amount

open Text

theorem splitSign_eq_self {cs : List Char} (h : ∀ c ∈ cs, c ≠ '-' ∧ c ≠ '+') :
    splitSign cs = (false, cs) := by
  unfold splitSign
  split
  · exact absurd rfl (h '-' List.mem_cons_self).1
  · exact absurd rfl (h '+' List.mem_cons_self).2
  · rfl

theorem splitSign_chars (s : Spelling) :
    splitSign s.chars = (decide (s.sign = .minus), s.whole ++ s.pointed) := by
  rw [Spelling.chars]
  cases s.sign with
  | none =>
    refine splitSign_eq_self fun c hc => ?_
    rcases s.mem_unsigned hc with rfl | hdigit
    · decide
    · constructor
      · rintro rfl
        cases hdigit
      · rintro rfl
        cases hdigit
  | plus => rfl
  | minus => rfl

theorem splitPoint_unsigned (s : Spelling) :
    splitPoint (s.whole ++ s.pointed) = (s.whole, s.decimals) := by
  have hpoint : ∀ c ∈ s.whole, (c != '.') = true := by
    intro c hc
    rw [bne_iff_ne]
    rintro rfl
    cases s.isDigit_whole '.' hc
  rw [splitPoint, List.takeWhile_append_of_pos hpoint, List.dropWhile_append_of_pos hpoint,
    Spelling.pointed, Spelling.decimals]
  cases s.fraction with
  | none => simp
  | some fraction =>
    rw [Option.elim_some, List.takeWhile_cons_of_neg (by decide),
      List.dropWhile_cons_of_neg (by decide), List.append_nil]
    rfl

/-- **A spelling is read** as what it stands for, unless its digits stand for too large a number. -/
theorem parse_of_amongBlanks {text : String} {s : Spelling}
    (h : AmongBlanks s.chars text.toList) :
    (9223372036854775807 < s.magnitude →
      parse text = .error (.outOfRange (String.ofList s.chars))) ∧
    (s.magnitude ≤ 9223372036854775807 → ∃ a, parse text = .ok a ∧ a.raw = s.raw) := by
  have htrim := h.trim_eq (fun _ => s.isBlank_of_mem_chars) s.chars_ne_nil
  have hbody : s.chars.isEmpty = false := List.isEmpty_eq_false_iff.2 s.chars_ne_nil
  have hempty : (s.whole.isEmpty && s.decimals.isEmpty) = false := by
    rw [Bool.and_eq_false_iff, List.isEmpty_eq_false_iff, List.isEmpty_eq_false_iff]
    exact s.exists_digit
  have hdigits : (!(s.whole.all isDigit && s.decimals.all isDigit)) = false := by
    rw [Bool.not_eq_false', Bool.and_eq_true, List.all_eq_true, List.all_eq_true]
    exact ⟨s.isDigit_whole, s.isDigit_fraction⟩
  have hshort : ¬4 < s.decimals.length := Nat.not_lt.2 s.length_fraction
  -- A spelling passes all checks but the last one, which is about its magnitude.
  have hparse : parse text = if h : s.magnitude ≤ 9223372036854775807 then
      .ok ⟨if decide (s.sign = .minus) then -(s.magnitude : Int) else s.magnitude,
        by split <;> omega, by split <;> omega⟩
      else .error (.outOfRange (String.ofList s.chars)) := by
    unfold parse
    simp only [htrim, hbody, splitSign_chars, splitPoint_unsigned, hempty, hdigits, hshort,
      Bool.false_eq_true, if_false]
    rfl
  constructor
  · intro hlarge
    rw [hparse, dif_neg (Nat.not_le.2 hlarge)]
  · intro hsmall
    rw [hparse, dif_pos hsmall]
    exact ⟨_, rfl, by simp [Spelling.raw]⟩

/-- A text is its sign and what follows. -/
theorem exists_sign (cs : List Char) : ∃ sign : Sign,
    cs = sign.chars ++ (splitSign cs).2 ∧ (splitSign cs).1 = decide (sign = .minus) := by
  unfold splitSign
  split
  · exact ⟨.minus, rfl, rfl⟩
  · exact ⟨.plus, rfl, rfl⟩
  · exact ⟨.none, rfl, rfl⟩

/-- A text is what comes before its first point, and the point with what follows. -/
theorem exists_fraction (cs : List Char) : ∃ fraction : Option (List Char),
    cs = (splitPoint cs).1 ++ fraction.elim [] ('.' :: ·) ∧
      fraction.getD [] = (splitPoint cs).2 := by
  have hsplit : cs = cs.takeWhile (· != '.') ++ cs.dropWhile (· != '.') :=
    List.takeWhile_append_dropWhile.symm
  cases hrest : cs.dropWhile (· != '.') with
  | nil => exact ⟨none, by rw [hrest] at hsplit; exact hsplit, by simp [splitPoint, hrest]⟩
  | cons c fraction =>
    have hc : c = '.' := by
      have hhead := List.head?_dropWhile_not (· != '.') cs
      rw [hrest] at hhead
      simpa using hhead
    subst hc
    exact ⟨some fraction, by rw [hrest] at hsplit; exact hsplit, by simp [splitPoint, hrest]⟩

/-- What is read is spelled. -/
theorem exists_spelling_of_parse {text : String} {a : Amount} (h : parse text = .ok a) :
    ∃ s : Spelling, AmongBlanks s.chars text.toList ∧ s.magnitude ≤ 9223372036854775807 ∧
      a.raw = s.raw := by
  rcases hbody : splitSign (trim text.toList) with ⟨negative, digits⟩
  rcases hdigits : splitPoint digits with ⟨whole, decimals⟩
  obtain ⟨sign, hsign, hminus⟩ := exists_sign (trim text.toList)
  obtain ⟨fraction, hpoint, hdecimals⟩ := exists_fraction digits
  simp only [hbody] at hsign hminus
  simp only [hdigits] at hpoint hdecimals
  subst hminus hdecimals
  unfold parse at h
  simp only [hbody, hdigits] at h
  split at h
  · cases h
  split at h
  · cases h
  next hsome =>
  split at h
  · cases h
  next hall =>
  split at h
  · cases h
  next hshort =>
  split at h
  · next hsmall =>
    rw [Bool.not_eq_true', Bool.not_eq_false, Bool.and_eq_true, List.all_eq_true,
      List.all_eq_true] at hall
    -- All checks have passed, so the parts of the text make up a spelling.
    let s : Spelling :=
      { sign, whole, fraction
        isDigit_whole := hall.1
        isDigit_fraction := hall.2
        exists_digit := by simpa [List.isEmpty_iff, imp_iff_not_or] using hsome
        length_fraction := Nat.not_lt.1 hshort }
    have hchars : s.chars = trim text.toList := by
      rw [hsign, hpoint]
      rfl
    refine ⟨s, hchars ▸ amongBlanks_trim _, hsmall, ?_⟩
    rw [← Except.ok.inj h]
    simp [s, Spelling.raw, Spelling.magnitude, Spelling.decimals]
  · cases h

/-- **Exactly the spellings are read** whose digits do not stand for too large a number, and each of
them as what it stands for. -/
theorem parse_eq_ok_iff {text : String} {a : Amount} : parse text = .ok a ↔
    ∃ s : Spelling, AmongBlanks s.chars text.toList ∧ s.magnitude ≤ 9223372036854775807 ∧
      a.raw = s.raw := by
  constructor
  · exact exists_spelling_of_parse
  · rintro ⟨s, hblanks, hsmall, hraw⟩
    obtain ⟨b, hb, hraw'⟩ := (parse_of_amongBlanks hblanks).2 hsmall
    rw [hb, ext (hraw.trans hraw'.symm)]

end Amount

end RetailReport
