import RetailReport.Proofs.Amount.Spelling

/-!
# Reading written amounts

Every amount is written, from the least to the greatest, but not every one is read back: a text is
read as a magnitude with a sign, and the magnitude of the least amount is beyond the greatest one.  So
the least amount has a text that is refused as out of range, and it is the only one.

## Main definitions

* `Amount.written`: a written amount as a spelling.
* `Amount.IsDecimals`: the decimals of some ten-thousandths.

## Main results

* `Amount.parse_render`: what becomes of a written amount when it is read.
* `Amount.reads_and_writes`: texts are read exactly, and amounts written faithfully.
-/

namespace RetailReport

-- Powers are those of the core library.
attribute [local instance (high)] instPowNat

open Digits

namespace Amount

open Text

/-! ### Decimals -/

/-- **What is left of four decimals** has lost nothing but zeros at its end. -/
theorem exists_trimDecimals_eq {cs : List Char} (h : cs.length = 4) :
    (trimDecimals cs).length ≤ 4 ∧
      cs = trimDecimals cs ++ List.replicate (4 - (trimDecimals cs).length) '0' := by
  unfold trimDecimals
  split
  · exact ⟨by simp, rfl⟩
  · exact ⟨by simp, rfl⟩
  · refine ⟨Nat.le_of_eq h, ?_⟩
    rw [h]
    exact (List.append_nil cs).symm

/-- What is left of four decimals has no more zeros to lose. -/
theorem last_trimDecimals {cs : List Char} (h : cs.length = 4) :
    2 ≤ (trimDecimals cs).length ∧
      (2 < (trimDecimals cs).length → (trimDecimals cs).getLast? ≠ some '0') := by
  match cs, h with
  | [a, b, c, d], _ =>
    unfold trimDecimals
    split
    · exact ⟨Nat.le_refl 2, fun hlong => absurd hlong (Nat.lt_irrefl 2)⟩
    · next hc heq =>
      obtain ⟨rfl, rfl, rfl, rfl⟩ : a = _ ∧ b = _ ∧ c = _ ∧ d = '0' := by simpa using heq
      exact ⟨by simp, fun _ hlast => hc (by simpa using hlast)⟩
    · next hd => exact ⟨by simp, fun _ hlast => hd a b c (by simpa using hlast)⟩

/-- The decimals of an amount. -/
def decimals (a : Amount) : List Char := trimDecimals (padded 4 (a.raw.natAbs % scale))

theorem length_padded_decimals (a : Amount) : (padded 4 (a.raw.natAbs % scale)).length = 4 :=
  length_padded (Nat.mod_lt _ (by decide)) (by decide)

theorem isDigit_of_mem_decimals {a : Amount} {c : Char} (h : c ∈ a.decimals) :
    isDigit c = true := by
  obtain ⟨-, heq⟩ := exists_trimDecimals_eq a.length_padded_decimals
  have hmem : c ∈ padded 4 (a.raw.natAbs % scale) := by
    rw [heq]
    exact List.mem_append_left _ h
  exact isDigit_of_mem_padded hmem

/-- **The decimals of an amount** are read as its ten-thousandths. -/
theorem value_decimals (a : Amount) :
    value a.decimals * 10 ^ (4 - a.decimals.length) = a.raw.natAbs % scale := by
  obtain ⟨-, heq⟩ := exists_trimDecimals_eq a.length_padded_decimals
  have hvalue := congrArg value heq
  rw [value_padded, value_append, value_zeros, List.length_replicate] at hvalue
  exact hvalue.symm

/-! ### Writing and reading -/

/-- The whole units of an amount, as they are written. -/
def units (a : Amount) : List Char := decimal (a.raw.natAbs / scale)

theorem isDigit_of_mem_units {a : Amount} {c : Char} (h : c ∈ a.units) : isDigit c = true :=
  isDigit_of_mem_decimal h

theorem toList_render (a : Amount) :
    a.render.toList = (if a.raw < 0 then ['-'] else []) ++ (a.units ++ '.' :: a.decimals) := by
  rw [render, String.toList_ofList, List.append_assoc]
  rfl

/-- An amount as it is written. -/
def written (a : Amount) : Spelling where
  sign := if a.raw < 0 then .minus else .none
  whole := a.units
  fraction := some a.decimals
  isDigit_whole _ := isDigit_of_mem_units
  isDigit_fraction _ := isDigit_of_mem_decimals
  exists_digit := .inl (decimal_ne_nil _)
  length_fraction := (exists_trimDecimals_eq a.length_padded_decimals).1

theorem chars_written (a : Amount) : a.written.chars = a.render.toList := by
  rw [toList_render]
  by_cases hneg : a.raw < 0
  · simp [Spelling.chars, Spelling.pointed, written, Sign.chars, hneg]
  · simp [Spelling.chars, Spelling.pointed, written, Sign.chars, hneg]

/-- The whole units and the decimals make up the magnitude. -/
theorem magnitude_written (a : Amount) : a.written.magnitude = a.raw.natAbs := by
  change value a.units * scale + value a.decimals * 10 ^ (4 - a.decimals.length) = _
  rw [value_decimals, units, value_decimal]
  exact Nat.div_add_mod' _ _

/-- The written form stands for the amount. -/
theorem raw_written (a : Amount) : a.written.raw = a.raw := by
  have hminus : a.written.sign = .minus ↔ a.raw < 0 := by
    by_cases hneg : a.raw < 0
    · simp [written, hneg]
    · simp [written, hneg]
  rw [Spelling.raw, magnitude_written]
  simp only [hminus]
  split <;> omega

/-- **A written amount is read back**, unless it is the least one, which is out of range. -/
theorem parse_render (a : Amount) :
    parse a.render = if a.raw = minRaw then .error (.outOfRange a.render) else .ok a := by
  have hblanks : AmongBlanks a.written.chars a.render.toList :=
    chars_written a ▸ AmongBlanks.refl _
  obtain ⟨hlarge, hsmall⟩ := parse_of_amongBlanks hblanks
  rw [magnitude_written] at hlarge hsmall
  have hlow := a.le_raw
  have hhigh := a.raw_le
  by_cases hleast : a.raw = minRaw
  · rw [if_pos hleast, hlarge (by rw [hleast]; decide), chars_written, String.ofList_toList]
  · have hwithin : a.raw.natAbs ≤ 9223372036854775807 := by
      unfold minRaw at hleast
      omega
    obtain ⟨b, hb, hraw⟩ := hsmall hwithin
    rw [if_neg hleast, hb, ext (hraw.trans (raw_written a))]

/-- **Different amounts have different texts.** -/
theorem render_inj {a b : Amount} (h : a.render = b.render) : a = b := by
  have hparse := congrArg parse h
  rw [parse_render, parse_render] at hparse
  by_cases ha : a.raw = minRaw
  · by_cases hb : b.raw = minRaw
    · exact ext (ha.trans hb.symm)
    · rw [if_pos ha, if_neg hb] at hparse
      cases hparse
  · by_cases hb : b.raw = minRaw
    · rw [if_neg ha, if_pos hb] at hparse
      cases hparse
    · rw [if_neg ha, if_neg hb] at hparse
      exact Except.ok.inj hparse

/-! ### Exactly and faithfully -/

/-- **The decimals of some ten-thousandths**: two to four digits, where a third or fourth one is no
zero at the end. -/
structure IsDecimals (n : Nat) (cs : List Char) : Prop where
  isDigit : ∀ c ∈ cs, isDigit c = true
  two_le : 2 ≤ cs.length
  le_four : cs.length ≤ 4
  /-- No zero may be dropped. -/
  last : 2 < cs.length → cs.getLast? ≠ some '0'
  /-- They stand for the ten-thousandths. -/
  value : value cs * 10 ^ (4 - cs.length) = n

theorem isDecimals_decimals (a : Amount) : IsDecimals (a.raw.natAbs % scale) a.decimals where
  isDigit _ := isDigit_of_mem_decimals
  two_le := (last_trimDecimals a.length_padded_decimals).1
  le_four := (exists_trimDecimals_eq a.length_padded_decimals).1
  last := (last_trimDecimals a.length_padded_decimals).2
  value := a.value_decimals

/-- **Texts are read exactly, and amounts written faithfully.**  A text is read exactly if it is a
spelling whose digits stand for at most the greatest amount, and as what it stands for.  An amount is
written with its sign, its whole units, and no more decimals than it needs but two; no two amounts are
written alike, and each but the least one is read back. -/
theorem reads_and_writes :
    (∀ (text : String) (a : Amount), parse text = .ok a ↔ ∃ s : Spelling,
      AmongBlanks s.chars text.toList ∧ s.magnitude ≤ 9223372036854775807 ∧ a.raw = s.raw) ∧
    (∀ a : Amount, ∃ decimals, IsDecimals (a.raw.natAbs % scale) decimals ∧
      a.render.toList = (if a.raw < 0 then ['-'] else []) ++
        (decimal (a.raw.natAbs / scale) ++ '.' :: decimals)) ∧
    (∀ a b : Amount, a ≠ b → a.render ≠ b.render) ∧
    ∀ a : Amount, parse a.render =
      if a.raw = minRaw then .error (.outOfRange a.render) else .ok a :=
  ⟨fun _ _ => parse_eq_ok_iff, fun a => ⟨a.decimals, a.isDecimals_decimals, a.toList_render⟩,
    fun _ _ hne h => hne (render_inj h), parse_render⟩

end Amount

end RetailReport
