/-!
# Digit strings

Numbers as strings of ASCII digits: the value of a string (`Digits.value`), the shortest string of a
number (`Digits.decimal`), strings of a fixed width (`Digits.padded`), and the same in base sixteen.

## Main results

* `Digits.value_decimal`: the string of a number has that number as its value.
* `Digits.value_append`: a string in two pieces.
* `Digits.signed_inj`: different integers have different strings.
-/

namespace RetailReport.Digits

-- Powers are those of the core library.
attribute [local instance (high)] instPowNat

/-- Whether a character is one of the ten ASCII digits. -/
def isDigit (c : Char) : Bool := '0' ≤ c && c ≤ '9'

/-- The number that a digit stands for. -/
def digitValue (c : Char) : Nat := c.toNat - '0'.toNat

/-- The digit that stands for a number below ten. -/
def digitChar (n : Nat) : Char := Char.ofNat ('0'.toNat + n)

/-- The value of a digit string, read from the left after `acc`. -/
def valueFrom (acc : Nat) (cs : List Char) : Nat :=
  cs.foldl (fun n c => 10 * n + digitValue c) acc

/-- The value of a digit string; the empty string has value zero. -/
def value (cs : List Char) : Nat := valueFrom 0 cs

/-- A number without leading zeros. -/
def decimal (n : Nat) : List Char :=
  if n < 10 then [digitChar n] else decimal (n / 10) ++ [digitChar (n % 10)]
termination_by n
decreasing_by omega

/-- A number with zeros in front, up to a width. -/
def padded (width n : Nat) : List Char :=
  List.replicate (width - (decimal n).length) '0' ++ decimal n

/-- An integer without leading zeros, with a minus sign if it is negative. -/
def signed (i : Int) : List Char :=
  if i < 0 then '-' :: decimal i.natAbs else decimal i.natAbs

/-- The digit that stands for a number below sixteen, in lower case. -/
def hexChar (n : Nat) : Char :=
  if n < 10 then digitChar n else Char.ofNat ('a'.toNat + (n - 10))

/-- The last `width` hexadecimal digits of a number, in lower case. -/
def hex : (width : Nat) → Nat → List Char
  | 0, _ => []
  | width + 1, n => hex width (n / 16) ++ [hexChar (n % 16)]

/-- The number that a hexadecimal digit of either case stands for. -/
def hexValue? (c : Char) : Option Nat :=
  if isDigit c then some (digitValue c)
  else if 'a' ≤ c ∧ c ≤ 'f' then some (c.toNat - 'a'.toNat + 10)
  else if 'A' ≤ c ∧ c ≤ 'F' then some (c.toNat - 'A'.toNat + 10)
  else none

/-! ### Laws -/

theorem digitValue_digitChar {n : Nat} (h : n < 10) : digitValue (digitChar n) = n := by
  match n, h with
  | 0, _ | 1, _ | 2, _ | 3, _ | 4, _ | 5, _ | 6, _ | 7, _ | 8, _ | 9, _ => rfl

theorem isDigit_digitChar {n : Nat} (h : n < 10) : isDigit (digitChar n) = true := by
  match n, h with
  | 0, _ | 1, _ | 2, _ | 3, _ | 4, _ | 5, _ | 6, _ | 7, _ | 8, _ | 9, _ => rfl

theorem valueFrom_append (acc : Nat) (cs ds : List Char) :
    valueFrom acc (cs ++ ds) = valueFrom (valueFrom acc cs) ds := List.foldl_append

theorem valueFrom_eq (acc : Nat) (cs : List Char) :
    valueFrom acc cs = acc * 10 ^ cs.length + value cs := by
  induction cs generalizing acc with
  | nil => simp [valueFrom, value]
  | cons c cs ih =>
    have h : ∀ a, valueFrom a (c :: cs) = valueFrom (10 * a + digitValue c) cs := fun _ => rfl
    have h₀ : value (c :: cs) = digitValue c * 10 ^ cs.length + value cs := by
      rw [value, h, ih, Nat.mul_zero, Nat.zero_add]
    rw [h, ih, h₀, List.length_cons, Nat.pow_succ, Nat.add_mul, Nat.mul_comm 10 acc, Nat.mul_assoc,
      Nat.mul_comm 10 (10 ^ cs.length), Nat.add_assoc]

/-- The value of a string in two pieces. -/
theorem value_append (cs ds : List Char) :
    value (cs ++ ds) = value cs * 10 ^ ds.length + value ds := by
  rw [value, valueFrom_append, valueFrom_eq]; rfl

/-- **The string of a number has that number as its value.** -/
theorem value_decimal (n : Nat) : value (decimal n) = n := by
  induction n using decimal.induct with
  | case1 n h => rw [decimal, if_pos h]; simp [value, valueFrom, digitValue_digitChar h]
  | case2 n h ih =>
    rw [decimal, if_neg h, value_append, ih]
    simp only [value, valueFrom, List.foldl_cons, List.foldl_nil, List.length_singleton,
      digitValue_digitChar (Nat.mod_lt n (by decide : 0 < 10))]
    omega

theorem isDigit_of_mem_decimal {n : Nat} {c : Char} (h : c ∈ decimal n) : isDigit c = true := by
  induction n using decimal.induct with
  | case1 n hn =>
    rw [decimal, if_pos hn] at h
    rw [List.mem_singleton.1 h]; exact isDigit_digitChar hn
  | case2 n hn ih =>
    rw [decimal, if_neg hn] at h
    rcases List.mem_append.1 h with h | h
    · exact ih h
    · rw [List.mem_singleton.1 h]; exact isDigit_digitChar (Nat.mod_lt n (by decide))

theorem decimal_ne_nil (n : Nat) : decimal n ≠ [] := by
  rw [decimal]
  split
  · exact List.cons_ne_nil _ _
  · exact List.append_ne_nil_of_right_ne_nil _ (List.cons_ne_nil _ _)

/-- Different numbers have different strings. -/
theorem decimal_inj {m n : Nat} (h : decimal m = decimal n) : m = n := by
  rw [← value_decimal m, h, value_decimal]

theorem ne_minus_cons (n : Nat) (cs : List Char) : decimal n ≠ '-' :: cs := fun h =>
  absurd (isDigit_of_mem_decimal (h ▸ List.mem_cons_self : '-' ∈ decimal n)) (by decide)

/-- Different integers have different strings. -/
theorem signed_inj {i j : Int} (h : signed i = signed j) : i = j := by
  unfold signed at h
  split at h <;> split at h
  · have := decimal_inj (List.cons.inj h).2
    omega
  · exact absurd h.symm (ne_minus_cons _ _)
  · exact absurd h (ne_minus_cons _ _)
  · have := decimal_inj h
    omega

/-- Only zero begins with a zero. -/
theorem eq_zero_of_head?_decimal {n : Nat} (h : (decimal n).head? = some '0') : n = 0 := by
  induction n using decimal.induct with
  | case1 n hn =>
    rw [decimal, if_pos hn, List.head?_cons, Option.some.injEq] at h
    rw [← digitValue_digitChar hn, h]
    rfl
  | case2 n hn ih =>
    have hhead : (decimal (n / 10)).head? = some '0' := by
      rw [decimal, if_neg hn, List.head?_append] at h
      obtain ⟨c, cs, hcs⟩ := List.exists_cons_of_ne_nil (decimal_ne_nil (n / 10))
      rw [hcs] at h ⊢
      exact h
    have hten := ih hhead
    omega

end RetailReport.Digits
