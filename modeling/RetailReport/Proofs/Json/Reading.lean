import RetailReport.Json.Reader
import RetailReport.Json.Writer

/-!
# Reading what was written

A value that a JSON text can spell is read back from its text, whichever way that is laid out.  Not
every value can be spelt: floats are left out here, and so is what is nested too deep, since it
denotes nothing when it is read.

The reader takes a number of steps along, which must suffice.  It spends at most one for each
character, so the length of the text is enough.

## Main definitions

* `Json.Plain`: the values that are read back, by how deep they may be nested.
* `Json.Ends`: the texts in front of which a number ends.

## Main results

* `Json.number?_signed`, `Json.string?_quoted`: numbers and strings are read back.
* `Json.Plain.readsBack`: **a plain value is read back**, whatever follows it.
* `Json.Plain.read_write`: the text of a plain value denotes the value.
* `Json.Plain.write_append_inj`: plain values are told apart by their texts, whatever follows.
-/

namespace RetailReport.Json

-- Powers are those of the core library.
attribute [local instance (high)] instPowNat

open Digits

/-! ### Blanks -/

theorem skipSpace_append {blanks : List Char} (h : ∀ c ∈ blanks, isSpace c = true)
    (cs : List Char) : skipSpace (blanks ++ cs) = skipSpace cs :=
  List.dropWhile_append_of_pos h

theorem skipSpace_cons {c : Char} (h : isSpace c = false) (cs : List Char) :
    skipSpace (c :: cs) = c :: cs :=
  List.dropWhile_cons_of_neg (by simp [h])

theorem isSpace_of_mem_lineBreak {layout : Layout} {level : Nat} {c : Char}
    (h : c ∈ layout.lineBreak level) : isSpace c = true := by
  cases layout with
  | dense => cases h
  | indented =>
    rcases List.mem_cons.1 h with rfl | h
    · rfl
    · rw [List.eq_of_mem_replicate h]
      rfl

/-- Blanks in front of a value are passed over. -/
theorem readValue_append {blanks : List Char} (h : ∀ c ∈ blanks, isSpace c = true)
    (fuel depth : Nat) (cs : List Char) :
    readValue fuel depth (blanks ++ cs) = readValue fuel depth cs := by
  cases fuel with
  | zero => rw [readValue, readValue]
  | succ fuel => rw [readValue, readValue, skipSpace_append h]

/-! ### Numbers -/

/-- In front of such a text a number ends. -/
def Ends (rest : List Char) : Prop :=
  ∀ c ∈ rest.head?, isDigit c = false ∧ c ≠ '.' ∧ c ≠ 'e' ∧ c ≠ 'E'

/-- The digits of a number come to their end. -/
theorem digits_append {ds rest : List Char} (hds : ∀ c ∈ ds, isDigit c = true) (hrest : Ends rest) :
    digits (ds ++ rest) = (ds, rest) := by
  have htake : rest.takeWhile isDigit = [] := by
    cases rest with
    | nil => rfl
    | cons c rest => exact List.takeWhile_cons_of_neg (by simp [(hrest c rfl).1])
  have hdrop : rest.dropWhile isDigit = rest := by
    cases rest with
    | nil => rfl
    | cons c rest => exact List.dropWhile_cons_of_neg (by simp [(hrest c rfl).1])
  rw [digits, List.takeWhile_append_of_pos hds, List.dropWhile_append_of_pos hds, htake, hdrop,
    List.append_nil]

theorem fraction?_of_ends {rest : List Char} (h : Ends rest) : fraction? rest = some (none, rest) := by
  unfold fraction?
  split
  · exact absurd rfl (h '.' rfl).2.1
  · rfl

theorem exponent?_of_ends {rest : List Char} (h : Ends rest) : exponent? rest = some (none, rest) := by
  cases rest with
  | nil => rfl
  | cons c rest =>
    obtain ⟨-, -, hlower, hupper⟩ := h c rfl
    unfold exponent?
    simp only [hlower, hupper, or_self, if_false]

/-- What is left of a number after its sign. -/
theorem number?_of_digits {cs : List Char} (negative : Bool) (n : Nat) {rest : List Char}
    (hsign : minus cs = (negative, decimal n ++ rest)) (h : Ends rest) :
    number? cs = some (⟨negative, decimal n, none, none⟩, rest) := by
  have hdigits : digits (decimal n ++ rest) = (decimal n, rest) :=
    digits_append (fun c hc => isDigit_of_mem_decimal hc) h
  have hwhole : ¬((decimal n).isEmpty = true ∨
      (decimal n).head? = some '0' ∧ 1 < (decimal n).length) := by
    rintro (hempty | ⟨hhead, hlong⟩)
    · exact decimal_ne_nil _ (List.isEmpty_iff.1 hempty)
    · rw [eq_zero_of_head?_decimal hhead, decimal] at hlong
      exact absurd hlong (by decide)
  unfold number?
  rw [hsign]
  simp only [hdigits, if_neg hwhole, fraction?_of_ends h, exponent?_of_ends h, Option.bind_eq_bind,
    Option.bind_some, Option.pure_def]

/-- **An integer is read back** as it is spelt. -/
theorem number?_signed (i : Int) {rest : List Char} (h : Ends rest) :
    number? (signed i ++ rest) = some (⟨decide (i < 0), decimal i.natAbs, none, none⟩, rest) := by
  by_cases hneg : i < 0
  · rw [signed, if_pos hneg, decide_eq_true hneg]
    exact number?_of_digits true _ rfl h
  · rw [signed, if_neg hneg, decide_eq_false hneg]
    refine number?_of_digits false _ ?_ h
    -- The first digit is no minus sign.
    unfold minus
    split
    · next heq =>
      have hminus : '-' ∈ decimal i.natAbs := by
        obtain ⟨c, cs, hcs⟩ := List.exists_cons_of_ne_nil (decimal_ne_nil i.natAbs)
        rw [hcs, List.cons_append, List.cons.injEq] at heq
        rw [hcs, heq.1]
        exact List.mem_cons_self
      cases isDigit_of_mem_decimal hminus
    · rfl

/-- An integer of 64 bits, signed or not, is what its digits say. -/
theorem ofSpelling_signed {i : Int} (hlow : -2 ^ (63 : Nat) ≤ i) (hhigh : i < 2 ^ (64 : Nat)) :
    ofSpelling ⟨decide (i < 0), decimal i.natAbs, none, none⟩ = .int i := by
  by_cases hneg : i < 0
  · have hrange : 0 < i.natAbs ∧ i.natAbs ≤ 2 ^ (63 : Nat) := by omega
    have hvalue : -(i.natAbs : Int) = i := by omega
    simp only [ofSpelling, value_decimal, decide_eq_true hneg, if_pos hrange, if_true, hvalue]
  · have hrange : i.natAbs < 2 ^ (64 : Nat) := by omega
    have hvalue : (i.natAbs : Int) = i := by omega
    simp only [ofSpelling, value_decimal, decide_eq_false hneg, Bool.false_eq_true, if_false,
      if_pos hrange, hvalue]

/-! ### Strings -/

theorem hexValue?_hexChar {n : Nat} (h : n < 16) : hexValue? (hexChar n) = some n := by
  revert n
  decide

/-- Four hexadecimal digits are read back. -/
theorem hexQuad?_hex {n : Nat} (h : n < 65536) (rest : List Char) :
    hexQuad? (hex 4 n ++ rest) = some (n, rest) := by
  have hdigit : ∀ m, hexValue? (hexChar (m % 16)) = some (m % 16) := fun m =>
    hexValue?_hexChar (Nat.mod_lt m (by decide))
  have hvalue : ((n / 16 / 16 / 16 % 16 * 16 + n / 16 / 16 % 16) * 16 + n / 16 % 16) * 16 + n % 16 =
      n := by
    omega
  simp only [hex, List.nil_append, List.cons_append, hexQuad?, hdigit, Option.bind_eq_bind,
    Option.bind_some, Option.pure_def, hvalue]

theorem length_escape_pos (c : Char) : 0 < (escape c).length := by
  unfold escape
  repeat' split
  all_goals exact Nat.zero_lt_succ _

/-- **A character of a string** is read back. -/
theorem stringBody_escape (fuel : Nat) (acc : List Char) (c : Char) (rest : List Char) :
    stringBody (fuel + 1) (some acc) (escape c ++ rest) = stringBody fuel (some (c :: acc)) rest := by
  unfold escape
  -- Seven characters have escapes of their own.
  iterate 7
    split
    · next h => subst h; rfl
  split
  · next hcontrol =>
    -- A control character is far below the surrogates.
    have hhigh : ¬(0xD800 ≤ c.toNat ∧ c.toNat < 0xDC00) := by omega
    have hlow : ¬(0xDC00 ≤ c.toNat ∧ c.toNat < 0xE000) := by omega
    have hquad : hexQuad? (hex 4 c.toNat ++ rest) = some (c.toNat, rest) :=
      hexQuad?_hex (by omega) rest
    rw [List.cons_append, List.cons_append, stringBody.eq_def]
    simp only [hquad, if_neg hhigh, if_neg hlow, Option.map_some, Char.ofNat_toNat,
      Char.reduceEq, if_false, if_true]
  · next hquote hslash _ _ _ _ _ hcontrol =>
    rw [List.singleton_append, stringBody.eq_def]
    simp only [if_neg hquote, if_neg hslash, if_neg hcontrol, Option.map_some]

theorem stringBody_quoted {fuel : Nat} (cs acc rest : List Char) (h : cs.length < fuel) :
    stringBody fuel (some acc) (cs.flatMap escape ++ '"' :: rest) =
      (some (cs.reverse ++ acc), some rest) := by
  induction cs generalizing fuel acc with
  | nil =>
    obtain ⟨fuel, rfl⟩ := Nat.exists_eq_add_of_lt h
    rfl
  | cons c cs ih =>
    cases fuel with
    | zero => cases h
    | succ fuel =>
      have hless : cs.length < fuel := Nat.lt_of_succ_lt_succ h
      rw [List.flatMap_cons, List.append_assoc, stringBody_escape, ih _ hless, List.reverse_cons,
        List.append_assoc]
      rfl

theorem length_le_length_flatMap_escape (cs : List Char) :
    cs.length ≤ (cs.flatMap escape).length := by
  induction cs with
  | nil => exact Nat.zero_le _
  | cons c cs ih =>
    have hpos := length_escape_pos c
    rw [List.flatMap_cons, List.length_append, List.length_cons]
    omega

/-- **A string is read back.** -/
theorem string?_quoted {fuel : Nat} (s : String) (rest : List Char)
    (h : (s.toList.flatMap escape).length < fuel) :
    string? fuel (s.toList.flatMap escape ++ '"' :: rest) = some (some s, rest) := by
  have hlength := length_le_length_flatMap_escape s.toList
  rw [string?, stringBody_quoted s.toList [] rest (by omega)]
  simp only [List.append_nil, Option.map_some, List.reverse_reverse, String.ofList_toList]

/-! ### Values -/

/-- **The values that are read back**: integers of 64 bits, and no floats, nested up to a depth. -/
inductive Plain : (depth : Nat) → Json → Prop
  | null {depth : Nat} : Plain depth .null
  | bool {depth : Nat} (b : Bool) : Plain depth (.bool b)
  | int {depth : Nat} {i : Int} : -2 ^ (63 : Nat) ≤ i → i < 2 ^ (64 : Nat) → Plain depth (.int i)
  | string {depth : Nat} (s : String) : Plain depth (.string s)
  | array {depth : Nat} {items : List Json} : (∀ j ∈ items, Plain depth j) →
      Plain (depth + 1) (.array items)
  | object {depth : Nat} {members : List (String × Json)} : (∀ m ∈ members, Plain depth m.2) →
      Plain (depth + 1) (.object members)

/-- A value is read back at any level of a text, whatever follows it. -/
def ReadsBack (layout : Layout) (depth : Nat) (j : Json) : Prop :=
  ∀ (level fuel : Nat) (rest : List Char), (write layout level j).length ≤ fuel → Ends rest →
    readValue fuel depth (write layout level j ++ rest) = (j, some rest)

/-- An integer begins with a minus sign or a digit. -/
theorem exists_signed_eq_cons (i : Int) :
    ∃ c cs, signed i = c :: cs ∧ (c = '-' ∨ isDigit c = true) := by
  unfold signed
  split
  · exact ⟨'-', _, rfl, .inl rfl⟩
  · obtain ⟨c, cs, hcs⟩ := List.exists_cons_of_ne_nil (decimal_ne_nil i.natAbs)
    exact ⟨c, cs, hcs, .inr (isDigit_of_mem_decimal (hcs ▸ List.mem_cons_self))⟩

theorem ne_of_minus_or_digit {c d : Char} (hc : c = '-' ∨ isDigit c = true)
    (hd : d ≠ '-' ∧ isDigit d = false) : c ≠ d := by
  rintro rfl
  rcases hc with hminus | hdigit
  · exact hd.1 hminus
  · rw [hd.2] at hdigit
    cases hdigit

theorem isSpace_of_minus_or_digit {c : Char} (h : c = '-' ∨ isDigit c = true) :
    isSpace c = false := by
  have hblank := ne_of_minus_or_digit h (d := ' ') (by decide)
  have hline := ne_of_minus_or_digit h (d := '\n') (by decide)
  have htab := ne_of_minus_or_digit h (d := '\t') (by decide)
  have hreturn := ne_of_minus_or_digit h (d := '\r') (by decide)
  simp [isSpace, hblank, hline, htab, hreturn]

/-- **The first character of a value** is no blank, and no closing bracket. -/
theorem Plain.exists_write_eq_cons {depth : Nat} {j : Json} (h : Plain depth j) (layout : Layout)
    (level : Nat) :
    ∃ c cs, write layout level j = c :: cs ∧ isSpace c = false ∧ c ≠ ']' := by
  cases h with
  | null => exact ⟨'n', _, rfl, rfl, by decide⟩
  | bool b => cases b <;> exact ⟨_, _, rfl, rfl, by decide⟩
  | int hlow hhigh =>
    obtain ⟨c, cs, hcs, hc⟩ := exists_signed_eq_cons _
    exact ⟨c, cs, hcs, isSpace_of_minus_or_digit hc, ne_of_minus_or_digit hc (by decide)⟩
  | string s => exact ⟨'"', _, rfl, rfl, by decide⟩
  | array _ => exact ⟨'[', _, rfl, rfl, by decide⟩
  | object _ => exact ⟨'{', _, rfl, rfl, by decide⟩

theorem readsBack_int (layout : Layout) (depth : Nat) {i : Int} (hlow : -2 ^ (63 : Nat) ≤ i)
    (hhigh : i < 2 ^ (64 : Nat)) : ReadsBack layout depth (.int i) := by
  intro level fuel rest hfuel hrest
  obtain ⟨c, cs, hcs, hc⟩ := exists_signed_eq_cons i
  have hne {d : Char} (hd : d ≠ '-' ∧ isDigit d = false) : c ≠ d := ne_of_minus_or_digit hc hd
  have hnumber := number?_signed i hrest
  rw [write, hcs] at hfuel ⊢
  rw [hcs, List.cons_append] at hnumber
  obtain ⟨fuel, rfl⟩ := Nat.exists_eq_add_of_lt (Nat.lt_of_lt_of_le (Nat.zero_lt_succ _) hfuel)
  rw [readValue, List.cons_append, skipSpace_cons (isSpace_of_minus_or_digit hc)]
  simp only [if_neg (hne (d := '{') (by decide)), if_neg (hne (d := '[') (by decide)),
    if_neg (hne (d := '"') (by decide)), if_neg (hne (d := 't') (by decide)),
    if_neg (hne (d := 'f') (by decide)), if_neg (hne (d := 'n') (by decide)), hnumber,
    ofSpelling_signed hlow hhigh]

theorem readsBack_string (layout : Layout) (depth : Nat) (s : String) :
    ReadsBack layout depth (.string s) := by
  intro level fuel rest hfuel _
  rw [write, quoteChars] at hfuel ⊢
  cases fuel with
  | zero => cases hfuel
  | succ fuel =>
    have hbody : (s.toList.flatMap escape).length < fuel := by
      rw [List.cons_append, List.length_cons, List.length_append, List.length_singleton] at hfuel
      omega
    have hstring := string?_quoted s rest hbody
    rw [readValue, List.cons_append, List.cons_append, skipSpace_cons rfl, List.append_assoc,
      List.singleton_append]
    simp only [hstring, Char.reduceEq, if_false, if_true]

theorem word?_append (word : String) (j : Json) (rest : List Char) :
    word? word j (word.toList ++ rest) = (j, some rest) := by
  have hprefix : word.toList.isPrefixOf (word.toList ++ rest) = true :=
    List.isPrefixOf_iff_prefix.2 (List.prefix_append _ _)
  rw [word?, if_pos hprefix, ← String.length_toList, List.drop_left]

/-- A value that is written as a word is read back if the word is known by its first letter. -/
theorem readsBack_of_word {layout : Layout} {depth : Nat} {j : Json} {w : String}
    (hwrite : ∀ level, write layout level j = w.toList) (hne : w.toList ≠ [])
    (hread : ∀ fuel rest, readValue (fuel + 1) depth (w.toList ++ rest) =
      word? w j (w.toList ++ rest)) : ReadsBack layout depth j := by
  intro level fuel rest hfuel _
  rw [hwrite] at hfuel ⊢
  cases fuel with
  | zero => exact absurd (List.length_eq_zero_iff.1 (Nat.le_zero.1 hfuel)) hne
  | succ fuel => rw [hread, word?_append]

theorem readsBack_null (layout : Layout) (depth : Nat) : ReadsBack layout depth .null := by
  refine readsBack_of_word (w := "null") (fun _ => rfl) (by simp) fun fuel rest => ?_
  show readValue (fuel + 1) depth ('n' :: 'u' :: 'l' :: 'l' :: rest) = _
  rw [readValue, skipSpace_cons rfl]
  rfl

theorem readsBack_bool (layout : Layout) (depth : Nat) (b : Bool) :
    ReadsBack layout depth (.bool b) := by
  cases b with
  | true =>
    refine readsBack_of_word (w := "true") (fun _ => rfl) (by simp) fun fuel rest => ?_
    show readValue (fuel + 1) depth ('t' :: 'r' :: 'u' :: 'e' :: rest) = _
    rw [readValue, skipSpace_cons rfl]
    rfl
  | false =>
    refine readsBack_of_word (w := "false") (fun _ => rfl) (by simp) fun fuel rest => ?_
    show readValue (fuel + 1) depth ('f' :: 'a' :: 'l' :: 's' :: 'e' :: rest) = _
    rw [readValue, skipSpace_cons rfl]
    rfl

/-! ### Lists and objects -/

theorem ends_cons {c : Char} (h : isDigit c = false ∧ c ≠ '.' ∧ c ≠ 'e' ∧ c ≠ 'E')
    (cs : List Char) : Ends (c :: cs) := by
  intro d hd
  cases hd
  exact h

/-- In front of what follows an item, a number ends. -/
theorem Ends.lineBreak_append {cs : List Char} (h : Ends cs) (layout : Layout) (level : Nat) :
    Ends (layout.lineBreak level ++ cs) := by
  cases layout with
  | dense => exact h
  | indented => exact ends_cons (by decide) _

theorem ends_writeItems (layout : Layout) (level : Nat) (items : List Json) (rest : List Char) :
    Ends (writeItems layout level false items ++ rest) := by
  cases items with
  | nil =>
    rw [writeItems, List.append_assoc]
    exact (ends_cons (by decide) rest).lineBreak_append layout level
  | cons j items =>
    rw [writeItems]
    exact ends_cons (by decide) _

theorem ends_writeMembers (layout : Layout) (level : Nat) (members : List (String × Json))
    (rest : List Char) : Ends (writeMembers layout level false members ++ rest) := by
  cases members with
  | nil =>
    rw [writeMembers, List.append_assoc]
    exact (ends_cons (by decide) rest).lineBreak_append layout level
  | cons m members =>
    rw [writeMembers]
    exact ends_cons (by decide) _

theorem skipSpace_ending (layout : Layout) (level : Nat) (first : Bool) (cs : List Char) :
    skipSpace (layout.ending level first ++ cs) = skipSpace cs := by
  cases first with
  | true => rfl
  | false => exact skipSpace_append (fun c hc => isSpace_of_mem_lineBreak hc) cs

theorem length_writeItems_pos (layout : Layout) (level : Nat) (first : Bool) (items : List Json) :
    0 < (writeItems layout level first items).length := by
  induction items generalizing first with
  | nil => simp [writeItems]
  | cons j items ih =>
    have hmore := ih false
    rw [writeItems, List.length_append]
    omega

/-- In front of a first item or member there are only blanks, which are passed over. -/
theorem skipSpace_separator_true (layout : Layout) (level : Nat) {c : Char} (cs : List Char)
    (h : isSpace c = false) :
    skipSpace (layout.separator level true ++ c :: cs) = c :: cs := by
  have hblanks : layout.separator level true = layout.lineBreak level := rfl
  rw [hblanks, skipSpace_append fun c hc => isSpace_of_mem_lineBreak hc, skipSpace_cons h]

/-- In front of any other one there is a comma. -/
theorem skipSpace_separator_false (layout : Layout) (level : Nat) (cs : List Char) :
    skipSpace (layout.separator level false ++ cs) = ',' :: (layout.lineBreak level ++ cs) :=
  skipSpace_cons rfl _

/-- **One more item** is read. -/
theorem readItems_separator (layout : Layout) (level : Nat) (first : Bool) {fuel depth : Nat}
    {c : Char} {cs rest : List Char} {j : Json} (hspace : isSpace c = false) (hclose : c ≠ ']')
    (hvalue : readValue fuel depth (c :: cs) = (j, some rest)) :
    readItems (fuel + 1) depth first (layout.separator level first ++ c :: cs) =
      (j :: (readItems fuel depth false rest).1, (readItems fuel depth false rest).2) := by
  rw [readItems]
  cases first with
  | true =>
    rw [skipSpace_separator_true layout level cs hspace]
    split
    · next heq => exact absurd (List.cons.inj heq).1 hclose
    · simp only [if_true, hvalue]
  | false =>
    have hafter : readValue fuel depth (layout.lineBreak level ++ c :: cs) = (j, some rest) := by
      rw [readValue_append fun c hc => isSpace_of_mem_lineBreak hc, hvalue]
    rw [skipSpace_separator_false]
    split
    · next heq => cases heq
    · simp only [Bool.false_eq_true, if_false, hafter]

/-- **The items of a list** are read back if each of them is. -/
theorem readItems_write {layout : Layout} {depth level : Nat} {items : List Json}
    (h : ∀ j ∈ items, Plain depth j ∧ ReadsBack layout depth j) (first : Bool) {fuel : Nat}
    (rest : List Char) (hfuel : (writeItems layout level first items).length ≤ fuel) :
    readItems fuel depth first (writeItems layout level first items ++ rest) =
      (items, some rest) := by
  induction items generalizing first fuel with
  | nil =>
    rw [writeItems] at hfuel ⊢
    cases fuel with
    | zero => simp at hfuel
    | succ fuel =>
      rw [readItems, List.append_assoc, skipSpace_ending]
      rfl
  | cons j items ih =>
    obtain ⟨hplain, hreads⟩ := h j List.mem_cons_self
    obtain ⟨c, cs, hcs, hspace, hclose⟩ := hplain.exists_write_eq_cons layout (level + 1)
    have hmore := length_writeItems_pos layout level false items
    have hitem : 0 < (write layout (level + 1) j).length := by
      rw [hcs]
      exact Nat.zero_lt_succ _
    rw [writeItems, List.length_append, List.length_append] at hfuel
    cases fuel with
    | zero => omega
    | succ fuel =>
      -- What follows the first item is read by the induction, with what is left of the fuel.
      have hothers : readItems fuel depth false (writeItems layout level false items ++ rest) =
          (items, some rest) :=
        ih (fun j hj => h j (List.mem_cons_of_mem _ hj)) false (by omega)
      have hvalue : readValue fuel depth
          (write layout (level + 1) j ++ (writeItems layout level false items ++ rest)) =
            (j, some (writeItems layout level false items ++ rest)) :=
        hreads _ _ _ (by omega) (ends_writeItems layout level items rest)
      rw [hcs, List.cons_append] at hvalue
      rw [writeItems, hcs, List.append_assoc, List.append_assoc, List.cons_append,
        readItems_separator layout _ first hspace hclose hvalue, hothers]

/-- **One more member** is read. -/
theorem readMembers_separator (layout : Layout) (level : Nat) (first : Bool) {fuel depth : Nat}
    {cs text rest : List Char} {name : String} {j : Json}
    (hname : string? fuel cs = some (some name, layout.colon ++ text))
    (hvalue : readValue fuel depth text = (j, some rest)) :
    readMembers (fuel + 1) depth first (layout.separator level first ++ '"' :: cs) =
      ((name, j) :: (readMembers fuel depth false rest).1,
        (readMembers fuel depth false rest).2) := by
  -- The colon may be followed by a blank.
  have hcolon : ∃ text', skipSpace (layout.colon ++ text) = ':' :: text' ∧
      readValue fuel depth text' = (j, some rest) := by
    cases layout with
    | dense => exact ⟨text, rfl, hvalue⟩
    | indented =>
      have hblank : ∀ c ∈ [' '], isSpace c = true := by
        intro c hc
        rw [List.mem_singleton.1 hc]
        rfl
      exact ⟨' ' :: text, rfl, (readValue_append hblank fuel depth text).trans hvalue⟩
  obtain ⟨text', hcolon, hvalue'⟩ := hcolon
  rw [readMembers]
  cases first with
  | true =>
    rw [skipSpace_separator_true layout level cs rfl]
    split
    · next heq => cases heq
    · simp only [if_true, hname, hcolon, hvalue', member]
  | false =>
    have hquote : skipSpace (layout.lineBreak level ++ '"' :: cs) = '"' :: cs := by
      rw [skipSpace_append fun c hc => isSpace_of_mem_lineBreak hc, skipSpace_cons rfl]
    rw [skipSpace_separator_false]
    split
    · next heq => cases heq
    · simp only [Bool.false_eq_true, if_false, hquote, hname, hcolon, hvalue', member]

theorem length_writeMembers_pos (layout : Layout) (level : Nat) (first : Bool)
    (members : List (String × Json)) : 0 < (writeMembers layout level first members).length := by
  induction members generalizing first with
  | nil => simp [writeMembers]
  | cons m members ih =>
    have hmore := ih false
    rw [writeMembers, List.length_append]
    omega

/-- **The members of an object** are read back if the value of each is. -/
theorem readMembers_write {layout : Layout} {depth level : Nat} {members : List (String × Json)}
    (h : ∀ m ∈ members, ReadsBack layout depth m.2) (first : Bool) {fuel : Nat}
    (rest : List Char) (hfuel : (writeMembers layout level first members).length ≤ fuel) :
    readMembers fuel depth first (writeMembers layout level first members ++ rest) =
      (members, some rest) := by
  induction members generalizing first fuel with
  | nil =>
    rw [writeMembers] at hfuel ⊢
    cases fuel with
    | zero => simp at hfuel
    | succ fuel =>
      rw [readMembers, List.append_assoc, skipSpace_ending]
      rfl
  | cons m members ih =>
    obtain ⟨name, j⟩ := m
    have hmore := length_writeMembers_pos layout level false members
    rw [writeMembers, quoteChars] at hfuel
    simp only [List.length_append, List.length_cons, List.length_nil] at hfuel
    cases fuel with
    | zero => omega
    | succ fuel =>
      have hothers : readMembers fuel depth false (writeMembers layout level false members ++ rest) =
          (members, some rest) :=
        ih (fun m hm => h m (List.mem_cons_of_mem _ hm)) false (by omega)
      have hvalue : readValue fuel depth
          (write layout (level + 1) j ++ (writeMembers layout level false members ++ rest)) =
            (j, some (writeMembers layout level false members ++ rest)) := by
        have hreads : ReadsBack layout depth j := h (name, j) List.mem_cons_self
        exact hreads _ _ _ (by omega) (ends_writeMembers layout level members rest)
      have hshort : (name.toList.flatMap escape).length < fuel := by omega
      have hname := string?_quoted name (layout.colon ++ (write layout (level + 1) j ++
        (writeMembers layout level false members ++ rest))) hshort
      rw [writeMembers, quoteChars]
      simp only [List.append_assoc, List.cons_append, List.nil_append]
      rw [readMembers_separator layout _ first hname hvalue, hothers]

/-! ### The text of a value -/

/-- **A plain value is read back**, whatever follows it. -/
theorem Plain.readsBack {depth : Nat} {j : Json} (h : Plain depth j) (layout : Layout) :
    ReadsBack layout depth j := by
  induction h with
  | null => exact readsBack_null layout _
  | bool b => exact readsBack_bool layout _ b
  | int hlow hhigh => exact readsBack_int layout _ hlow hhigh
  | string s => exact readsBack_string layout _ s
  | array hitems ih =>
    intro level fuel rest hfuel _
    rw [write] at hfuel ⊢
    cases fuel with
    | zero => cases hfuel
    | succ fuel =>
      have hread := readItems_write (fun j hj => ⟨hitems j hj, ih j hj⟩) true rest
        (Nat.le_of_succ_le_succ hfuel)
      rw [readValue, List.cons_append, skipSpace_cons rfl]
      simp only [Char.reduceEq, if_false, if_true, Nat.add_sub_cancel, hread, nested,
        Nat.add_one_ne_zero, false_and]
  | object hmembers ih =>
    intro level fuel rest hfuel _
    rw [write] at hfuel ⊢
    cases fuel with
    | zero => cases hfuel
    | succ fuel =>
      have hread := readMembers_write ih true rest (Nat.le_of_succ_le_succ hfuel)
      rw [readValue, List.cons_append, skipSpace_cons rfl]
      simp only [Char.reduceEq, if_false, if_true, Nat.add_sub_cancel, hread, nested,
        Nat.add_one_ne_zero, false_and]

/-- **The text of a plain value** denotes the value, and nothing follows it. -/
theorem Plain.read_write {j : Json} (h : Plain maxDepth j) (layout : Layout) (level : Nat) :
    read (String.ofList (write layout level j)) = ⟨j, true⟩ := by
  have hvalue := h.readsBack layout level (2 * (write layout level j).length + 4) [] (by omega)
    fun c hc => by cases hc
  rw [List.append_nil] at hvalue
  simp only [read, String.toList_ofList, hvalue]
  rfl

/-- **Plain values are told apart by their texts**, though more text follows each of them. -/
theorem Plain.write_append_inj {depth : Nat} {j j' : Json} (h : Plain depth j) (h' : Plain depth j')
    (layout : Layout) (level : Nat) {rest rest' : List Char} (hrest : Ends rest)
    (hrest' : Ends rest')
    (heq : write layout level j ++ rest = write layout level j' ++ rest') :
    j = j' ∧ rest = rest' := by
  -- One number of steps suffices for both of them.
  have hread := h.readsBack layout level
    ((write layout level j).length + (write layout level j').length) rest
    (Nat.le_add_right _ _) hrest
  have hread' := h'.readsBack layout level
    ((write layout level j).length + (write layout level j').length) rest'
    (Nat.le_add_left _ _) hrest'
  rw [← heq, hread, Prod.mk.injEq, Option.some.injEq] at hread'
  exact hread'

end RetailReport.Json
