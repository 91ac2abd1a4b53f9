import RetailReport.Proofs.Amount.Reading
import RetailReport.Proofs.Calendar.Reading
import RetailReport.Proofs.Json.Reading
import RetailReport.Proofs.Partition.FileName

/-!
# What the content hash covers

The content hash of lines is a check value of bytes, and says of two lists of lines what it says of
their bytes.  These are those of a text with the canonical text of each line, and a line end behind it.
A canonical text shows where it ends, whatever follows, and tells each part of its line, but for one:
a leap second within a minute is written as the second after it.  Apart from that, different lists of
lines have different bytes, and only the check value can be the same by chance.

## Main definitions

* `FactRecord.carried`: the line that a text tells of.
* `hashedChars`: the characters that the content hash covers.

## Main results

* `FactRecord.toJson_eq_iff`: **different lines** have different JSON forms, up to `carried`.
* `FactRecord.text_append_inj`: **where the text of a line ends** is seen from what stands there.
* `hashedBytes_identify`: **the bytes tell the lines**, and a hash that two lists share is a collision.
* `hashedBytes_eq_withinMinute`: two lines that they do not tell apart.
-/

namespace RetailReport

-- Powers are those of the core library.
attribute [local instance (high)] instPowNat

/-! ### The JSON form of a line -/

theorem amountsToJson_inj {m m' : SortedMap String Amount} (h : amountsToJson m = amountsToJson m') :
    m = m' := by
  rw [amountsToJson, amountsToJson, Json.object.injEq] at h
  refine SortedMap.ext_toList (List.map_injective_iff.2 (fun e e' hentry => ?_) h)
  rw [Prod.mk.injEq, Json.string.injEq] at hentry
  exact Prod.ext hentry.1 (Amount.render_inj hentry.2)

namespace FactRecord

/-- **The line that a text tells of**: its moment is the one that is read back. -/
def carried (f : FactRecord) : FactRecord := { f with timestamp := f.timestamp.carried }

theorem carried_eq_self {f : FactRecord} (h : f.timestamp.Regular) : f.carried = f := by
  rw [carried, f.timestamp.carried_eq_self_iff.2 h]

theorem map_carried_eq_self {facts : List FactRecord} (h : ∀ f ∈ facts, f.timestamp.Regular) :
    facts.map carried = facts :=
  (List.map_congr_left fun f hf => carried_eq_self (h f hf)).trans facts.map_id'

theorem toJson_carried (f : FactRecord) : f.carried.toJson = f.toJson := by
  simp only [toJson, carried, f.timestamp.render_carried]

/-- **Two lines have the same JSON form** exactly if it tells of the same line. -/
theorem toJson_eq_iff {f f' : FactRecord} : f.toJson = f'.toJson ↔ f.carried = f'.carried := by
  refine ⟨fun h => ?_, fun h => by rw [← toJson_carried f, h, toJson_carried]⟩
  simp only [toJson, Json.object.injEq, List.cons.injEq, Prod.mk.injEq, Json.string.injEq, true_and,
    and_true] at h
  obtain ⟨hrecord, horder, hstore, htimestamp, hchannel, hitems, horders⟩ := h
  have htimestamp := Timestamp.render_eq_iff.1 htimestamp
  have hitems := amountsToJson_inj hitems
  have horders := amountsToJson_inj horders
  simp only [carried, hrecord, horder, hstore, htimestamp, hchannel, hitems, horders]

theorem text_carried (f : FactRecord) : f.carried.text = f.text := by
  rw [text, text, toJson_carried]

/-- A line is an object of texts and two objects of texts. -/
theorem plain_toJson (f : FactRecord) : Json.Plain 2 f.toJson := by
  have hamounts (m : SortedMap String Amount) : Json.Plain 1 (amountsToJson m) := by
    refine .object fun member hmember => ?_
    obtain ⟨e, -, rfl⟩ := List.mem_map.1 hmember
    exact .string _
  refine .object ?_
  simp only [List.forall_mem_cons]
  exact ⟨.string _, .string _, .string _, .string _, .string _, hamounts _, hamounts _, nofun⟩

/-- **Where the text of a line ends** is seen from what stands there, if a line end follows. -/
theorem text_append_inj {f f' : FactRecord} {rest rest' : List Char}
    (h : f.text.toList ++ '\n' :: rest = f'.text.toList ++ '\n' :: rest') :
    f.carried = f'.carried ∧ rest = rest' := by
  -- No text of a value goes on with a line end, so both texts end where theirs stands.
  have hends (cs : List Char) : Json.Ends ('\n' :: cs) := Json.ends_cons (by decide) cs
  simp only [text, Json.render, String.toList_ofList] at h
  obtain ⟨hjson, hrest⟩ :=
    f.plain_toJson.write_append_inj f'.plain_toJson .dense 0 (hends rest) (hends rest') h
  exact ⟨toJson_eq_iff.1 hjson, (List.cons.inj hrest).2⟩

end FactRecord

/-! ### Characters -/

/-- The characters that the content hash covers. -/
def hashedChars (facts : List FactRecord) : List Char :=
  facts.flatMap fun f => f.text.toList ++ ['\n']

theorem hashedChars_cons (f : FactRecord) (facts : List FactRecord) :
    hashedChars (f :: facts) = f.text.toList ++ '\n' :: hashedChars facts := by
  simp [hashedChars]

theorem hashedChars_carried (facts : List FactRecord) :
    hashedChars (facts.map FactRecord.carried) = hashedChars facts := by
  simp only [hashedChars, List.flatMap_map, FactRecord.text_carried]

/-- **The characters tell the lines**, one after the other. -/
theorem map_carried_eq_of_hashedChars {facts facts' : List FactRecord}
    (h : hashedChars facts = hashedChars facts') :
    facts.map FactRecord.carried = facts'.map FactRecord.carried := by
  have hne (f : FactRecord) (l : List FactRecord) : hashedChars (f :: l) ≠ [] := by
    rw [hashedChars_cons]
    exact List.append_ne_nil_of_right_ne_nil _ (List.cons_ne_nil _ _)
  induction facts generalizing facts' with
  | nil =>
    cases facts' with
    | nil => rfl
    | cons f' facts' => exact absurd h.symm (hne f' facts')
  | cons f facts ih =>
    cases facts' with
    | nil => exact absurd h (hne f facts)
    | cons f' facts' =>
      rw [hashedChars_cons, hashedChars_cons] at h
      obtain ⟨hfirst, hothers⟩ := FactRecord.text_append_inj h
      rw [List.map_cons, List.map_cons, hfirst, ih hothers]

/-! ### Bytes -/

theorem ByteArray.toList_loop (bytes : ByteArray) (i : Nat) (before : List UInt8) :
    ByteArray.toList.loop bytes i before = before.reverse ++ bytes.data.toList.drop i := by
  fun_induction ByteArray.toList.loop bytes i before with
  | case1 i before hi ih =>
    have hi : i < bytes.data.size := hi
    have hget : bytes.get! i = bytes.data.toList[i] := getElem!_pos bytes.data i hi
    rw [ih, List.reverse_cons, List.append_assoc, List.singleton_append, hget,
      ← List.drop_eq_getElem_cons]
  | case2 i before hi =>
    rw [List.drop_eq_nil_of_le (Nat.le_of_not_lt hi), List.append_nil]

/-- The bytes of an array, one after the other. -/
theorem ByteArray.toList_eq (bytes : ByteArray) : bytes.toList = bytes.data.toList :=
  (ByteArray.toList_loop bytes 0 []).trans (List.nil_append _)

theorem String.toList_toUTF8_append (s t : String) :
    (s ++ t).toUTF8.toList = s.toUTF8.toList ++ t.toUTF8.toList := by
  rw [ByteArray.toList_eq, ByteArray.toList_eq, ByteArray.toList_eq, String.toUTF8_eq_toByteArray,
    String.toByteArray_append, ByteArray.toList_data_append]
  rfl

theorem String.toList_toUTF8_inj {s t : String} (h : s.toUTF8.toList = t.toUTF8.toList) : s = t := by
  rw [ByteArray.toList_eq, ByteArray.toList_eq, Array.toList_inj] at h
  exact String.toByteArray_inj.1 (ByteArray.ext h)

/-- The bytes are those of the characters. -/
theorem hashedBytes_eq (facts : List FactRecord) :
    hashedBytes facts = (String.ofList (hashedChars facts)).toUTF8.toList := by
  induction facts with
  | nil =>
    rw [ByteArray.toList_eq]
    rfl
  | cons f facts ih =>
    have hend : "\n".toUTF8.toList = [0x0A] := by
      rw [ByteArray.toList_eq]
      rfl
    have hchars : String.ofList (hashedChars (f :: facts)) =
        f.text ++ ("\n" ++ String.ofList (hashedChars facts)) := by
      rw [← String.toList_inj, hashedChars_cons]
      simp [String.toList_append]
    rw [hchars, String.toList_toUTF8_append, String.toList_toUTF8_append, hend, ← ih, hashedBytes,
      List.flatMap_cons, List.append_assoc]
    rfl

/-- **Two lists have the same bytes** exactly if their texts tell of the same lines. -/
theorem hashedBytes_eq_iff {facts facts' : List FactRecord} :
    hashedBytes facts = hashedBytes facts' ↔
      facts.map FactRecord.carried = facts'.map FactRecord.carried := by
  rw [hashedBytes_eq, hashedBytes_eq]
  refine ⟨fun h => ?_, fun h => ?_⟩
  · exact map_carried_eq_of_hashedChars (String.ofList_injective (String.toList_toUTF8_inj h))
  · rw [← hashedChars_carried facts, h, hashedChars_carried]

/-! ### Hashes -/

namespace Digits

theorem hexChar_inj : ∀ m < 16, ∀ n < 16, hexChar m = hexChar n → m = n := by decide

/-- Different numbers have different hexadecimal digits, if there are enough of them. -/
theorem hex_inj {width m n : Nat} (hm : m < 16 ^ width) (hn : n < 16 ^ width)
    (h : hex width m = hex width n) : m = n := by
  induction width generalizing m n with
  | zero => omega
  | succ width ih =>
    obtain ⟨hfront, hlast⟩ := List.append_inj' h rfl
    have hfront := ih (Nat.div_lt_of_lt_mul (by rwa [Nat.mul_comm, ← Nat.pow_succ]))
      (Nat.div_lt_of_lt_mul (by rwa [Nat.mul_comm, ← Nat.pow_succ])) hfront
    have hlast := hexChar_inj _ (Nat.mod_lt m (by decide)) _ (Nat.mod_lt n (by decide))
      (List.singleton_inj.1 hlast)
    omega

end Digits

open Digits

/-- A hash tells the check value and the number of lines. -/
theorem contentHash_eq_iff {facts facts' : List FactRecord} :
    contentHash facts = contentHash facts' ↔
      Crc32.ofBytes (hashedBytes facts) = Crc32.ofBytes (hashedBytes facts') ∧
        facts.length = facts'.length := by
  constructor
  · intro h
    rw [← String.toList_inj, toList_contentHash, toList_contentHash] at h
    -- The hash is parted at its hyphen, since the number behind it has none.
    obtain ⟨hcheck, hcount⟩ := PartitionStore.append_cons_inj (hyphen_notMem_decimal _)
      (hyphen_notMem_decimal _) h
    exact ⟨UInt32.toNat_inj.1 (hex_inj (UInt32.toNat_lt _) (UInt32.toNat_lt _) hcheck),
      decimal_inj hcount⟩
  · rintro ⟨hcheck, hcount⟩
    rw [contentHash, contentHash, hcheck, hcount]

/-- **The bytes that are hashed tell the lines**, of any number and with any texts, moments and
amounts, up to leap seconds within a minute, which have the text of the second after them.  Lists of
lines that have the same hash are the same in this way, or else have different bytes with the same
check value.  If no leap second is within a minute, they are the same as they stand. -/
theorem hashedBytes_identify (facts facts' : List FactRecord) :
    (hashedBytes facts = hashedBytes facts' ↔
      facts.map FactRecord.carried = facts'.map FactRecord.carried) ∧
    (contentHash facts = contentHash facts' ↔
      facts.map FactRecord.carried = facts'.map FactRecord.carried ∨
        hashedBytes facts ≠ hashedBytes facts' ∧ facts.length = facts'.length ∧
          Crc32.ofBytes (hashedBytes facts) = Crc32.ofBytes (hashedBytes facts')) ∧
    ((∀ f ∈ facts ++ facts', 1000000000 ≤ f.timestamp.nano → f.timestamp.second % 60 = 59) →
      (hashedBytes facts = hashedBytes facts' ↔ facts = facts') ∧
      (contentHash facts = contentHash facts' ↔ facts = facts' ∨
        hashedBytes facts ≠ hashedBytes facts' ∧ facts.length = facts'.length ∧
          Crc32.ofBytes (hashedBytes facts) = Crc32.ofBytes (hashedBytes facts'))) := by
  have hbytes : hashedBytes facts = hashedBytes facts' ↔
      facts.map FactRecord.carried = facts'.map FactRecord.carried := hashedBytes_eq_iff
  have hhash : contentHash facts = contentHash facts' ↔
      facts.map FactRecord.carried = facts'.map FactRecord.carried ∨
        hashedBytes facts ≠ hashedBytes facts' ∧ facts.length = facts'.length ∧
          Crc32.ofBytes (hashedBytes facts) = Crc32.ofBytes (hashedBytes facts') := by
    rw [contentHash_eq_iff, Ne, hbytes]
    by_cases h : facts.map FactRecord.carried = facts'.map FactRecord.carried
    · have hlength : facts.length = facts'.length := by
        simpa only [List.length_map] using congrArg List.length h
      exact iff_of_true ⟨congrArg Crc32.ofBytes (hbytes.2 h), hlength⟩ (.inl h)
    · rw [or_iff_right h, and_iff_right h, and_comm]
  refine ⟨hbytes, hhash, fun hregular => ?_⟩
  rw [FactRecord.map_carried_eq_self fun f hf => hregular f (List.mem_append_left _ hf),
    FactRecord.map_carried_eq_self fun f hf => hregular f (List.mem_append_right _ hf)] at hbytes hhash
  exact ⟨hbytes, hhash⟩

/-- A line at a second and nanosecond of the first day of 1970. -/
def lineAt (second nano : Nat) (valid : second < 86400 ∧ nano < 2000000000) : FactRecord where
  recordId := "r1"
  orderId := "r1"
  storeId := "S1"
  timestamp := ⟨Date.epoch, second, nano, valid⟩
  channel := "APP"

/-- The leap second at the end of the day has other bytes than the second before it. -/
theorem hashedBytes_ne_leapSecond :
    hashedBytes [lineAt 86399 1000000000 (by decide)] ≠ hashedBytes [lineAt 86399 0 (by decide)] := by
  have hregular := (hashedBytes_identify [lineAt 86399 1000000000 (by decide)]
    [lineAt 86399 0 (by decide)]).2.2 (by decide)
  intro h
  exact absurd (hregular.1.1 h) (by decide)

/-- **Noon with a leap second** and a half has the bytes of half past the second after it. -/
theorem hashedBytes_eq_withinMinute :
    hashedBytes [lineAt 43200 1500000000 (by decide)] =
        hashedBytes [lineAt 43201 500000000 (by decide)] ∧
      contentHash [lineAt 43200 1500000000 (by decide)] =
        contentHash [lineAt 43201 500000000 (by decide)] ∧
      lineAt 43200 1500000000 (by decide) ≠ lineAt 43201 500000000 (by decide) := by
  have hbytes : hashedBytes [lineAt 43200 1500000000 (by decide)] =
      hashedBytes [lineAt 43201 500000000 (by decide)] := hashedBytes_eq_iff.2 (by decide)
  refine ⟨hbytes, ?_, by decide⟩
  rw [contentHash, contentHash, hbytes, List.length_singleton, List.length_singleton]

end RetailReport
