import RetailReport.Digest.SipHash

/-!
# Bloom filters

A Bloom filter remembers texts in a number of bits that does not depend on how many there are.  It
may take a text for one that it was given, but never forgets one.  Its size follows from the number
of texts that it is meant for and from the rate at which it may err.

The positions of a text are an arithmetic progression: its first hash, then steps of its second,
which is odd and so never stands still.  Each position has a bit, and 64 of them share a word.

## Main definitions

* `BloomFilter.setBit`, `BloomFilter.hasBit`: the bit of a position.
* `BloomFilter.ofCapacity`: an empty filter.
* `BloomFilter.insert`, `BloomFilter.contains`.
* `BloomFilter.isSaturated`, `BloomFilter.errorRate`: how full it is.

## Main results

* `BloomFilter.contains_insert_self`, `BloomFilter.contains_insert`: nothing is forgotten.
-/

namespace RetailReport

-- Powers are those of the core library.
attribute [local instance (high)] instPowNat

/-- A set of texts that may seem to have members that it does not have. -/
structure BloomFilter where
  /-- How many texts it is meant for. -/
  capacity : Nat
  /-- How many positions there are. -/
  size : Nat
  /-- How many positions each text has. -/
  probes : Nat
  /-- The bits of the positions that are taken; at first there are none. -/
  words : Array UInt64 := Array.replicate ((size + 63) / 64) 0
  /-- How many texts were put in, repetitions included. -/
  inserted : Nat := 0
  /-- There is a position. -/
  size_pos : 0 < size := by decide
  /-- Each position has a bit. -/
  size_le : size ≤ 64 * words.size := by decide

namespace BloomFilter

/-! ### Bits -/

/-- The word with the bit of a position and no other. -/
def mask (i : Nat) : UInt64 := 1 <<< UInt64.ofNat (i % 64)

/-- Sets the bit of a position. -/
def setBit (words : Array UInt64) (i : Nat) : Array UInt64 :=
  words.modify (i / 64) fun w => w ||| mask i

/-- Whether the bit of a position is set. -/
def hasBit (words : Array UInt64) (i : Nat) : Bool :=
  words[i / 64]?.any fun w => w &&& mask i != 0

theorem mask_ne_zero (i : Nat) : mask i ≠ 0 := by
  intro h
  have hpow : 2 ^ (i % 64) < 2 ^ (64 : Nat) :=
    Nat.pow_lt_pow_right (by decide) (Nat.mod_lt i (by decide))
  have hzero : (mask i).toNat = 0 := by rw [h]; rfl
  have hshift : (UInt64.ofNat (i % 64)).toNat % 64 = i % 64 := by
    rw [UInt64.toNat_ofNat']
    omega
  rw [mask, UInt64.toNat_shiftLeft, hshift, UInt64.toNat_one, Nat.one_shiftLeft,
    Nat.mod_eq_of_lt hpow] at hzero
  exact absurd hzero (Nat.ne_of_gt (Nat.two_pow_pos _))

/-- The bits of a word are not lost when others are set. -/
theorem and_or_ne_zero {w x : UInt64} (h : w &&& x ≠ 0) (y : UInt64) : (w ||| y) &&& x ≠ 0 := by
  intro hzero
  have hnat := congrArg UInt64.toNat hzero
  rw [UInt64.toNat_and, UInt64.toNat_or, Nat.and_or_distrib_right, UInt64.toNat_zero,
    Nat.or_eq_zero_iff, ← UInt64.toNat_and] at hnat
  exact h (UInt64.toNat_inj.1 hnat.1)

theorem size_setBit (words : Array UInt64) (i : Nat) : (setBit words i).size = words.size :=
  Array.size_modify

/-- A bit that has a word can be set. -/
theorem hasBit_setBit_self {words : Array UInt64} {i : Nat} (h : i < 64 * words.size) :
    hasBit (setBit words i) i = true := by
  have hword : i / 64 < words.size := by omega
  have hmask : mask i &&& mask i ≠ 0 := by rw [UInt64.and_self]; exact mask_ne_zero i
  rw [hasBit, setBit, Array.getElem?_modify, if_pos rfl, Array.getElem?_eq_getElem hword]
  simpa [UInt64.or_comm] using and_or_ne_zero hmask words[i / 64]

/-- A bit that is set stays so. -/
theorem hasBit_setBit {words : Array UInt64} {i : Nat} (h : hasBit words i = true) (j : Nat) :
    hasBit (setBit words j) i = true := by
  rw [hasBit, Option.any_eq_true] at h ⊢
  obtain ⟨w, hw, hbit⟩ := h
  rw [setBit, Array.getElem?_modify]
  split
  · refine ⟨w ||| mask j, by rw [hw]; rfl, ?_⟩
    rw [bne_iff_ne] at hbit ⊢
    exact and_or_ne_zero hbit _
  · exact ⟨w, hw, hbit⟩

theorem size_foldl_setBit (is : List Nat) (words : Array UInt64) :
    (is.foldl setBit words).size = words.size := by
  induction is generalizing words with
  | nil => rfl
  | cons i is ih => rw [List.foldl_cons, ih, size_setBit]

theorem hasBit_foldl_setBit {words : Array UInt64} {i : Nat} (h : hasBit words i = true)
    (is : List Nat) : hasBit (is.foldl setBit words) i = true := by
  induction is generalizing words with
  | nil => exact h
  | cons j is ih => exact ih (hasBit_setBit h j)

theorem hasBit_foldl_setBit_of_mem {words : Array UInt64} {i : Nat} {is : List Nat} (hi : i ∈ is)
    (h : i < 64 * words.size) : hasBit (is.foldl setBit words) i = true := by
  induction is generalizing words with
  | nil => cases hi
  | cons j is ih =>
    rcases List.mem_cons.1 hi with rfl | hi
    · exact hasBit_foldl_setBit (hasBit_setBit_self h) is
    · exact ih hi (by rwa [size_setBit])

/-! ### Sizes -/

/-- The natural logarithm of two. -/
def logTwo : Float := 0.6931471805599453

/-- An error rate within the bounds that filters are built for. -/
def boundedRate (rate : Float) : Float :=
  if rate < 1e-9 then 1e-9 else if 0.5 < rate then 0.5 else rate

/-- How many positions a filter needs: `-n ln p / (ln 2)²`, but at least 64. -/
def sizeFor (capacity : Nat) (rate : Float) : Nat :=
  let n := (UInt64.ofNat capacity).toFloat
  max 64 ((-n * (boundedRate rate).log) / (logTwo * logTwo)).ceil.toUInt64.toNat

theorem le_sizeFor (capacity : Nat) (rate : Float) : 64 ≤ sizeFor capacity rate :=
  Nat.le_max_left _ _

/-- How many positions each text should have: `(m / n) ln 2`, but at least one. -/
def probesFor (capacity size : Nat) : Nat :=
  let k := ((UInt64.ofNat size).toFloat / (UInt64.ofNat capacity).toFloat * logTwo).round
  (if 1.0 < k then k else 1.0).toUInt32.toNat

/-- An empty filter for a number of texts and an error rate. -/
def ofCapacity (capacity : Nat) (rate : Float) : BloomFilter :=
  let capacity := max capacity 1
  let size := sizeFor capacity rate
  { capacity, size
    probes := probesFor capacity size
    size_pos := Nat.lt_of_lt_of_le (by decide) (le_sizeFor capacity rate)
    size_le := by rw [Array.size_replicate]; omega }

/-! ### Members -/

/-- The first and the second hash of a text. -/
def hashes (text : String) : UInt64 × UInt64 :=
  let bytes := SipHash.textBytes text
  let first := SipHash.ofBytes bytes
  (first, SipHash.ofBytes (SipHash.wordBytes first ++ bytes) ||| 1)

/-- The positions of a text. -/
def positions (f : BloomFilter) (text : String) : List Nat :=
  let (first, second) := hashes text
  (List.range f.probes).map fun i => (first + UInt64.ofNat i * second).toNat % f.size

/-- Each position of a text is one of the filter. -/
theorem lt_of_mem_positions {f : BloomFilter} {text : String} {i : Nat} (h : i ∈ f.positions text) :
    i < f.size := by
  obtain ⟨probe, -, rfl⟩ := List.mem_map.1 h
  exact Nat.mod_lt _ f.size_pos

/-- The filter with one more text. -/
def insert (f : BloomFilter) (text : String) : BloomFilter :=
  { f with
    words := (f.positions text).foldl setBit f.words
    inserted := f.inserted + 1
    size_le := by rw [size_foldl_setBit]; exact f.size_le }

/-- The filter with several more texts. -/
def insertAll (f : BloomFilter) (texts : List String) : BloomFilter := texts.foldl insert f

/-- Whether a text may have been put in; if not, it certainly was not. -/
def contains (f : BloomFilter) (text : String) : Bool := (f.positions text).all (hasBit f.words)

/-- The filter without its texts. -/
def clear (f : BloomFilter) : BloomFilter :=
  { f with
    words := f.words.map fun _ => 0
    inserted := 0
    size_le := by rw [Array.size_map]; exact f.size_le }

/-! ### How full it is -/

/-- Whether more texts were put in than the filter is meant for. -/
def isSaturated (f : BloomFilter) : Bool := decide (f.capacity < f.inserted)

/-- A power of a float with a natural exponent, by repeated squaring. -/
def power (x : Float) : Nat → Float
  | 0 => 1.0
  | n + 1 =>
    let half := power (x * x) ((n + 1) / 2)
    if n % 2 = 0 then x * half else half
termination_by n => n
decreasing_by omega

/-- The estimated rate of errors: `(1 - exp (-k n / m)) ^ k`. -/
def errorRate (f : BloomFilter) : Float :=
  if f.inserted = 0 then 0.0
  else
    let k := (UInt64.ofNat f.probes).toFloat
    let exponent := -k * (UInt64.ofNat f.inserted).toFloat / (UInt64.ofNat f.size).toFloat
    power (1.0 - exponent.exp) f.probes

/-! ### Nothing is forgotten -/

@[simp] theorem positions_insert (f : BloomFilter) (s t : String) :
    (f.insert s).positions t = f.positions t := rfl

/-- A text that was put in is a member. -/
theorem contains_insert_self (f : BloomFilter) (s : String) : (f.insert s).contains s = true := by
  rw [contains, positions_insert, List.all_eq_true]
  intro i hi
  exact hasBit_foldl_setBit_of_mem hi (Nat.lt_of_lt_of_le (lt_of_mem_positions hi) f.size_le)

/-- A member remains a member. -/
theorem contains_insert {f : BloomFilter} {t : String} (h : f.contains t = true) (s : String) :
    (f.insert s).contains t = true := by
  rw [contains, List.all_eq_true] at h
  rw [contains, positions_insert, List.all_eq_true]
  intro i hi
  exact hasBit_foldl_setBit (h i hi) _

end BloomFilter

end RetailReport
