/-!
# SipHash

SipHash-1-3 with the key zero: a hash of 64 bits for short texts.  The bytes are taken in eight at a
time, least significant byte first, with one mixing round for each group and three at the end; the
last group is filled up with the number of bytes.

## Main definitions

* `SipHash.State`, `SipHash.round`: the four words and how they are mixed.
* `SipHash.ofBytes`: the hash of a sequence of bytes.
* `SipHash.textBytes`, `SipHash.wordBytes`: texts and words as bytes.
-/

namespace RetailReport.SipHash

/-- The four words that are mixed. -/
structure State where
  a : UInt64
  b : UInt64
  c : UInt64
  d : UInt64
deriving DecidableEq, Repr

/-- The bits of a word moved up in a circle. -/
def rotate (x : UInt64) (n : UInt64) : UInt64 := (x <<< n) ||| (x >>> (64 - n))

/-- The start, with the key zero. -/
def start : State :=
  ⟨0x736f6d6570736575, 0x646f72616e646f6d, 0x6c7967656e657261, 0x7465646279746573⟩

/-- One mixing round. -/
def round (s : State) : State :=
  let a := s.a + s.b
  let b := rotate s.b 13 ^^^ a
  let a := rotate a 32
  let c := s.c + s.d
  let d := rotate s.d 16 ^^^ c
  let a := a + d
  let d := rotate d 21 ^^^ a
  let c := c + b
  let b := rotate b 17 ^^^ c
  ⟨a, b, rotate c 32, d⟩

/-- Takes a word in. -/
def absorb (s : State) (word : UInt64) : State :=
  let s := round { s with d := s.d ^^^ word }
  { s with a := s.a ^^^ word }

/-- A group of at most eight bytes as a word, the first byte least. -/
def pack (bytes : List UInt8) : UInt64 := bytes.foldr (fun b w => (w <<< 8) ||| b.toUInt64) 0

/-- Takes all whole groups of eight bytes in, and then the last group with the number of bytes. -/
def absorbAll (length : Nat) : State → List UInt8 → State
  | s, b₀ :: b₁ :: b₂ :: b₃ :: b₄ :: b₅ :: b₆ :: b₇ :: rest =>
    absorbAll length (absorb s (pack [b₀, b₁, b₂, b₃, b₄, b₅, b₆, b₇])) rest
  | s, rest => absorb s (pack rest ||| (UInt64.ofNat length <<< 56))

/-- The word that a state stands for in the end. -/
def finish (s : State) : UInt64 :=
  let s := round (round (round { s with c := s.c ^^^ 0xff }))
  s.a ^^^ s.b ^^^ s.c ^^^ s.d

/-- The hash of a sequence of bytes. -/
def ofBytes (bytes : List UInt8) : UInt64 := finish (absorbAll bytes.length start bytes)

/-- The bytes of a text and a last byte that no text has, so that no text begins another. -/
def textBytes (text : String) : List UInt8 := text.toUTF8.toList ++ [0xFF]

/-- The eight bytes of a word, least first. -/
def wordBytes (word : UInt64) : List UInt8 :=
  [word, word >>> 8, word >>> 16, word >>> 24, word >>> 32, word >>> 40, word >>> 48, word >>> 56].map
    (·.toUInt8)

end RetailReport.SipHash
