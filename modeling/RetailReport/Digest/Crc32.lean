import RetailReport.Text.Digits

/-!
# Cyclic redundancy check

The CRC-32 of a sequence of bytes: the remainder of the bytes, read as a polynomial with the least
bit of each byte first, under the reflected generator `0xEDB88320`, with all bits of the start value
and of the result inverted.

## Main definitions

* `Crc32.shift`, `Crc32.addByte`: one bit and one byte of the division.
* `Crc32.ofBytes`, `Crc32.render`: the check value and its eight hexadecimal digits.
-/

namespace RetailReport.Crc32

/-- The generator, without its highest coefficient and with the least bit first. -/
def generator : UInt32 := 0xEDB88320

/-- One step of the division. -/
def shift (c : UInt32) : UInt32 :=
  if c &&& 1 == 1 then (c >>> 1) ^^^ generator else c >>> 1

/-- `n` steps of the division. -/
def shifts : (n : Nat) → UInt32 → UInt32
  | 0, c => c
  | n + 1, c => shifts n (shift c)

/-- Takes one more byte into the remainder. -/
def addByte (c : UInt32) (b : UInt8) : UInt32 := shifts 8 (c ^^^ b.toUInt32)

/-- The remainder after some bytes. -/
def addBytes (c : UInt32) (bytes : List UInt8) : UInt32 := bytes.foldl addByte c

/-- The check value of a sequence of bytes. -/
def ofBytes (bytes : List UInt8) : UInt32 := addBytes 0xFFFFFFFF bytes ^^^ 0xFFFFFFFF

/-- A check value as eight hexadecimal digits. -/
def render (c : UInt32) : String := String.ofList (Digits.hex 8 c.toNat)

/-- The check value of the digits one to nine, by which implementations are told apart. -/
example : ofBytes [0x31, 0x32, 0x33, 0x34, 0x35, 0x36, 0x37, 0x38, 0x39] = 0xCBF43926 := by
  decide +kernel

end RetailReport.Crc32
