/-!
# Numbers in bytes

An archive is a run of bytes with numbers in it, lowest byte first. Compressed content is read bit
by bit, the lowest bit of a byte first.
-/

namespace SheetFill.Archive

/-- The byte at a place. -/
def byte? (data : ByteArray) (place : Nat) : Option Nat :=
  if h : place < data.size then some data[place].toNat else none

/-- The number in some bytes from a place on. -/
def number? (data : ByteArray) (place : Nat) : Nat → Option Nat
  | 0 => some 0
  | width + 1 => do
      let low ← byte? data place
      let high ← number? data (place + 1) width
      some (low + 256 * high)

/-- A number in some bytes. -/
def number (n : Nat) : Nat → List UInt8
  | 0 => []
  | width + 1 => n.toUInt8 :: number (n / 256) width

/-- Some bytes from a place on. -/
def slice? (data : ByteArray) (place size : Nat) : Option ByteArray :=
  if place + size ≤ data.size then some (data.extract place (place + size)) else none

/-- The bit at a place that is counted in bits. -/
def bit? (data : ByteArray) (place : Nat) : Option Nat :=
  (byte? data (place / 8)).map fun byte => byte >>> (place % 8) % 2

/-- The number in some bits from a place on. -/
def bits? (data : ByteArray) (place : Nat) : Nat → Option Nat
  | 0 => some 0
  | width + 1 => do
      let low ← bit? data place
      let high ← bits? data (place + 1) width
      some (low + 2 * high)

end SheetFill.Archive
