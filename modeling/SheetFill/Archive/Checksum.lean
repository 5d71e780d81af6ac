/-!
# Checksums

The checksum of a part in an archive is the remainder of its bits, as a polynomial over two
elements, by a fixed polynomial of degree 32. Bits are taken lowest first, and both the first
remainder and the result have all their bits flipped.
-/

namespace SheetFill.Archive

/-- The remainder after one more bit, or two of them, and so on. -/
def shiftRemainder (remainder : UInt32) : Nat → UInt32
  | 0 => remainder
  | bits + 1 =>
      let next := remainder >>> 1
      shiftRemainder (if remainder &&& 1 = 1 then next ^^^ 0xEDB88320 else next) bits

/-- The remainder after one more byte. -/
def addByte (remainder : UInt32) (byte : UInt8) : UInt32 :=
  shiftRemainder (remainder ^^^ byte.toUInt32) 8

/-- The checksum of some bytes. -/
def checksum (data : ByteArray) : UInt32 := data.foldl addByte 0xFFFFFFFF ^^^ 0xFFFFFFFF

end SheetFill.Archive
