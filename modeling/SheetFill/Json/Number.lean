import SheetFill.Number.Binary64
import SheetFill.Text.Numeral

/-!
# The numbers of JSON text

A number is written as a decimal of any length (`WrittenNumber`). It has two values. Its `nearest`
value rounds the decimal once. Its `stepwise` value starts from the leading digits that make up a
word of 64 bits and multiplies it by a power of ten or divides it by one, and every step rounds; so
it may be a few units in the last place away. The two agree where only the last step rounds: on
numbers of up to 15 digits that are scaled by at most 22 places.
-/

namespace SheetFill.Json

/-- A number as it is written: a sign, the digits before and after the point, and an exponent of
ten. -/
structure WrittenNumber where
  /-- Whether there is a minus sign. -/
  negative : Bool
  /-- The digits before the point. -/
  whole : List Char
  /-- The digits after the point. -/
  fraction : List Char
  /-- The exponent of ten. -/
  exponent : Int

/-- How the value of a written number is found. -/
inductive Rounding where
  /-- The number nearest to the decimal. -/
  | nearest
  /-- A word of digits and its scaling, each rounded. -/
  | stepwise
deriving DecidableEq

/-- A number of digits read after a number as long as the result fits in a word of 64 bits, and how
many digits are left. -/
def fillWord (n : Nat) : List Char → Nat × Nat
  | [] => (n, 0)
  | c :: cs =>
      let next := 10 * n + Text.Numeral.value c
      if next ≤ Text.Numeral.maxWord64 then fillWord next cs else (n, cs.length + 1)

namespace WrittenNumber

/-- The number nearest to the decimal. -/
def nearest (n : WrittenNumber) : Binary64 :=
  Binary64.ofDecimal n.negative (Text.Numeral.readFrom 0 (n.whole ++ n.fraction))
    (n.exponent - n.fraction.length)

/-- The leading digits scaled by a power of ten. A digit before the point that is not read counts in
the power; one after the point does not count at all. Digits after the point are tried again where
digits before it are left. -/
def stepwise (n : WrittenNumber) : Binary64 :=
  let (whole, wholeLeft) := fillWord 0 n.whole
  let (digits, left) := fillWord whole n.fraction
  (Binary64.ofRatio n.negative digits 1).scaleTen
    (n.exponent + wholeLeft - (n.fraction.length - left : Nat))

/-- The value of a written number, an infinity if it is too large. -/
def value (n : WrittenNumber) : Rounding → Binary64
  | .nearest => n.nearest
  | .stepwise => n.stepwise

end WrittenNumber

example : fillWord 0 "18446744073709551619".toList = (1844674407370955161, 1) := by decide
example : (WrittenNumber.mk false ['3', '6'] [] 47).nearest.bits = 0x4A03B4ACAA2B3467 := by
  decide +kernel
example : (WrittenNumber.mk false ['3', '6'] [] 47).stepwise.bits = 0x4A03B4ACAA2B3468 := by
  decide +kernel

end SheetFill.Json
