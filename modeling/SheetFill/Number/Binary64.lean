/-!
# Binary64 numbers

A number is its 64 bits: a sign, an exponent field of 11 bits and a fraction of 52. Every finite
number is a whole number times a power of two (`magnitude?`), and all arithmetic here is exact
arithmetic on whole numbers. `ofRatio` rounds a quotient to the nearest number, a tie to the even
one; `ofDecimal` does so for a decimal, and `mul` and `div` for the product and the quotient of two
numbers.

The fields are laid out so that the bits of a magnitude grow by one from each number to the next.
So a significand `m` with the exponent step `k` has the bits `k * 2 ^ 52 + m` both when `m` fills
its 53 bits and when it is short, and a carry out of the significand is one more step.
-/

namespace SheetFill

/-- A number of the binary64 format. -/
structure Binary64 where
  /-- Sign, exponent field and fraction, from the top. -/
  bits : UInt64
deriving DecidableEq

namespace Binary64

/-- The weight of the exponent field, `2 ^ 52`. -/
def fieldUnit : Nat := 4503599627370496

/-- The weight of the sign, `2 ^ 63`. -/
def signUnit : Nat := 9223372036854775808

/-- The magnitude bits of the infinities. -/
def infinityBits : Nat := 2047 * fieldUnit

/-- The number with the given sign and magnitude bits. -/
def ofFields (negative : Bool) (magnitude : Nat) : Binary64 :=
  ⟨UInt64.ofNat (magnitude + if negative then signUnit else 0)⟩

/-- A result that is no number. -/
def nan : Binary64 := ofFields false (infinityBits + fieldUnit / 2)

/-- The infinity of a sign. -/
def infinity (negative : Bool) : Binary64 := ofFields negative infinityBits

/-- The zero of a sign. -/
def zero (negative : Bool) : Binary64 := ofFields negative 0

/-- Whether the sign is minus. -/
def isNegative (x : Binary64) : Bool := signUnit ≤ x.bits.toNat

/-- The bits without the sign. -/
def magnitudeBits (x : Binary64) : Nat := x.bits.toNat % signUnit

/-- Whether the value is a real number. -/
def isFinite (x : Binary64) : Bool := x.magnitudeBits < infinityBits

/-- Whether the value is an infinity. -/
def isInfinite (x : Binary64) : Bool := x.magnitudeBits == infinityBits

/-- Whether the value is no number. -/
def isNaN (x : Binary64) : Bool := infinityBits < x.magnitudeBits

/-- The significand and the exponent of two of a finite number: its size is `m * 2 ^ q`. -/
def magnitude? (x : Binary64) : Option (Nat × Int) :=
  if x.isFinite then
    let field := x.magnitudeBits / fieldUnit
    let fraction := x.magnitudeBits % fieldUnit
    some (if field = 0 then (fraction, -1074) else (fraction + fieldUnit, field - 1075))
  else none

/-- The size of a finite number that is whole. -/
def wholeSize? (x : Binary64) : Option Nat :=
  x.magnitude?.bind fun (m, q) =>
    if 0 ≤ q then some (m * Nat.pow 2 q.toNat)
    else
      let unit := Nat.pow 2 (-q).toNat
      if m % unit = 0 then some (m / unit) else none

/-- The fraction `num / (den * 2 ^ q)`, as numerator and denominator. -/
def scaled (num den : Nat) (q : Int) : Nat × Nat :=
  if 0 ≤ q then (num, den * Nat.pow 2 q.toNat) else (num * Nat.pow 2 (-q).toNat, den)

/-- The whole number nearest to `num / den`, a half going to the even one. -/
def roundedQuotient (num den : Nat) : Nat :=
  let quotient := num / den
  let twice := 2 * (num % den)
  if twice < den then quotient
  else if den < twice then quotient + 1
  else quotient + quotient % 2

/-- The magnitude bits of the number nearest to the positive quotient `num / den`. -/
def ratioBits (num den : Nat) : Nat :=
  let estimate : Int := (num.log2 : Int) - (den.log2 : Int) - 53
  let low : Int := if estimate < -1074 then -1074 else estimate
  let (n, d) := scaled num den low
  let q := if n / d < 2 * fieldUnit then low else low + 1
  let (n, d) := scaled num den q
  let bits := (q + 1074).toNat * fieldUnit + roundedQuotient n d
  if bits < infinityBits then bits else infinityBits

/-- The number of the given sign nearest to `num / den`. -/
def ofRatio (negative : Bool) (num den : Nat) : Binary64 :=
  if num = 0 then zero negative else ofFields negative (ratioBits num den)

/-- The number nearest to a whole number. -/
def ofInt (n : Int) : Binary64 := ofRatio (n < 0) n.natAbs 1

/-- The number nearest to `digits * 10 ^ exponent`. Decimals far outside the range of the format go
to infinity or zero without computing the power. -/
def ofDecimal (negative : Bool) (digits : Nat) (exponent : Int) : Binary64 :=
  if digits = 0 then zero negative
  else
    let size : Int := digits.log2 * 30103 / 100000 + exponent
    if 400 < size then infinity negative
    else if size < -400 then zero negative
    else if 0 ≤ exponent then ofRatio negative (digits * Nat.pow 10 exponent.toNat) 1
    else ofRatio negative digits (Nat.pow 10 (-exponent).toNat)

/-- The number nearest to `num / den * 2 ^ q`. -/
def ofScaled (negative : Bool) (num den : Nat) (q : Int) : Binary64 :=
  let (n, d) := scaled num den (-q)
  ofRatio negative n d

/-- The product of two finite numbers, rounded; no number unless both are finite. -/
def mul (x y : Binary64) : Binary64 :=
  match x.magnitude?, y.magnitude? with
  | some (m, q), some (n, r) => ofScaled (x.isNegative != y.isNegative) (m * n) 1 (q + r)
  | _, _ => nan

/-- The quotient of two finite numbers, rounded; no number unless both are finite and the second is
not zero. -/
def div (x y : Binary64) : Binary64 :=
  match x.magnitude?, y.magnitude? with
  | some (m, q), some (n + 1, r) => ofScaled (x.isNegative != y.isNegative) m (n + 1) (q - r)
  | _, _ => nan

/-- The exponent of the largest power of ten in the range of the format. -/
def maxTen : Nat := 308

/-- The number nearest to a power of ten. -/
def powerOfTen (n : Nat) : Binary64 := ofRatio false (Nat.pow 10 n) 1

/-- A number times a power of ten, by one multiplication or division. A power below the range of the
format divides by the largest one in it first, as often as it takes; what is too large goes to
infinity. -/
def scaleTen (x : Binary64) (exponent : Int) : Binary64 :=
  if exponent.natAbs ≤ maxTen then
    if 0 ≤ exponent then x.mul (powerOfTen exponent.natAbs) else x.div (powerOfTen exponent.natAbs)
  else if x.magnitudeBits = 0 then x
  else if 0 ≤ exponent then infinity x.isNegative
  else scaleTen (x.div (powerOfTen maxTen)) (exponent + maxTen)
termination_by exponent.natAbs
decreasing_by
  simp only [maxTen] at *
  omega

example : (ofInt 1).bits = 0x3FF0000000000000 := by decide +kernel
example : (ofDecimal false 1 (-1)).bits = 0x3FB999999999999A := by decide +kernel
example : (ofDecimal false 5 (-324)).bits = 1 := by decide +kernel
example : (ofDecimal true 17976931348623159 292) = infinity true := by decide +kernel
example : (ofInt 36).scaleTen 47 ≠ ofDecimal false 36 47 := by decide +kernel

end Binary64

end SheetFill
