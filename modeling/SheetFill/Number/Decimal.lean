import SheetFill.Number.Binary64
import SheetFill.Text.Numeral

/-!
# The shortest decimal of a number

The decimal of a number has the fewest digits that read back to it, and of those digits the nearest
to it (`Decimal.ofMagnitude`). The reals that round to `m * 2 ^ q` are an interval around it whose
ends belong to it exactly when `m` is even. For each count of digits, the two neighbours of the
number on the grid of decimals with so many digits are tried; the first grid with a neighbour in the
interval wins. A `Layout` says how such a decimal is written.
-/

namespace SheetFill

/-- The decimal `digits * 10 ^ exponent`. -/
structure Decimal where
  /-- All the digits, as a whole number. -/
  digits : Nat
  /-- The exponent of the last digit. -/
  exponent : Int
deriving DecidableEq

/-- Which of two equally near decimals is taken. -/
inductive Tie where
  /-- The one with an even last digit. -/
  | toEven
  /-- The larger one. -/
  | upward
deriving DecidableEq

namespace Decimal

/-- The reals that round to one number, and that number, as multiples of `1 / den`. -/
structure Interval where
  /-- The lower end. -/
  low : Nat
  /-- The number itself. -/
  value : Nat
  /-- The upper end. -/
  high : Nat
  /-- The common denominator. -/
  den : Nat
  /-- Whether the ends belong to the interval. -/
  closed : Bool

/-- The interval of reals that round to `m * 2 ^ q`. Below a power of two the next number is only
half as far away, except where the format has no finer step. -/
def Interval.ofMagnitude (m : Nat) (q : Int) : Interval :=
  let below := if m = Binary64.fieldUnit ∧ -1074 < q then 1 else 2
  let (unit, den) := Binary64.scaled 1 1 (2 - q)
  ⟨(4 * m - below) * unit, 4 * m * unit, (4 * m + 2) * unit, den, m % 2 == 0⟩

/-- The interval with all its numbers divided by `10 ^ e`. -/
def Interval.shifted (i : Interval) (e : Int) : Interval :=
  if 0 ≤ e then { i with den := i.den * Nat.pow 10 e.toNat }
  else
    let unit := Nat.pow 10 (-e).toNat
    { i with low := i.low * unit, value := i.value * unit, high := i.high * unit }

/-- Whether a whole number lies in the interval. -/
def Interval.holds (i : Interval) (n : Nat) : Bool :=
  if i.closed then i.low ≤ n * i.den && n * i.den ≤ i.high
  else i.low < n * i.den && n * i.den < i.high

/-- The whole number in the interval nearest to its value, if one of the two neighbours of the value
lies there. -/
def Interval.nearest? (i : Interval) (tie : Tie) : Option Nat :=
  let floor := i.value / i.den
  let twice := 2 * (i.value % i.den)
  match i.holds floor, i.holds (floor + 1) with
  | true, true =>
      if twice < i.den then some floor
      else if i.den < twice then some (floor + 1)
      else match tie with
        | .toEven => some (floor + floor % 2)
        | .upward => some (floor + 1)
  | true, false => some floor
  | false, true => some (floor + 1)
  | false, false => none

/-- How many digits a number has. -/
def digitCount (n : Nat) : Nat := (Text.Numeral.write n).length

/-- The exponent of the leading digit of the positive quotient `num / den`. -/
def leadingExponent (num den : Nat) : Int :=
  if den ≤ num then (digitCount (num / den) : Int) - 1
  else -(digitCount ((den + num - 1) / num - 1) : Int)

/-- The same decimal without a last digit zero. Only a carry into ten, on the grid of one digit,
leaves such a digit: any other would have been found on a coarser grid. -/
def dropZero (d : Decimal) : Decimal :=
  if d.digits % 10 = 0 then ⟨d.digits / 10, d.exponent + 1⟩ else d

/-- The shortest decimal of `m * 2 ^ q`, for a positive `m`. Seventeen digits always suffice. -/
def ofMagnitude (tie : Tie) (m : Nat) (q : Int) : Decimal :=
  let interval := Interval.ofMagnitude m q
  let lead := leadingExponent interval.value interval.den
  let found := (List.range 17).findSome? fun (more : Nat) =>
    let exponent := lead - (more : Int)
    ((interval.shifted exponent).nearest? tie).map fun digits => (⟨digits, exponent⟩ : Decimal)
  (found.getD ⟨0, 0⟩).dropZero

/-! ## Layout -/

/-- How a number is written once its digits are known. -/
structure Layout where
  /-- Which of two equally near decimals is taken. -/
  tie : Tie
  /-- Whether a leading digit of this exponent is written without an exponent mark. -/
  positional : Int → Bool
  /-- What follows a whole number that is written without an exponent mark. -/
  wholeEnd : String

/-- Digits and a point, without an exponent mark. -/
def positionalText (wholeEnd : List Char) (digits : List Char) (exponent : Int) : List Char :=
  if 0 ≤ exponent then digits ++ List.replicate exponent.toNat '0' ++ wholeEnd
  else
    let places := (-exponent).toNat
    if places < digits.length then
      digits.take (digits.length - places) ++ '.' :: digits.drop (digits.length - places)
    else '0' :: '.' :: (List.replicate (places - digits.length) '0' ++ digits)

/-- One digit, the others after a point, and the exponent of the first with its sign. -/
def markedText (digits : List Char) (lead : Int) : List Char :=
  let mantissa := match digits with
    | [] => []
    | [d] => [d]
    | d :: more => d :: '.' :: more
  mantissa ++ 'e' :: (if lead < 0 then '-' else '+') :: Text.Numeral.write lead.natAbs

/-- The decimal in a layout. -/
def text (d : Decimal) (layout : Layout) : List Char :=
  let digits := Text.Numeral.write d.digits
  let lead := d.exponent + (digits.length : Int) - 1
  if layout.positional lead then positionalText layout.wholeEnd.toList digits d.exponent
  else markedText digits lead

end Decimal

namespace Binary64

/-- Numbers in cells: never an exponent mark, and nothing after a whole number. -/
def cellLayout : Decimal.Layout := ⟨.upward, fun _ => true, ""⟩

/-- Numbers in JSON text: an exponent mark from `1e+16` up and from `1e-6` down, and `.0` after a
whole number. -/
def jsonLayout : Decimal.Layout := ⟨.toEven, fun lead => -5 ≤ lead && lead < 16, ".0"⟩

/-- A number in a layout; the infinities are `inf` and `-inf`. -/
def text (x : Binary64) (layout : Decimal.Layout) : String :=
  let sign := if x.isNegative then "-" else ""
  match x.magnitude? with
  | some (0, _) => sign ++ "0" ++ layout.wholeEnd
  | some (m, q) => sign ++ String.ofList ((Decimal.ofMagnitude layout.tie m q).text layout)
  | none => if x.isNaN then "NaN" else sign ++ "inf"

/-- A number as it stands in a cell. -/
def cellText (x : Binary64) : String := x.text cellLayout

/-- A finite number as it stands in JSON text, other than a whole number of moderate size. -/
def jsonText (x : Binary64) : String := x.text jsonLayout

/-- A whole number below `10 ^ 15` in size, which texts show without a fraction. -/
def moderateWhole? (x : Binary64) : Option Int :=
  (x.wholeSize?.filter (· < 1000000000000000)).map fun size =>
    if x.isNegative then -(size : Int) else size

end Binary64

end SheetFill
