/-!
# Whole numbers as text

`write` gives the digits of a number, without leading zeros; `read?` takes any run of digits.
`unsigned?` is the form of attribute values: a number below a bound, after an optional plus sign.
-/

namespace SheetFill.Text.Numeral

/-- The digit of a number below ten. -/
def digit (n : Nat) : Char := Char.ofNat ('0'.toNat + n)

/-- The value of a digit. -/
def value (c : Char) : Nat := c.toNat - '0'.toNat

/-- The digits of a number, most significant first. -/
def write (n : Nat) : List Char :=
  if n < 10 then [digit n] else write (n / 10) ++ [digit (n % 10)]

/-- The value of a run of digits, read after a number. -/
def readFrom (n : Nat) (cs : List Char) : Nat := cs.foldl (fun n c => 10 * n + value c) n

/-- The number that a text of one or more digits spells. -/
def read? (cs : List Char) : Option Nat :=
  if cs.isEmpty then none else if cs.all Char.isDigit then some (readFrom 0 cs) else none

/-- The number up to `last` that a text of digits spells, after an optional plus sign. -/
def unsigned? (last : Nat) (cs : List Char) : Option Nat :=
  let digits := match cs with
    | '+' :: rest => rest
    | _ => cs
  (read? digits).filter (· ≤ last)

/-- The largest number of 32 bits. -/
def maxWord32 : Nat := 4294967295

/-- The largest number of 64 bits. -/
def maxWord64 : Nat := 18446744073709551615

/-- A number in decimal. -/
def text (n : Nat) : String := String.ofList (write n)

/-- The digits of a number, with zeros in front up to `width` digits. -/
def padded (width n : Nat) : List Char :=
  let digits := write n
  List.replicate (width - digits.length) '0' ++ digits

/-- The lower-case hexadecimal digit of a number below sixteen. -/
def hexDigit (n : Nat) : Char := if n < 10 then digit n else Char.ofNat ('a'.toNat + (n - 10))

/-- The hexadecimal digits of a number, most significant first. -/
def writeHex (n : Nat) : List Char :=
  if n < 16 then [hexDigit n] else writeHex (n / 16) ++ [hexDigit (n % 16)]

/-- The value of a hexadecimal digit, in either case. -/
def hexValue? (c : Char) : Option Nat :=
  let n := c.toNat
  if 0x30 ≤ n ∧ n ≤ 0x39 then some (n - 0x30)
  else if 0x61 ≤ n ∧ n ≤ 0x66 then some (n - 0x61 + 10)
  else if 0x41 ≤ n ∧ n ≤ 0x46 then some (n - 0x41 + 10)
  else none

example : unsigned? maxWord32 "+0042".toList = some 42 := by decide
example : unsigned? maxWord32 "4294967296".toList = none := by decide
example : unsigned? maxWord32 "+".toList = none := by decide

end SheetFill.Text.Numeral
