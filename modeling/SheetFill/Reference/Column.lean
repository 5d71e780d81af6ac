import SheetFill.Reference.Error

/-!
# Column letters

Columns are numbered from 1 in letters: `A` to `Z`, then `AA` to `AZ` and on, with no digit for
zero. `letters` writes a number, `value` is the number that letters stand for, and `read` refuses
texts that are no letters and numbers of more than 32 bits.
-/

namespace SheetFill.Column

/-- The letters of a column number; zero has none. -/
def letters (n : Nat) : List Char :=
  if n = 0 then [] else letters ((n - 1) / 26) ++ [Char.ofNat (65 + (n - 1) % 26)]
termination_by n
decreasing_by exact Nat.lt_of_le_of_lt (Nat.div_le_self _ _) (by omega)

/-- The number of one letter, of either case. -/
def letterValue (c : Char) : Nat := c.toUpper.toNat - 64

/-- The number that letters stand for after the letters of `n`. -/
def valueFrom (n : Nat) (cs : List Char) : Nat := cs.foldl (fun n c => n * 26 + letterValue c) n

/-- The number that letters stand for. -/
def value (cs : List Char) : Nat := valueFrom 0 cs

/-- Read letters after those of `n`; `whole` is the text for the messages. The first fault from the
left counts. -/
def readFrom (whole : String) (n : Nat) : List Char → Except ReferenceError Nat
  | [] => .ok n
  | c :: cs =>
      if c.isAlpha then
        let next := n * 26 + letterValue c
        if Text.Numeral.maxWord32 < next then .error (.hugeColumn whole)
        else readFrom whole next cs
      else .error (.badLetter c whole)

/-- The number of a column. -/
def read (text : String) : Except ReferenceError Nat :=
  if text.isEmpty then .error .noLetters else readFrom text 0 text.toList

end SheetFill.Column
