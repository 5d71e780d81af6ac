import SheetFill.Reference.Column
import SheetFill.Text.Blank

/-!
# Cell addresses

An address names a cell by column letters and a row number, each after a `$` if it is absolute. Rows
and columns are counted from zero here and from one in the text.
-/

namespace SheetFill

/-- The address of a cell. -/
structure CellAddress where
  /-- The row, from zero. -/
  row : Nat
  /-- The column, from zero. -/
  col : Nat
  /-- Whether the row has a `$`. -/
  rowAbsolute : Bool
  /-- Whether the column has a `$`. -/
  colAbsolute : Bool
deriving DecidableEq

namespace CellAddress

/-- The relative address of a cell. -/
def relative (row col : Nat) : CellAddress := ⟨row, col, false, false⟩

/-- The column letters and the row number of a cell, both counted from one. -/
def label (row col : Nat) : String :=
  String.ofList (Column.letters col ++ Text.Numeral.write row)

/-- The `$` of an absolute part. -/
def mark (isAbsolute : Bool) : List Char := if isAbsolute then ['$'] else []

/-- The text of an address, as characters. -/
def chars (a : CellAddress) : List Char :=
  mark a.colAbsolute ++ Column.letters (a.col + 1) ++ mark a.rowAbsolute ++
    Text.Numeral.write (a.row + 1)

/-- The text of an address. -/
def text (a : CellAddress) : String := String.ofList a.chars

/-- The text after a `$`, and whether there was one. -/
def takeMark : List Char → Bool × List Char
  | '$' :: cs => (true, cs)
  | cs => (false, cs)

/-- Read an address from a text without blanks at its ends. A row beyond the sheet is reported
before a column beyond it. -/
def readTrimmed (cs : List Char) : Except ReferenceError CellAddress :=
  let text := String.ofList cs
  if cs.isEmpty then .error .emptyAddress
  else
    let (colAbsolute, cs) := takeMark cs
    let letters := cs.takeWhile Char.isAlpha
    let (rowAbsolute, digits) := takeMark (cs.dropWhile Char.isAlpha)
    if letters.isEmpty then .error (.missingColumn text)
    else match Column.read (String.ofList letters) with
      | .error _ => .error (.badColumn text)
      | .ok col =>
          if digits.isEmpty then .error (.missingRow text)
          else match Text.Numeral.unsigned? Text.Numeral.maxWord32 digits with
            | none => .error (.badRow text)
            | some row =>
                if row = 0 then .error (.rowZero text)
                else if maxRows < row then .error (.rowOutOfBounds (row - 1))
                else if maxColumns < col then .error (.columnOutOfBounds (col - 1))
                else .ok ⟨row - 1, col - 1, rowAbsolute, colAbsolute⟩

/-- Read an address; blanks at its ends do not count. -/
def read (text : String) : Except ReferenceError CellAddress := readTrimmed (Text.trim text.toList)

/-- The lesser of two numbers, as the last place that a coordinate may take. -/
def clamp (last n : Nat) : Nat := if n ≤ last then n else last

/-- The address at another place, at most at the last row and column of a sheet, with its `$`. -/
def relocate (a : CellAddress) (row col : Nat) : CellAddress :=
  { a with row := clamp (maxRows - 1) row, col := clamp (maxColumns - 1) col }

end CellAddress

end SheetFill
