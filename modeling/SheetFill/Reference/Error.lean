import SheetFill.Text.Numeral

/-!
# What can be wrong with a reference

The limits of a sheet, and the ways in which the letters of a column, the address of a cell or a
range of cells can fail to be read.
-/

namespace SheetFill

/-- How many rows a sheet has. -/
def maxRows : Nat := 1048576

/-- How many columns a sheet has. -/
def maxColumns : Nat := 16384

/-- Why a reference is refused. A text that is quoted in a message is the one that was read, without
blanks at its ends. -/
inductive ReferenceError where
  /-- There are no column letters. -/
  | noLetters
  /-- A character of a column is no letter. -/
  | badLetter (letter : Char) (letters : String)
  /-- The column number takes more than 32 bits. -/
  | hugeColumn (letters : String)
  /-- There is no address. -/
  | emptyAddress
  /-- The address has no column letters. -/
  | missingColumn (address : String)
  /-- The address has a column that cannot be read. -/
  | badColumn (address : String)
  /-- The address has no row number. -/
  | missingRow (address : String)
  /-- The address has a row number that cannot be read. -/
  | badRow (address : String)
  /-- The row number of the address is zero. -/
  | rowZero (address : String)
  /-- The row, counted from zero, is below the last row of a sheet. -/
  | rowOutOfBounds (row : Nat)
  /-- The column, counted from zero, is right of the last column of a sheet. -/
  | columnOutOfBounds (column : Nat)
  /-- The range has a corner that is no address. -/
  | badRange (range : String)
deriving DecidableEq

/-- The wording of a refused reference. -/
def ReferenceError.message : ReferenceError → String
  | .noLetters => "Invalid column letters: empty column letters"
  | .badLetter letter letters =>
      "Invalid column letters: invalid column letter '" ++ letter.toString ++ "' in '" ++ letters ++
        "'"
  | .hugeColumn letters => "Invalid column letters: '" ++ letters ++ "' is too large"
  | .emptyAddress => "Invalid cell address: empty address"
  | .missingColumn address => "Invalid cell address: no column letters in '" ++ address ++ "'"
  | .badColumn address => "Invalid cell address: invalid column in '" ++ address ++ "'"
  | .missingRow address => "Invalid cell address: no row number in '" ++ address ++ "'"
  | .badRow address => "Invalid cell address: invalid row number in '" ++ address ++ "'"
  | .rowZero address => "Invalid cell address: row number must be >= 1 in '" ++ address ++ "'"
  | .rowOutOfBounds row =>
      "Row index " ++ Text.Numeral.text row ++ " out of bounds (max: " ++
        Text.Numeral.text (maxRows - 1) ++ ")"
  | .columnOutOfBounds column =>
      "Column index " ++ Text.Numeral.text column ++ " out of bounds (max: " ++
        Text.Numeral.text (maxColumns - 1) ++ ")"
  | .badRange range => "Invalid cell range: " ++ range

end SheetFill
