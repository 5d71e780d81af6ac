import SheetFill.Reference.Address

/-!
# Cell ranges

A range is a rectangle of cells between two corners. Its text is the corners with a colon between
them, or one address if the range was written as a single cell and still is one.
-/

namespace SheetFill

/-- A range of cells. -/
structure CellRange where
  /-- The corner at the top left. -/
  start : CellAddress
  /-- The corner at the bottom right. -/
  stop : CellAddress
  /-- Whether the range was written as one address. -/
  single : Bool
deriving DecidableEq

namespace CellRange

/-- The range between two corners. The rows and the columns are put in order, while each `$` stays
with the first or the second corner. -/
def between (a b : CellAddress) : CellRange :=
  let (top, bottom) := if a.row ≤ b.row then (a.row, b.row) else (b.row, a.row)
  let (left, right) := if a.col ≤ b.col then (a.col, b.col) else (b.col, a.col)
  ⟨a.relocate top left, b.relocate bottom right, false⟩

/-- The range of one cell. -/
def ofCell (a : CellAddress) : CellRange := ⟨a, a, true⟩

/-- Read a range from characters; every fault is the same. -/
def readChars (cs : List Char) : Except ReferenceError CellRange :=
  let cs := Text.trim cs
  let refused : ReferenceError := .badRange (String.ofList cs)
  match Text.splitFirst? ':' cs with
  | some (first, second) =>
      match CellAddress.readTrimmed (Text.trim first),
        CellAddress.readTrimmed (Text.trim second) with
      | .ok a, .ok b => .ok (between a b)
      | _, _ => .error refused
  | none =>
      match CellAddress.readTrimmed (Text.trim cs) with
      | .ok a => .ok (ofCell a)
      | .error _ => .error refused

/-- Read a range. -/
def read (text : String) : Except ReferenceError CellRange := readChars text.toList

/-- Whether the range lies in one row. -/
def inOneRow (r : CellRange) : Bool := r.start.row == r.stop.row

/-- The range with its corners at other places, in order and inside the sheet, with their `$`. It is
still written as one address only if both corners end up the same. -/
def relocate (r : CellRange) (startRow startCol stopRow stopCol : Nat) : CellRange :=
  let moved := between (r.start.relocate startRow startCol) (r.stop.relocate stopRow stopCol)
  { moved with single := r.single && moved.start == moved.stop }

/-- The text of a range, as characters. -/
def chars (r : CellRange) : List Char :=
  if r.single && r.start == r.stop then r.start.chars
  else r.start.chars ++ ':' :: r.stop.chars

/-- The text of a range. -/
def text (r : CellRange) : String := String.ofList r.chars

end CellRange

end SheetFill
