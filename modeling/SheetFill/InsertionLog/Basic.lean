import SheetFill.InsertionLog.PositionMap
import SheetFill.Reference.Range
import SheetFill.Text.Numeral

/-!
# The log of insertions

Filling a sheet turns some rows of the template into several rows and some cells into several cells
of a row. The log records, at positions of the template counted from zero, how many rows and cells
came on top. From it follows where each row and cell of the template is now, and where a range goes:

* `growRange` covers everything that the cells of the range became;
* `carryRange` keeps the size of the range and takes its corner to the last copy of its first cell;
* `followRange` takes both corners to the first copies of their cells.

Cells move by different amounts in different rows. A range goes by the largest shift among the rows
it spans that have insertions of cells.

Positions are cut off at 32 bits (`bounded`), but what was inserted is added up exactly. Words of 32
bits hold such a sum only if it fits (`FitWords`).
-/

namespace SheetFill

/-- Rows and cells that were inserted, by their positions in the template. -/
structure InsertionLog where
  /-- How many rows follow a row. -/
  rows : PositionMap Nat
  /-- How many cells follow a cell, by row and then by column. -/
  columns : PositionMap (PositionMap Nat)
deriving DecidableEq

namespace InsertionLog

/-- The log before anything is inserted. -/
def empty : InsertionLog := ⟨.empty, .empty⟩

/-- Whether nothing was inserted. -/
def isEmpty (log : InsertionLog) : Bool := log.rows.isEmpty && log.columns.isEmpty

/-- More of something that may not have been counted yet. -/
def more (extra : Nat) (old : Option Nat) : Nat := old.getD 0 + extra

/-- Record `extra` rows after a row. -/
def addRows (log : InsertionLog) (row extra : Nat) : InsertionLog :=
  if extra = 0 then log else { log with rows := log.rows.update row (more extra) }

/-- Record `extra` cells after a cell. -/
def addCells (log : InsertionLog) (row col extra : Nat) : InsertionLog :=
  if extra = 0 then log
  else { log with
    columns := log.columns.update row fun cells => (cells.getD .empty).update col (more extra) }

/-! ## Positions -/

/-- A position, at most the largest of 32 bits. -/
def bounded (n : Nat) : Nat := if n ≤ Text.Numeral.maxWord32 then n else Text.Numeral.maxWord32

/-- How many rows were inserted after a row. -/
def extraRows (log : InsertionLog) (row : Nat) : Nat := (log.rows.get? row).getD 0

/-- Where the first copy of a row is. -/
def firstRow (log : InsertionLog) (row : Nat) : Nat := bounded (row + log.rows.sumWhere (· < row))

/-- Where the last copy of a row is. -/
def lastRow (log : InsertionLog) (row : Nat) : Nat := bounded (row + log.rows.sumWhere (· ≤ row))

/-- How many cells were inserted in a row after the columns that satisfy `p`. -/
def columnsWhere (log : InsertionLog) (row : Nat) (p : Nat → Bool) : Nat :=
  ((log.columns.get? row).map (·.sumWhere p)).getD 0

/-- Where the first cell is that a cell became. -/
def firstColumn (log : InsertionLog) (row col : Nat) : Nat :=
  bounded (col + log.columnsWhere row (· < col))

/-- Where the last cell is that a cell became. -/
def lastColumn (log : InsertionLog) (row col : Nat) : Nat :=
  bounded (col + log.columnsWhere row (· ≤ col))

/-- The largest of the shifts of the rows from `top` to `bottom` that have insertions of cells. -/
def largestShift (log : InsertionLog) (top bottom : Nat) (shift : Nat → Nat) : Nat :=
  ((log.columns.entries.filter fun entry => top ≤ entry.1 && entry.1 ≤ bottom).map
    fun entry => shift entry.1).foldr Nat.max 0

/-! ## Addresses and ranges -/

/-- Where the first copy of a cell is. -/
def firstCopy (log : InsertionLog) (a : CellAddress) : CellAddress :=
  a.relocate (log.firstRow a.row) (log.firstColumn a.row a.col)

/-- The range that covers all copies of the cells of a range. -/
def growRange (log : InsertionLog) (r : CellRange) : CellRange :=
  let top := r.start.row
  let bottom := r.stop.row
  let left := r.start.col
  let right := r.stop.col
  r.relocate (log.firstRow top)
    (left + log.largestShift top bottom fun row => log.firstColumn row left - left)
    (log.lastRow bottom)
    (right + log.largestShift top bottom fun row => log.lastColumn row right - right)

/-- The range of the same size whose first corner is the last copy of its first cell. -/
def carryRange (log : InsertionLog) (r : CellRange) : CellRange :=
  let top := r.start.row
  let left := r.start.col
  let row := log.lastRow top
  let col := left + log.largestShift top r.stop.row fun row => log.lastColumn row left - left
  r.relocate row col (row + (r.stop.row - top)) (col + (r.stop.col - left))

/-- The range between the first copies of the corners of a range. -/
def followRange (log : InsertionLog) (r : CellRange) : CellRange :=
  let top := r.start.row
  let bottom := r.stop.row
  let left := r.start.col
  let right := r.stop.col
  r.relocate (log.firstRow top)
    (left + log.largestShift top bottom fun row => log.firstColumn row left - left)
    (log.firstRow bottom)
    (right + log.largestShift top bottom fun row => log.firstColumn row right - right)

/-- One item of a list of references, moved if it is a range. -/
def adjustItem (log : InsertionLog) (item : List Char) : List Char :=
  match CellRange.readChars item with
  | .ok range => (log.growRange range).chars
  | .error _ => item

/-- A list of references separated by blanks. Items that are no ranges, such as whole columns, stay
as they are. -/
def adjustList (log : InsertionLog) (references : String) : String :=
  String.ofList (Text.join [' '] ((Text.words references.toList).map log.adjustItem))

end InsertionLog

end SheetFill
