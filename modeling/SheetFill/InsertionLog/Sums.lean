import SheetFill.InsertionLog.Basic

/-!
# The sums behind a log

Rows, columns and insertions are counted in 32 bits, and a sum that needs more stops the program.
The sums of a log are exact; beside each of its uses stand here the sums that are taken for it, so
that it can be asked whether they fit (`FitWords`). A sum that is cut off at 32 bits (`bounded`), or
that cannot leave 32 bits since its parts lie inside of a sheet, is not listed.
-/

namespace SheetFill

/-- All of some sums have 32 bits. -/
def FitWords (sums : List Nat) : Prop := ∀ n ∈ sums, n ≤ Text.Numeral.maxWord32

instance (sums : List Nat) : Decidable (FitWords sums) :=
  inferInstanceAs (Decidable (∀ n ∈ sums, n ≤ Text.Numeral.maxWord32))

namespace InsertionLog

/-- What is counted in the log. -/
def counts (log : InsertionLog) : List Nat :=
  log.rows.entries.map (·.2) ++
    log.columns.entries.flatMap fun entry => entry.2.entries.map (·.2)

/-- The insertions after the columns that satisfy `p`, in each row from `top` to `bottom` that has
some. -/
def cellSums (log : InsertionLog) (top bottom : Nat) (p : Nat → Bool) : List Nat :=
  (log.columns.entries.filter fun entry => top ≤ entry.1 && entry.1 ≤ bottom).map
    fun entry => log.columnsWhere entry.1 p

/-- The sums that are taken to grow a range. -/
def growSums (log : InsertionLog) (r : CellRange) : List Nat :=
  [log.rows.sumWhere (· < r.start.row), log.rows.sumWhere (· ≤ r.stop.row)] ++
    log.cellSums r.start.row r.stop.row (· < r.start.col) ++
    log.cellSums r.start.row r.stop.row (· ≤ r.stop.col)

/-- The sums that are taken to carry a range: those of its first cell, and the last row and column
of the range of the same size there. -/
def carrySums (log : InsertionLog) (r : CellRange) : List Nat :=
  let top := r.start.row
  let left := r.start.col
  let col := left + log.largestShift top r.stop.row fun row => log.lastColumn row left - left
  [log.rows.sumWhere (· ≤ top), log.lastRow top + (r.stop.row - top), col + (r.stop.col - left)] ++
    log.cellSums top r.stop.row (· ≤ left)

/-- The sums that are taken to let a range follow the first copies of its corners. -/
def followSums (log : InsertionLog) (r : CellRange) : List Nat :=
  [log.rows.sumWhere (· < r.start.row), log.rows.sumWhere (· < r.stop.row)] ++
    log.cellSums r.start.row r.stop.row (· < r.start.col) ++
    log.cellSums r.start.row r.stop.row (· < r.stop.col)

/-- The sums that are taken for one item of a list of references. -/
def itemSums (log : InsertionLog) (item : List Char) : List Nat :=
  match CellRange.readChars item with
  | .ok range => log.growSums range
  | .error _ => []

/-- The sums that are taken for a list of references. -/
def listSums (log : InsertionLog) (references : String) : List Nat :=
  (Text.words references.toList).flatMap log.itemSums

end InsertionLog

end SheetFill
