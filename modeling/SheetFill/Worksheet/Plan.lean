import SheetFill.InsertionLog.Basic
import SheetFill.SharedStrings.Table

/-!
# The plan of a worksheet

Before anything is written, every cell of the template gets an outcome, which says what it turns
into:

* a cell without a placeholder is copied, and a cell with a formula keeps its formula;
* a cell that is one placeholder turns into the content of a value, into a cell for each element of
  a sequence, or, with the table mark, into an element for each copy of its row.

A row becomes as many rows as its longest table has elements, and at least one. A cell that becomes
several cells moves the rest of its row to the right. Both are recorded in the log of insertions.

Rows and cells are numbered from one. A row without a number of its own follows the row before it,
and a cell without an address the cell before it.
-/

namespace SheetFill

open Xml

/-- What a cell of the template turns into. -/
inductive Outcome where
  /-- The same cell. -/
  | kept
  /-- The same formula. -/
  | formula
  /-- A cell with one content. -/
  | one (content : Option CellContent)
  /-- A cell for each content, side by side; one empty cell if there is none. -/
  | across (contents : List (Option CellContent))
  /-- A cell with one of the contents in each copy of the row, empty where they have run out. -/
  | down (contents : List (Option CellContent))
deriving DecidableEq

namespace Outcome

/-- How many cells come on top of the first one. -/
def extraColumns : Outcome → Nat
  | .across contents => contents.length - 1
  | _ => 0

/-- How many copies of its row an outcome asks for. -/
def rowCount : Outcome → Nat
  | .down contents => contents.length
  | _ => 0

/-- The outcome of a placeholder. With the table mark, a value that is no sequence is a sequence of
one, and nothing is a sequence of none. -/
def ofPath (data : Value) (path : DataPath) : Outcome :=
  let found := data.resolve path.steps
  if path.table then
    match found with
    | some (.sequence items) => .down (items.map Value.cellContent?)
    | some v => .down [v.cellContent?]
    | none => .down []
  else
    match found with
    | some (.sequence items) => .across (items.map Value.cellContent?)
    | other => .one (other.bind Value.cellContent?)

end Outcome

/-- The index of the shared string that a cell points to. -/
def sharedIndex? (cell : Element) : Option Nat :=
  (cell.child? "v").bind fun v =>
    Text.Numeral.unsigned? Text.Numeral.maxWord64 (Text.trim v.text.toList)

/-- A cell with an inline text in place of the old one. -/
def setInlineText (cell : Element) (text : String) : Element :=
  cell.modifyChild "is" fun inline => { inline with children := [.element (plainText text)] }

/-- The outcome of a cell, and the cell with the placeholders in its inline text filled in. -/
def planCell (table : StringTable) (data : Value) (cell : Element) : Outcome × Element :=
  if cell.hasChild "f" then (.formula, cell)
  else if cell.attr? "t" = some "s" then
    match (sharedIndex? cell).bind table.kind? with
    | some (.sole path) => (.ofPath data path, cell)
    | _ => (.kept, cell)
  else if cell.attr? "t" = some "inlineStr" then
    let text := ((cell.child? "is").map visibleText).getD ""
    match Placeholder.sole? text with
    | some body => (.ofPath data (DataPath.read body), cell)
    | none =>
        (.kept, if Placeholder.occursIn text then setInlineText cell (data.fill text) else cell)
  else (.kept, cell)

/-! ## Rows -/

/-- The column, from one, in the address of a cell. -/
def cellColumn? (cell : Element) : Option Nat :=
  match (cell.attr? "r").map CellAddress.read with
  | some (.ok address) => some (address.col + 1)
  | _ => none

/-- Cells with their columns; one without an address goes to `next` or after the cell before it. -/
def numberCells (next : Nat) : List Element → List (Nat × Element)
  | [] => []
  | cell :: cells =>
      let column := (cellColumn? cell).getD next
      (column, cell) :: numberCells (column + 1) cells

/-- A cell with its outcome and its place in the filled sheet. -/
structure TemplateCell where
  /-- The column in the template, from one. -/
  column : Nat
  /-- The column of the first cell that it becomes, from one. -/
  place : Nat
  /-- The cell of the template. -/
  template : Element
  /-- What it turns into. -/
  outcome : Outcome
deriving DecidableEq

/-- Plan numbered cells, the first of them moved `offset` columns to the right. -/
def placeCells (table : StringTable) (data : Value) (offset : Nat) :
    List (Nat × Element) → List TemplateCell
  | [] => []
  | (column, cell) :: cells =>
      let (outcome, template) := planCell table data cell
      ⟨column, column + offset, template, outcome⟩ ::
        placeCells table data (offset + outcome.extraColumns) cells

/-- The plan of a row. -/
structure TemplateRow where
  /-- The number of the row in the template, from one. -/
  number : Nat
  /-- The attributes of the row. -/
  attributes : List (String × String)
  /-- Its cells. -/
  cells : List TemplateCell
  /-- The other elements in the row. -/
  trailing : List Element
deriving DecidableEq

namespace TemplateRow

/-- The plan of a row whose first cell is moved `offset` columns to the right. -/
def ofRow (table : StringTable) (data : Value) (offset number : Nat) (row : Element) :
    TemplateRow :=
  let (cells, trailing) := row.elements.partition fun e => e.name == "c"
  ⟨number, row.attributes, placeCells table data offset (numberCells 1 cells), trailing⟩

/-- How many cells come on top of those of the template. -/
def extraColumns (row : TemplateRow) : Nat :=
  (row.cells.map fun cell => cell.outcome.extraColumns).foldr (· + ·) 0

/-- How many rows the row becomes. -/
def copyCount (row : TemplateRow) : Nat :=
  (row.cells.map fun cell => cell.outcome.rowCount).foldr Nat.max 1

/-- Record the cells that the row gains. -/
def logColumns (row : TemplateRow) (log : InsertionLog) : InsertionLog :=
  row.cells.foldl (fun log cell =>
    log.addCells (row.number - 1) (cell.column - 1) cell.outcome.extraColumns) log

/-- Record the cells and the rows that the row gains. -/
def logInsertions (row : TemplateRow) (log : InsertionLog) : InsertionLog :=
  (row.logColumns log).addRows (row.number - 1) (row.copyCount - 1)

end TemplateRow

/-! ## Sheets -/

/-- An element of the rows of a worksheet. -/
inductive SheetItem where
  /-- A row. -/
  | row (r : TemplateRow)
  /-- Anything else. -/
  | other (e : Element)
deriving DecidableEq

/-- The number that a row has of its own. -/
def rowNumber? (row : Element) : Option Nat :=
  ((row.attr? "r").bind fun r => Text.Numeral.unsigned? Text.Numeral.maxWord32 r.toList).filter
    (0 < ·)

/-- Plan the rows; one without a number of its own is `next` or follows the row before it. -/
def planRows (table : StringTable) (data : Value) (next : Nat) : List Element → List SheetItem
  | [] => []
  | e :: rest =>
      if e.name = "row" then
        let number := (rowNumber? e).getD next
        .row (.ofRow table data 0 number e) :: planRows table data (number + 1) rest
      else .other e :: planRows table data next rest

namespace SheetItem

/-- The row that an item is. -/
def row? : SheetItem → Option TemplateRow
  | .row r => some r
  | .other _ => none

/-- The log of all insertions of a sheet. -/
def log (items : List SheetItem) : InsertionLog :=
  (items.filterMap row?).foldl (fun log row => row.logInsertions log) InsertionLog.empty

end SheetItem

end SheetFill
