import SheetFill.Worksheet.Layout
import SheetFill.Worksheet.Ranges

/-!
# Filling a worksheet

The layout of a worksheet becomes XML cell by cell, in the order of the sheet. Here texts go into
the table of shared strings, and every cell that points into the table is counted.
-/

namespace SheetFill

open Xml

/-- A cell of the template that holds nothing, at a new address. -/
def blankCell (template : Element) (address : String) : Element :=
  { (template.setAttr "r" address).removeAttr "t" with children := [] }

/-- A cell with a value. -/
def withValue (cell : Element) (value : String) : Element :=
  cell.push (.element ((Element.ofName "v").setText value))

/-- A cell of the filled sheet in a row, as XML, and the table of strings after it. -/
def writeCell (table : StringTable) (row : Nat) (cell : PlacedCell) : Element × StringTable :=
  let address := CellAddress.label row cell.column
  match cell.body with
  | .copied template =>
      (template.setAttr "r" address,
        if template.attr? "t" = some "s" then table.countUse else table)
  | .formula template => (template.setAttr "r" address, table)
  | .filled template none => (blankCell template address, table)
  | .filled template (some (.number x)) =>
      (withValue (blankCell template address) (CellContent.number x).written, table)
  | .filled template (some (.boolean b)) =>
      (withValue ((blankCell template address).setAttr "t" "b") (CellContent.boolean b).written,
        table)
  | .filled template (some (.text s)) =>
      let (index, table) := table.intern s
      (withValue ((blankCell template address).setAttr "t" "s") (Text.Numeral.text index),
        table.countUse)

/-- The cells of a row as XML, and the table of strings after them. -/
def writeCells (table : StringTable) (row : Nat) : List PlacedCell → List Element × StringTable
  | [] => ([], table)
  | cell :: cells =>
      let (e, table) := writeCell table row cell
      let (es, table) := writeCells table row cells
      (e :: es, table)

/-- A row as XML, and the table of strings after it. -/
def writeRow (table : StringTable) (row : PlacedRow) : Element × StringTable :=
  let (cells, table) := writeCells table row.number row.cells
  (⟨"row", Element.setIn "r" (Text.Numeral.text row.number) row.attributes,
    (cells ++ row.trailing).map Node.element⟩, table)

/-- The rows of a sheet as XML, and the table of strings after them. -/
def writeItems (table : StringTable) : List PlacedItem → List Element × StringTable
  | [] => ([], table)
  | .row r :: items =>
      let (e, table) := writeRow table r
      let (es, table) := writeItems table items
      (e :: es, table)
  | .other e :: items =>
      let (es, table) := writeItems table items
      (e :: es, table)

/-- A worksheet after filling. -/
structure FilledSheet where
  /-- The worksheet part. -/
  document : Document
  /-- What was inserted. -/
  log : InsertionLog
  /-- How many rows the template has. -/
  rowsIn : Nat
  /-- How many rows there are now. -/
  rowsOut : Nat
deriving DecidableEq

/-- Fill a worksheet with data; the table of strings is that of the workbook, and its texts for this
worksheet are added. Numbers of rows and columns are exact here; in words of 32 bits a worksheet is
filled only if all sums fit, and then in the same way (`fillSheet?`). -/
def fillSheet (options : FillOptions) (data : Value) (table : StringTable) (template : Document) :
    FilledSheet × StringTable :=
  let rows := ((template.root.child? "sheetData").map Element.elements).getD []
  let items := planRows table data 1 rows
  let log := SheetItem.log items
  let placed := SheetItem.layout options log 0 items
  let (written, table) := writeItems table placed
  let root := template.root.modifyChild "sheetData" fun sheetData =>
    { sheetData with children := written.map Node.element }
  let root := if log.isEmpty then root else root.mapElements (adjustPart options log)
  (⟨{ template with root := root }, log, (items.filterMap SheetItem.row?).length,
    (placed.filterMap PlacedItem.row?).length⟩, table)

/-- The inline texts of the cells of a worksheet, in the order of the sheet. -/
def cellTexts (d : Document) : List String :=
  let rows := ((d.root.child? "sheetData").map Element.elements).getD []
  (rows.flatMap Element.elements).filterMap fun cell =>
    if cell.name = "c" ∧ cell.attr? "t" = some "inlineStr" then (cell.child? "is").map visibleText
    else none

end SheetFill
