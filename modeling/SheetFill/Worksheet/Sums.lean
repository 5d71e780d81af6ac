import SheetFill.InsertionLog.Sums
import SheetFill.Worksheet.Fill

/-!
# Sums of 32 bits in a worksheet

Filling a worksheet adds up numbers of rows and columns. They are exact in `fillSheet`. Where they
have 32 bits, a sum that is larger stops the program before it is compared with the limits of a
sheet, and nothing comes of the worksheet. `sheetSums` are all sums that are taken, and `fillSheet?`
is the filled worksheet if all of them have 32 bits.

A sequence with more elements than 32 bits can count makes one of these sums too large as well.
-/

namespace SheetFill

open Xml

/-! ## Rows and cells -/

/-- The sums that are taken for a cell: the column after it, its place, and how far the cells after
it are moved. -/
def TemplateCell.sums (cell : TemplateCell) : List Nat :=
  [cell.column + 1, cell.place, cell.place - cell.column + cell.outcome.extraColumns]

/-- The sums that are taken for the range of a formula in the first copy of its row. -/
def TemplateCell.formulaSums (cell : TemplateCell) (log : InsertionLog) : List Nat :=
  match cell.outcome with
  | .formula => if maxColumns < cell.place then []
      else ((formulaRange? cell.template).map log.followSums).getD []
  | _ => []

/-- The sums that are taken for a row that is moved `offset` rows down: the number after its own,
the number of its first copy, and how far the rows after it are moved; and those for its cells. -/
def TemplateRow.sums (row : TemplateRow) (log : InsertionLog) (offset : Nat) : List Nat :=
  [row.number + 1, row.number + offset, offset + (row.copyCount - 1)] ++
    row.cells.flatMap TemplateCell.sums ++
    if maxRows < row.number + offset then [] else row.cells.flatMap (·.formulaSums log)

/-- The sums that are taken for rows, the first of them moved `offset` rows down. -/
def SheetItem.sums (log : InsertionLog) (offset : Nat) : List SheetItem → List Nat
  | [] => []
  | .row r :: items => r.sums log offset ++ sums log (offset + (r.copyCount - 1)) items
  | .other _ :: items => sums log offset items

/-! ## Ranges outside of the cells -/

/-- The sums that are taken for the ranges in an attribute. -/
def attrSums (log : InsertionLog) (key : String) (e : Element) : List Nat :=
  ((e.attr? key).map log.listSums).getD []

/-- The sums that are taken for a merge; one within one row also has a last copy. -/
def mergeSums (log : InsertionLog) (merge : Element) : List Nat :=
  match (merge.attr? "ref").map CellRange.read with
  | some (.ok range) => log.carrySums range ++
      if range.inOneRow then [log.firstRow range.start.row + log.extraRows range.start.row] else []
  | _ => []

/-- The sums that are taken for a child of a worksheet. -/
def partSums (options : FillOptions) (log : InsertionLog) (e : Element) : List Nat :=
  if e.name = "dimension" ∧ options.growDimension then attrSums log "ref" e
  else if options.moveRanges then
    if e.name = "mergeCells" then e.elements.flatMap (mergeSums log)
    else if e.name = "autoFilter" then attrSums log "ref" e
    else if e.name = "conditionalFormatting" then attrSums log "sqref" e
    else if e.name = "dataValidations" then e.elements.flatMap (attrSums log "sqref")
    else if e.name = "hyperlinks" then e.elements.flatMap (attrSums log "ref")
    else []
  else []

/-! ## Worksheets -/

/-- The sums that are taken to fill a worksheet. -/
def sheetSums (options : FillOptions) (data : Value) (table : StringTable) (template : Document) :
    List Nat :=
  let rows := ((template.root.child? "sheetData").map Element.elements).getD []
  let items := planRows table data 1 rows
  let log := SheetItem.log items
  SheetItem.sums log 0 items ++ log.counts ++
    if log.isEmpty then [] else template.root.elements.flatMap (partSums options log)

/-- Fill a worksheet with data, with sums of 32 bits. Nothing comes of it if one of them is too
large. -/
def fillSheet? (options : FillOptions) (data : Value) (table : StringTable) (template : Document) :
    Option (FilledSheet × StringTable) :=
  if FitWords (sheetSums options data table template) then
    some (fillSheet options data table template)
  else none

end SheetFill
