import SheetFill.Options
import SheetFill.Worksheet.Plan

/-!
# The layout of a filled worksheet

The plan of a worksheet and the log of its insertions say where every row and cell goes. The layout
is the filled sheet before texts go into the table of shared strings: rows with their numbers and
cells with their columns and bodies. What would lie beyond the limits of a sheet is left out.

In the first copy of a row the range of a formula follows the first copies of its corners. In later
copies a cell leaves the group of shared formulas that its first formula belongs to: the first cell
of the group keeps this formula as one of its own, and the others lose theirs. The range of any other
formula moves with its cell there.
-/

namespace SheetFill

open Xml

/-- What a cell of the filled sheet holds. -/
inductive CellBody where
  /-- A cell of the template as it is. -/
  | copied (template : Element)
  /-- A cell of the template with a formula. -/
  | formula (template : Element)
  /-- A content in a cell of the template. -/
  | filled (template : Element) (content : Option CellContent)
deriving DecidableEq

/-- A cell of the filled sheet. -/
structure PlacedCell where
  /-- Its column, from one. -/
  column : Nat
  /-- What it holds. -/
  body : CellBody
deriving DecidableEq

/-- A row of the filled sheet. -/
structure PlacedRow where
  /-- Its number, from one. -/
  number : Nat
  /-- The attributes of the row in the template, but for those that no longer hold. -/
  attributes : List (String × String)
  /-- Its cells. -/
  cells : List PlacedCell
  /-- The other elements in the row. -/
  trailing : List Element
deriving DecidableEq

/-- An element of the rows of the filled sheet. -/
inductive PlacedItem where
  /-- A row. -/
  | row (r : PlacedRow)
  /-- Anything else. -/
  | other (e : Element)
deriving DecidableEq

/-! ## Formulas -/

/-- The range of the formula in a cell. -/
def formulaRange? (cell : Element) : Option CellRange :=
  ((cell.child? "f").bind (·.attr? "ref")).bind fun reference =>
    (CellRange.read reference).toOption

/-- A cell with another range for its formula. -/
def setFormulaRange (cell : Element) (range : CellRange) : Element :=
  cell.modifyChild "f" (·.setAttr "ref" range.text)

/-- A cell outside of the group of shared formulas that its first formula belongs to. -/
def leaveGroup (cell : Element) : Element :=
  match (cell.child? "f").filter fun f => f.attr? "t" = some "shared" with
  | none => cell
  | some f =>
      if (f.attr? "ref").isSome then
        cell.modifyChild "f" fun f => ((f.removeAttr "t").removeAttr "ref").removeAttr "si"
      else cell.removeChildren "f"

/-- A range moved down and to the right. -/
def CellRange.offsetBy (r : CellRange) (down right : Nat) : CellRange :=
  r.relocate (r.start.row + down) (r.start.col + right) (r.stop.row + down) (r.stop.col + right)

/-- A cell with a formula in the first copy of its row. -/
def firstFormula (log : InsertionLog) (cell : Element) : Element :=
  match formulaRange? cell with
  | some range => setFormulaRange cell (log.followRange range)
  | none => cell

/-- A cell with a formula in a later copy of its row, `down` and `right` of the template. -/
def laterFormula (down right : Nat) (cell : Element) : Element :=
  let cell := leaveGroup cell
  match formulaRange? cell with
  | some range => setFormulaRange cell (range.offsetBy down right)
  | none => cell

/-! ## Cells -/

/-- Contents side by side from a column on, up to the last column of a sheet. -/
def spread (template : Element) (column : Nat) : List (Option CellContent) → List PlacedCell
  | [] => []
  | content :: contents =>
      if maxColumns < column then []
      else ⟨column, .filled template content⟩ :: spread template (column + 1) contents

/-- The cells that a cell becomes in one copy of its row, which has the given number. -/
def placeCell (options : FillOptions) (log : InsertionLog) (templateRow copy number : Nat)
    (cell : TemplateCell) : List PlacedCell :=
  if maxColumns < cell.place then []
  else match cell.outcome with
    | .kept => [⟨cell.place, .copied cell.template⟩]
    | .formula =>
        let template :=
          if options.dropStoredResults then cell.template.removeChildren "v" else cell.template
        let placed :=
          if copy = 0 then firstFormula log template
          else laterFormula (number - templateRow) (cell.place - cell.column) template
        [⟨cell.place, .formula placed⟩]
    | .one content => [⟨cell.place, .filled cell.template content⟩]
    | .across [] => [⟨cell.place, .filled cell.template none⟩]
    | .across contents => spread cell.template cell.place contents
    | .down contents => [⟨cell.place, .filled cell.template contents[copy]?.join⟩]

/-! ## Rows -/

namespace TemplateRow

/-- One copy of a row; `number` is its number in the filled sheet. A row that grew wider no longer
says how wide it is. -/
def copyRow (row : TemplateRow) (options : FillOptions) (log : InsertionLog) (copy number : Nat) :
    PlacedRow :=
  let kept := if row.extraColumns = 0 then row.attributes
    else row.attributes.filter fun pair => pair.1 != "spans"
  ⟨number, kept, row.cells.flatMap (placeCell options log row.number copy number),
    row.trailing⟩

/-- The copies of a row that is moved `offset` rows down, up to the last row of a sheet. -/
def copies (row : TemplateRow) (options : FillOptions) (log : InsertionLog) (offset : Nat) :
    List PlacedRow :=
  ((List.range row.copyCount).filter fun copy => row.number + offset + copy ≤ maxRows).map
    fun copy => row.copyRow options log copy (row.number + offset + copy)

end TemplateRow

namespace SheetItem

/-- The filled sheet from rows that are moved `offset` rows down. -/
def layout (options : FillOptions) (log : InsertionLog) (offset : Nat) :
    List SheetItem → List PlacedItem
  | [] => []
  | .row r :: items =>
      (r.copies options log offset).map PlacedItem.row ++
        layout options log (offset + (r.copyCount - 1)) items
  | .other e :: items => .other e :: layout options log offset items

end SheetItem

/-- The row that an item of the filled sheet is. -/
def PlacedItem.row? : PlacedItem → Option PlacedRow
  | .row r => some r
  | .other _ => none

end SheetFill
