import SheetFill.InsertionLog.Formula
import SheetFill.Workbook.Sheets

/-!
# References from outside of a worksheet

The defined names of the workbook and the tables of a worksheet refer to cells by their place. When
rows or cells were inserted into the worksheet, those references move. A table keeps its number of
columns, since every column has a definition of its own.
-/

namespace SheetFill

open Xml

/-! ## Defined names -/

namespace Workbook

/-- A defined name with the references to a sheet moved. -/
def adjustName (log : InsertionLog) (sheet : String) (name : Element) : Element :=
  let moved := log.adjustFormula name.text sheet
  if moved = name.text then name else name.setText moved

/-- The workbook part with the references to a sheet in its defined names moved, unless none of
them changes. -/
def adjustNames? (log : InsertionLog) (sheet text : String) : Except PackageError (Option String) :=
  match Document.read text with
  | .error e => .error (.badXml e)
  | .ok document =>
      let names := ((document.root.child? "definedNames").map Element.elements).getD []
      if names.all fun name => log.adjustFormula name.text sheet == name.text then .ok none
      else
        let root := document.root.modifyChild "definedNames" fun names =>
          names.mapElements (adjustName log sheet)
        .ok (some { document with root := root }.toXml)

end Workbook

/-! ## Tables -/

/-- The range of a table after insertions, as wide as before. -/
def adjustTableRange (log : InsertionLog) (range : CellRange) : CellRange :=
  let moved := log.growRange range
  moved.relocate moved.start.row moved.start.col moved.stop.row
    (moved.start.col + (range.stop.col - range.start.col))

/-- An element of a table part with its range moved, if it has one that can be read. -/
def adjustTableElement (log : InsertionLog) (e : Element) : Element :=
  match (e.attr? "ref").map CellRange.read with
  | some (.ok range) => e.setAttr "ref" (adjustTableRange log range).text
  | _ => e

/-- A table part with the range of the table and that of its filter moved. -/
def adjustTable (log : InsertionLog) (table : Document) : Document :=
  { table with
    root := (adjustTableElement log table.root).modifyChild "autoFilter" (adjustTableElement log) }

namespace Package

/-- The package with the table parts at some paths moved; those that are missing are passed over. -/
def adjustTablesAt (p : Package) (log : InsertionLog) : List String → Except PackageError Package
  | [] => .ok p
  | path :: paths =>
      match p.text? path with
      | .error e => .error e
      | .ok none => p.adjustTablesAt log paths
      | .ok (some text) => match Document.read text with
        | .error e => .error (.badXml e)
        | .ok table => (p.write path (adjustTable log table).toXml).adjustTablesAt log paths

/-- The paths of the tables of a worksheet. -/
def tablePaths (p : Package) (sheet : String) : Except PackageError (List String) :=
  (p.relationships (PartPath.relationships sheet)).map fun relationships =>
    (relationships.filter fun r => r.kind == "table").map fun r =>
      PartPath.resolve (PartPath.folder sheet) r.target

/-- The package with the tables of a worksheet moved. -/
def adjustTables (p : Package) (sheet : String) (log : InsertionLog) :
    Except PackageError Package :=
  match p.tablePaths sheet with
  | .error e => .error e
  | .ok paths => p.adjustTablesAt log paths

end Package

end SheetFill
