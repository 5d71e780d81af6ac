import SheetFill.Workbook.References
import SheetFill.Workbook.Registration
import SheetFill.Worksheet.Fill

/-!
# Filling a template

A template is a package. Its worksheets are filled in the order of the workbook and share one table
of strings. After each of them the references to it from the defined names and from its tables move.
At the end the workbook part is written if one of its names changed, and the table of strings if
there is one. Sums of rows and columns are exact, as in `fillSheet`.
-/

namespace SheetFill

open Xml

/-- What became of a worksheet. -/
structure SheetSummary where
  /-- Its name. -/
  name : String
  /-- The path of its part. -/
  path : String
  /-- How many rows the template has. -/
  rowsIn : Nat
  /-- How many rows there are now. -/
  rowsOut : Nat
deriving DecidableEq

/-- What became of a template. -/
structure FillReport where
  /-- The worksheets, in the order of the workbook. -/
  sheets : List SheetSummary
  /-- How many strings were added to the table. -/
  stringsAdded : Nat
deriving DecidableEq

/-- The text of the workbook part. -/
structure WorkbookText where
  /-- The text. -/
  text : String
  /-- Whether it differs from that of the template. -/
  changed : Bool
deriving DecidableEq

/-- A template that is being filled. -/
structure Filling where
  /-- The package, with the worksheets so far. -/
  package : Package
  /-- The table of strings. -/
  strings : StringTable
  /-- The workbook part, if there is one. -/
  workbook : Option WorkbookText

/-- The table of strings of a template, planned against the data. -/
def Package.strings (template : Package) (data : Value) : Except PackageError StringTable :=
  if template.contains Workbook.stringsPath then
    (template.document Workbook.stringsPath).map fun d => .ofDocument (some d) data
  else .ok (.ofDocument none data)

namespace WorkbookText

/-- The workbook part with the references to a sheet moved. -/
def adjust (log : InsertionLog) (sheet : String) (w : WorkbookText) :
    Except PackageError WorkbookText :=
  (Workbook.adjustNames? log sheet w.text).map fun moved =>
    match moved with
    | some text => ⟨text, true⟩
    | none => w

end WorkbookText

namespace Filling

/-- A template before its first worksheet. -/
def start (template : Package) (data : Value) : Except PackageError Filling := do
  let strings ← template.strings data
  let text ← template.text? Workbook.path
  pure ⟨template, strings, text.map fun text => ⟨text, false⟩⟩

/-- Move the references to a worksheet from outside of it. -/
def moveReferences (f : Filling) (sheet : ListedSheet) (log : InsertionLog) :
    Except PackageError Filling := do
  let workbook ← match f.workbook with
    | none => pure none
    | some w => (w.adjust log sheet.name).map some
  let package ← f.package.adjustTables sheet.path log
  pure { f with package := package, workbook := workbook }

/-- Fill a worksheet. -/
def fillWorksheet (options : FillOptions) (data : Value) (f : Filling) (sheet : ListedSheet) :
    Except PackageError (Filling × SheetSummary) := do
  let template ← f.package.document sheet.path
  let (filled, strings) := fillSheet options data f.strings template
  let f := { f with
    package := f.package.write sheet.path filled.document.toXml, strings := strings }
  let f ← if options.moveRanges && !filled.log.isEmpty then f.moveReferences sheet filled.log
    else pure f
  pure (f, ⟨sheet.name, sheet.path, filled.rowsIn, filled.rowsOut⟩)

/-- Fill worksheets one after another. -/
def fillWorksheets (options : FillOptions) (data : Value) (f : Filling) :
    List ListedSheet → Except PackageError (Filling × List SheetSummary)
  | [] => pure (f, [])
  | sheet :: sheets => do
      let (f, report) ← f.fillWorksheet options data sheet
      let (f, reports) ← f.fillWorksheets options data sheets
      pure (f, report :: reports)

/-- The package with the workbook part and the table of strings written. -/
def finish (f : Filling) : Except PackageError Package := do
  let p := match f.workbook with
    | some ⟨text, true⟩ => f.package.write Workbook.path text
    | _ => f.package
  if f.strings.needsPart then
    let p ← if p.contains Workbook.stringsPath then pure p else p.registerStrings
    pure (p.write Workbook.stringsPath f.strings.toPart.toXml)
  else pure p

end Filling

/-- Fill a template with data. -/
def Package.fill (template : Package) (options : FillOptions) (data : Value) :
    Except PackageError (Package × FillReport) := do
  let sheets ← template.templateSheets
  let f ← Filling.start template data
  let (f, reports) ← f.fillWorksheets options data sheets
  let filled ← f.finish
  pure (filled, ⟨reports, f.strings.added.length⟩)

end SheetFill
