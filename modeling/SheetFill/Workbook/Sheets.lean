import SheetFill.Workbook.Relationship

/-!
# The worksheets of a workbook

The workbook part lists the sheets by name, and its relationships lead to their parts. Sheets of
another kind, such as charts, have no cells and are left out. In a package without a workbook part
every file in the folder of the worksheets counts, under the name of the file.
-/

namespace SheetFill

open Xml

namespace Workbook

/-- The path of the workbook part. -/
def path : String := "xl/workbook.xml"

/-- The path of the relationships of the workbook part. -/
def relationshipsPath : String := PartPath.relationships path

/-- The path of the table of shared strings. -/
def stringsPath : String := "xl/sharedStrings.xml"

/-- The path of the list of content types. -/
def typesPath : String := "[Content_Types].xml"

end Workbook

/-- A worksheet of a workbook. -/
structure ListedSheet where
  /-- Its name. -/
  name : String
  /-- The path of its part. -/
  path : String
deriving DecidableEq

namespace ListedSheet

/-- The name of a sheet and the identifier of its relationship; a tag without one of them is
none. -/
def ofAttributes? (attributes : List (String × Option String)) : Option (String × String) :=
  match Relationship.value? attributes "name", Relationship.value? attributes "r:id" with
  | some name, some id => some (name, id)
  | _, _ => none

/-- The names of the sheets of a workbook part and the identifiers of their relationships. -/
def readAll (text : String) : Except PackageError (List (String × String)) :=
  match startTags "sheet" text with
  | .error e => .error (.badXml (.markup e))
  | .ok tags => .ok (tags.filterMap ofAttributes?)

/-- The worksheet with a name whose relationship has an identifier. Of several relationships with
that identifier, the last one counts. -/
def ofRelationships? (relationships : List Relationship) (name id : String) : Option ListedSheet :=
  (relationships.reverse.find? fun r => r.kind == "worksheet" && r.id == id).map fun r =>
    ⟨name, PartPath.resolve "xl" r.target⟩

end ListedSheet

namespace Package

/-- The files in the folder of the worksheets. -/
def sheetFiles (p : Package) : List ListedSheet :=
  (p.list "xl/worksheets/*.xml").map fun path => ⟨PartPath.stem path, path⟩

/-- The worksheets, in the order of the workbook. -/
def sheets (p : Package) : Except PackageError (List ListedSheet) := do
  match ← p.text? Workbook.path with
  | none => pure p.sheetFiles
  | some text =>
      let named ← ListedSheet.readAll text
      let relationships ← p.relationships Workbook.relationshipsPath
      pure (named.filterMap fun (name, id) => ListedSheet.ofRelationships? relationships name id)

/-- The worksheets of a template, which has at least one. -/
def templateSheets (p : Package) : Except PackageError (List ListedSheet) := do
  let sheets ← p.sheets
  if sheets.isEmpty then throw .noWorksheets else pure sheets

end Package

end SheetFill
