import SheetFill.Workbook.Sheets

/-!
# Registering the shared strings

A package with a table of shared strings declares it twice: the list of content types has an entry
for its path, and the workbook a relationship that leads to it. `registerStrings` adds what is
missing.
-/

namespace SheetFill

open Xml

namespace Workbook

/-- The type of the relationship to the table of shared strings. -/
def stringsType : String :=
  "http://schemas.openxmlformats.org/officeDocument/2006/relationships/sharedStrings"

/-- The content type of the table of shared strings. -/
def stringsContentType : String :=
  "application/vnd.openxmlformats-officedocument.spreadsheetml.sharedStrings+xml"

/-- The entry of the list of content types for the table. -/
def stringsOverride : Element :=
  ⟨"Override", [("PartName", "/" ++ stringsPath), ("ContentType", stringsContentType)], []⟩

/-- Whether an entry of the list of content types is for the table. -/
def isStringsOverride (e : Element) : Bool :=
  e.name == "Override" && e.attr? "PartName" == some ("/" ++ stringsPath)

/-- The number in an identifier of the form `rId` and number. -/
def idNumber? (id : String) : Option Nat :=
  (Text.dropStart? "rId".toList id.toList).bind (Text.Numeral.unsigned? Text.Numeral.maxWord32)

/-- The identifier after all numbered ones. -/
def nextId (relationships : List Relationship) : String :=
  let last := (relationships.filterMap fun r => idNumber? r.id).foldr Nat.max 0
  "rId" ++ Text.Numeral.text (last + 1)

/-- The relationship to the table, under an identifier. -/
def stringsRelationship (id : String) : Element :=
  ⟨"Relationship", [("Id", id), ("Type", stringsType), ("Target", "sharedStrings.xml")], []⟩

end Workbook

/-- A document with an element after the children of its root. -/
def Xml.Document.push (d : Document) (e : Element) : Document :=
  { d with root := d.root.push (.element e) }

namespace Package

/-- The package with an entry for the table in its list of content types, if it has such a list. -/
def registerContentType (p : Package) : Except PackageError Package := do
  match ← p.text? Workbook.typesPath with
  | none => pure p
  | some text =>
      match Document.read text with
      | .error e => throw (.badXml e)
      | .ok types =>
          if types.root.elements.any Workbook.isStringsOverride then pure p
          else pure (p.write Workbook.typesPath (types.push Workbook.stringsOverride).toXml)

/-- The package with a relationship of the workbook to the table, if the workbook has any. -/
def registerRelationship (p : Package) : Except PackageError Package := do
  match ← p.text? Workbook.relationshipsPath with
  | none => pure p
  | some text =>
      let relationships ← Relationship.readAll text
      if relationships.any fun r => r.kind == "sharedStrings" then pure p
      else match Document.read text with
        | .error e => throw (.badXml e)
        | .ok document =>
            let added := Workbook.stringsRelationship (Workbook.nextId relationships)
            pure (p.write Workbook.relationshipsPath (document.push added).toXml)

/-- The package with the table of shared strings declared. -/
def registerStrings (p : Package) : Except PackageError Package :=
  p.registerContentType >>= registerRelationship

end Package

end SheetFill
