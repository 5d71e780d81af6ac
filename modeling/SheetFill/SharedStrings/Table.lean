import SheetFill.SharedStrings.Item

/-!
# The table of shared strings

All worksheets of a workbook share one table of strings, and a cell holds the index of its string.
An entry of the template keeps its index. If its whole text is one placeholder, the cells that point
to it get contents of their own. Other placeholders are filled in place. New strings go after the
entries of the template, each text once. A text is searched for in the list of them, where a hash
index beside the list would find the same (`IndexedTable.run_eq`).
-/

namespace SheetFill

open Xml

/-- The kinds of entries of a template. -/
inductive EntryKind where
  /-- It has no placeholder and stays as it is. -/
  | constant
  /-- Its placeholders are filled in. -/
  | mixed
  /-- It is one placeholder; the cells that point to it get contents of their own. -/
  | sole (path : DataPath)
deriving DecidableEq

/-- An entry of the template. -/
structure Entry where
  /-- The item, with its placeholders filled in if it has other text too. -/
  item : Element
  /-- Its kind. -/
  kind : EntryKind
deriving DecidableEq

/-- The table of shared strings while a template is filled. -/
structure StringTable where
  /-- The part of the template, if it has one. -/
  document : Option Document
  /-- The entries of the template. -/
  entries : List Entry
  /-- The new strings, oldest first. -/
  added : List String
  /-- How many cells point into the table so far. -/
  uses : Nat
deriving DecidableEq

namespace Entry

/-- An entry of the template, planned against the data. -/
def ofItem (data : Value) (item : Element) : Entry :=
  let text := visibleText item
  match Placeholder.sole? text with
  | some body => ⟨item, .sole (DataPath.read body)⟩
  | none =>
      if Placeholder.occursIn text then ⟨fillItem data item, .mixed⟩ else ⟨item, .constant⟩

end Entry

namespace StringTable

/-- The table of a template, planned against the data. -/
def ofDocument (document : Option Document) (data : Value) : StringTable :=
  let items : List Element := match document with
    | some d => d.root.elements.filter fun e => e.name == "si"
    | none => []
  ⟨document, items.map (Entry.ofItem data), [], 0⟩

/-- The kind of the entry with an index. -/
def kind? (table : StringTable) (index : Nat) : Option EntryKind :=
  table.entries[index]?.map Entry.kind

/-- The text of the entry with an index, with its placeholders filled in. -/
def text? (table : StringTable) (index : Nat) : Option String :=
  table.entries[index]?.map fun entry => visibleText entry.item

/-- The index of a text as a new string, and the table that has it. Strings of the template are not
looked at. -/
def intern (table : StringTable) (text : String) : Nat × StringTable :=
  let place := table.added.idxOf text
  (table.entries.length + place,
    if place < table.added.length then table else { table with added := table.added ++ [text] })

/-- The table with one more cell that points into it. -/
def countUse (table : StringTable) : StringTable :=
  { table with uses := table.uses + 1 }

/-- Whether the workbook needs a part for the table. -/
def needsPart (table : StringTable) : Bool := table.document.isSome || !table.added.isEmpty

/-- The namespace of the elements of a spreadsheet. -/
def mainNamespace : String := "http://schemas.openxmlformats.org/spreadsheetml/2006/main"

/-- The part of a workbook that has no table yet. -/
def emptyDocument : Document :=
  ⟨some "xml version=\"1.0\" encoding=\"UTF-8\" standalone=\"yes\"",
    (Element.ofName "sst").setAttr "xmlns" mainNamespace⟩

/-- The part for the table: the entries, the new strings, and then the other elements of the
template's part, with the counts of uses and of strings. -/
def toPart (table : StringTable) : Document :=
  let document := table.document.getD emptyDocument
  let others := document.root.elements.filter fun e => e.name != "si"
  let items := table.entries.map Entry.item ++ table.added.map plainItem
  let root := { document.root with children := (items ++ others).map Node.element }
  { document with
    root := (root.setAttr "count" (Text.Numeral.text table.uses)).setAttr "uniqueCount"
      (Text.Numeral.text items.length) }

end StringTable

end SheetFill
