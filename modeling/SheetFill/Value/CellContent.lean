import SheetFill.Placeholder
import SheetFill.Value.Basic

/-!
# What a cell holds

The content that a value gives a cell: a number, a truth value or a text. Dates are numbers, the
days since 1899-12-30 with the time of day as a fraction. Nothing, null, a number that is not finite
and a date that a spreadsheet cannot show leave the cell empty.
-/

namespace SheetFill

/-- The content of a cell that is not empty. -/
inductive CellContent where
  /-- A number. -/
  | number (x : Binary64)
  /-- A truth value. -/
  | boolean (b : Bool)
  /-- A text. -/
  | text (s : String)
deriving DecidableEq

/-- The days since 1899-12-30 of a date that a spreadsheet can show. -/
def DateTime.serial? (d : DateTime) : Option Binary64 :=
  d.serialMillis?.map fun millis => Binary64.ofRatio false millis 86400000

/-- The text that stands for a content in the cell, apart from shared strings. -/
def CellContent.written : CellContent → String
  | .number x => x.cellText
  | .boolean b => if b then "1" else "0"
  | .text s => s

/-- The content that a value gives a cell. -/
def Value.cellContent? : Value → Option CellContent
  | .null => none
  | .bool b => some (.boolean b)
  | .number x => if x.isFinite then some (.number x) else none
  | .text s => some (.text s)
  | .date d => d.serial?.map .number
  | .sequence items => some (.text (Value.sequence items).display)
  | .mapping entries => some (.text (Value.mapping entries).display)

/-- The text of what the body of a placeholder leads to; nothing if it leads nowhere. -/
def Value.textAt (data : Value) (body : String) : String :=
  ((data.resolve (DataPath.read body).steps).map Value.display).getD ""

/-- A text with each placeholder replaced by the text of what it leads to. -/
def Value.fill (data : Value) (text : String) : String := Placeholder.expand text data.textAt

end SheetFill
