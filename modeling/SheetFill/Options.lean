/-!
# Options of filling

What is done to the parts of a template besides putting the data in.
-/

namespace SheetFill

/-- What is done besides putting the data in. -/
structure FillOptions where
  /-- Formulas lose their stored results, so that they are computed when the workbook is opened. -/
  dropStoredResults : Bool := true
  /-- Merged cells, defined names, tables, filters, links and validations move with their cells. -/
  moveRanges : Bool := true
  /-- The dimension of a worksheet grows with it. -/
  growDimension : Bool := true
deriving DecidableEq

end SheetFill
