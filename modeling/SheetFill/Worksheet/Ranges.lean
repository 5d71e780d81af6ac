import SheetFill.Options
import SheetFill.InsertionLog.Basic
import SheetFill.Xml.Tree

/-!
# Ranges outside of the cells

Elements of a worksheet after its rows refer to ranges of cells. Once rows or cells were inserted,
those ranges move. Merged cells keep their size, and a merge within one row is repeated in every
copy of that row; all other ranges grow with what they cover.
-/

namespace SheetFill

open Xml

/-- An element with the ranges in one of its attributes moved. -/
def adjustAttr (log : InsertionLog) (key : String) (e : Element) : Element :=
  match e.attr? key with
  | some references => e.setAttr key (log.adjustList references)
  | none => e

/-- The merge that a merge of the template becomes in each copy of its row, or the one merge that it
becomes otherwise. -/
def adjustMerge (log : InsertionLog) (merge : Element) (range : CellRange) : List Element :=
  let moved := log.carryRange range
  let copies := if range.inOneRow then log.extraRows range.start.row else 0
  if copies = 0 then [merge.setAttr "ref" moved.text]
  else
    (List.range (copies + 1)).map fun copy =>
      let row := log.firstRow range.start.row + copy
      merge.setAttr "ref" (moved.relocate row moved.start.col row moved.stop.col).text

/-- What an entry of the list of merged cells becomes. One without a range is dropped, one whose
range cannot be read stays. -/
def adjustMergeEntry (log : InsertionLog) (merge : Element) : List Element :=
  match (merge.attr? "ref").map CellRange.read with
  | none => []
  | some (.ok range) => adjustMerge log merge range
  | some (.error _) => [merge]

/-- The list of merged cells, moved. -/
def adjustMerges (log : InsertionLog) (merges : Element) : Element :=
  let moved := merges.elements.flatMap (adjustMergeEntry log)
  { merges.setAttr "count" (Text.Numeral.text moved.length) with
    children := moved.map Node.element }

/-- A child of a worksheet with its ranges moved. -/
def adjustPart (options : FillOptions) (log : InsertionLog) (e : Element) : Element :=
  if e.name = "dimension" ∧ options.growDimension then adjustAttr log "ref" e
  else if options.moveRanges then
    if e.name = "mergeCells" then adjustMerges log e
    else if e.name = "autoFilter" then adjustAttr log "ref" e
    else if e.name = "conditionalFormatting" then adjustAttr log "sqref" e
    else if e.name = "dataValidations" then e.mapElements (adjustAttr log "sqref")
    else if e.name = "hyperlinks" then e.mapElements (adjustAttr log "ref")
    else e
  else e

end SheetFill
