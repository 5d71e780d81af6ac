import SheetFill.Proofs.SharedStrings.Growth
import SheetFill.Proofs.Xml.Elements
import SheetFill.Worksheet.Fill

/-!
# Writing with the finished table

A sheet is written cell by cell while the table of strings grows. What is written is the same as if
the finished table had been there from the start, since no index changes (`writeItems_eq`). So what
a cell looks like can be said without the cells before it.
-/

namespace SheetFill

open Xml

/-! ## Without a table that grows -/

/-- A cell as XML, with the indices of a finished table. -/
def PlacedCell.xml (final : StringTable) (row : Nat) (cell : PlacedCell) : Element :=
  (writeCell final row cell).1

/-- A row as XML, with the indices of a finished table. -/
def PlacedRow.xml (final : StringTable) (row : PlacedRow) : Element :=
  ⟨"row", Element.setIn "r" (Text.Numeral.text row.number) row.attributes,
    (row.cells.map (PlacedCell.xml final row.number) ++ row.trailing).map Node.element⟩

/-- An element of the filled sheet as XML, with the indices of a finished table. -/
def PlacedItem.xml (final : StringTable) : PlacedItem → Element
  | .row r => r.xml final
  | .other e => e

/-- The text of a cell, if it has one, is a new string of a table. -/
def PlacedCell.Stored (final : StringTable) (cell : PlacedCell) : Prop :=
  ∀ template text, cell.body = .filled template (some (.text text)) → text ∈ final.added

/-! ## The table grows -/

theorem growsTo_writeCell (table : StringTable) (row : Nat) (cell : PlacedCell) :
    table.GrowsTo (writeCell table row cell).2 := by
  rw [writeCell]
  split
  · split
    · exact table.growsTo_countUse
    · exact .refl table
  · exact .refl table
  · exact .refl table
  · exact .refl table
  · exact .refl table
  · exact (table.growsTo_intern _).trans (StringTable.growsTo_countUse _)

theorem growsTo_writeCells (table : StringTable) (row : Nat) (cells : List PlacedCell) :
    table.GrowsTo (writeCells table row cells).2 := by
  induction cells generalizing table with
  | nil => exact .refl table
  | cons cell cells ih => exact (growsTo_writeCell table row cell).trans (ih _)

theorem growsTo_writeItems (table : StringTable) (items : List PlacedItem) :
    table.GrowsTo (writeItems table items).2 := by
  induction items generalizing table with
  | nil => exact .refl table
  | cons item items ih =>
      cases item with
      | row r => exact (growsTo_writeCells table r.number r.cells).trans (ih _)
      | other e => exact ih table

theorem growsTo_fillSheet (options : FillOptions) (data : Value) (table : StringTable)
    (template : Document) : table.GrowsTo (fillSheet options data table template).2 :=
  growsTo_writeItems table _

/-! ## The same cells -/

/-- A cell is written as with any later table, and its text is in that table. -/
theorem writeCell_eq {table final : StringTable} {row : Nat} {cell : PlacedCell}
    (h : (writeCell table row cell).2.GrowsTo final) :
    (writeCell table row cell).1 = cell.xml final row ∧ cell.Stored final := by
  obtain ⟨column, body⟩ := cell
  cases body with
  | copied template => exact ⟨rfl, fun _ _ other => by cases other⟩
  | formula template => exact ⟨rfl, fun _ _ other => by cases other⟩
  | filled template content =>
      cases content with
      | none => exact ⟨rfl, fun _ _ other => by cases other⟩
      | some content =>
          cases content with
          | number x => exact ⟨rfl, fun _ _ other => by cases other⟩
          | boolean b => exact ⟨rfl, fun _ _ other => by cases other⟩
          | text s =>
              -- An index is given once and stays, so it can be read off the finished table.
              have later := (StringTable.growsTo_countUse (table.intern s).2).trans h
              refine ⟨?_, fun _ _ same => ?_⟩
              · simp only [writeCell, PlacedCell.xml, later.intern_fst]
              · cases same
                exact later.mem_added

theorem writeCells_eq {table final : StringTable} {row : Nat} {cells : List PlacedCell}
    (h : (writeCells table row cells).2.GrowsTo final) :
    (writeCells table row cells).1 = cells.map (PlacedCell.xml final row) ∧
      ∀ cell ∈ cells, cell.Stored final := by
  induction cells generalizing table with
  | nil => exact ⟨rfl, fun _ mem => by cases mem⟩
  | cons cell cells ih =>
      obtain ⟨first, stored⟩ := writeCell_eq ((growsTo_writeCells _ row cells).trans h)
      obtain ⟨rest, storedRest⟩ := ih h
      refine ⟨congr (congrArg List.cons first) rest, fun c mem => ?_⟩
      rcases List.mem_cons.mp mem with rfl | mem
      · exact stored
      · exact storedRest c mem

/-- A sheet is written as with any later table, and its texts are in that table. -/
theorem writeItems_eq {table final : StringTable} {items : List PlacedItem}
    (h : (writeItems table items).2.GrowsTo final) :
    (writeItems table items).1 = items.map (PlacedItem.xml final) ∧
      ∀ row ∈ items.filterMap PlacedItem.row?, ∀ cell ∈ row.cells, cell.Stored final := by
  induction items generalizing table with
  | nil => exact ⟨rfl, fun _ mem => by cases mem⟩
  | cons item items ih =>
      cases item with
      | row r =>
          obtain ⟨cells, stored⟩ := writeCells_eq ((growsTo_writeItems _ items).trans h)
          obtain ⟨rest, storedRest⟩ := ih h
          have first : (writeRow table r).1 = r.xml final := by
            show (⟨"row", _, ((writeCells table r.number r.cells).1 ++ r.trailing).map
              Node.element⟩ : Element) = _
            rw [cells]
            rfl
          refine ⟨congr (congrArg List.cons first) rest, fun row mem => ?_⟩
          rcases List.mem_cons.mp mem with rfl | mem
          · exact stored
          · exact storedRest row mem
      | other e =>
          obtain ⟨rest, storedRest⟩ := ih h
          exact ⟨congrArg (List.cons e) rest, storedRest⟩

/-! ## Names and addresses -/

/-- The cell of the template that a body is made from. -/
def CellBody.template : CellBody → Element
  | .copied template => template
  | .formula template => template
  | .filled template _ => template

theorem PlacedCell.name_xml (final : StringTable) (row : Nat) (cell : PlacedCell) :
    (cell.xml final row).name = cell.body.template.name := by
  obtain ⟨column, body⟩ := cell
  rcases body with _ | _ | ⟨_, _ | _ | _ | _⟩ <;> rfl

theorem attr?_blankCell (template : Element) (address : String) :
    (blankCell template address).attr? "r" = some address := by
  show ((template.setAttr "r" address).removeAttr "t").attr? "r" = some address
  rw [Element.attr?_removeAttr_of_ne _ (by decide), Element.attr?_setAttr_self]

/-- A written cell has the address of its place. -/
theorem PlacedCell.attr?_xml (final : StringTable) (row : Nat) (cell : PlacedCell) :
    (cell.xml final row).attr? "r" = some (CellAddress.label row cell.column) := by
  obtain ⟨column, body⟩ := cell
  rcases body with template | template | ⟨template, _ | _ | _ | s⟩
  · exact template.attr?_setAttr_self "r" _
  · exact template.attr?_setAttr_self "r" _
  · exact attr?_blankCell template _
  · exact attr?_blankCell template _
  · exact ((blankCell template _).attr?_setAttr_of_ne (by decide) "b").trans
      (attr?_blankCell template _)
  · exact ((blankCell template _).attr?_setAttr_of_ne (by decide) "s").trans
      (attr?_blankCell template _)

theorem PlacedRow.attr?_xml (final : StringTable) (row : PlacedRow) :
    (row.xml final).attr? "r" = some (Text.Numeral.text row.number) :=
  Element.attr?_setAttr_self ⟨"row", row.attributes, _⟩ "r" _

end SheetFill
