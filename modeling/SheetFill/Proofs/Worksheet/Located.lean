import SheetFill.Proofs.Worksheet.Placement
import SheetFill.Proofs.Worksheet.Settled

/-!
# Cells with their places

A cell of a worksheet has a place, though neither its row nor the cell itself need say so. In a
filled worksheet they all do, so the places of its cells are those that are written
(`cellsAt_fillSheet`).
-/

namespace SheetFill

open Xml

/-- A cell of a worksheet at its place. -/
structure CellAt where
  /-- Its row, from zero. -/
  row : Nat
  /-- Its column, from zero. -/
  col : Nat
  /-- The cell. -/
  cell : Element
deriving DecidableEq

/-- The cells of a numbered row. -/
def cellsIn (number : Nat) (row : Element) : List CellAt :=
  (numberCells 1 (rowCells row)).map fun cell => ⟨number - 1, cell.1 - 1, cell.2⟩

/-- The cells of a worksheet. -/
def cellsAt (d : Document) : List CellAt :=
  (numberRows 1 (sheetRows d)).flatMap fun row => cellsIn row.1 row.2

theorem mem_cellsAt {d : Document} {c : CellAt} : c ∈ cellsAt d ↔
    ∃ row ∈ numberRows 1 (sheetRows d), ∃ cell ∈ numberCells 1 (rowCells row.2),
      (⟨row.1 - 1, cell.1 - 1, cell.2⟩ : CellAt) = c := by
  simp only [cellsAt, cellsIn, List.mem_flatMap, List.mem_map]

/-! ## Rows and cells that say where they are -/

theorem numberRows_of_own {rows : List Element} {number : Element → Nat}
    (own : ∀ row ∈ rows, rowNumber? row = some (number row)) (next : Nat) :
    numberRows next rows = rows.map fun row => (number row, row) := by
  induction rows generalizing next with
  | nil => rfl
  | cons row rows ih =>
      obtain ⟨first, rest⟩ := List.forall_mem_cons.mp own
      rw [numberRows, first, Option.getD_some, ih rest, List.map_cons]

theorem numberCells_of_own {cells : List Element} {column : Element → Nat}
    (own : ∀ cell ∈ cells, cellColumn? cell = some (column cell)) (next : Nat) :
    numberCells next cells = cells.map fun cell => (column cell, cell) := by
  induction cells generalizing next with
  | nil => rfl
  | cons cell cells ih =>
      obtain ⟨first, rest⟩ := List.forall_mem_cons.mp own
      rw [numberCells, first, Option.getD_some, ih rest, List.map_cons]

/-- The column of a cell that says where it is. -/
theorem cellColumn?_of_label {cell : Element} {row column : Nat} (rowPositive : 0 < row)
    (rowInside : row ≤ maxRows) (positive : 0 < column) (inside : column ≤ maxColumns)
    (own : cell.attr? "r" = some (CellAddress.label row column)) :
    cellColumn? cell = some column := by
  rw [cellColumn?, own, Option.map_some,
    CellAddress.read_label rowPositive rowInside positive inside]
  exact congrArg some (Nat.sub_add_cancel positive)

/-! ## Cells of a filled worksheet -/

section Filled

variable {options : FillOptions} {data : Value} {table final : StringTable} {log : InsertionLog}
  {template : Document}

/-- A placed cell at its place. -/
def PlacedCell.at (final : StringTable) (number : Nat) (cell : PlacedCell) : CellAt :=
  ⟨number - 1, cell.column - 1, cell.xml final number⟩

/-- The cells that a planned cell becomes in a copy of its row. -/
def placedAt (options : FillOptions) (final : StringTable) (log : InsertionLog)
    (row copy number : Nat) (cell : TemplateCell) : List CellAt :=
  (placeCell options log row copy number cell).map (PlacedCell.at final number)

theorem cellsIn_copyRow {number copy placed : Nat} {row : Element} (positive : 0 < placed)
    (inside : placed ≤ maxRows) :
    cellsIn placed (((TemplateRow.ofRow table data 0 number row).copyRow options log copy
        placed).xml final) =
      (planCells table data 0 (numberCells 1 (rowCells row))).flatMap fun cell =>
        placedAt options final log number copy placed cell.2 := by
  generalize made : (TemplateRow.ofRow table data 0 number row).copyRow options log copy placed =
    copied
  have columns : ∀ cell ∈ copied.cells,
      cellColumn? (cell.xml final placed) = some cell.column := by
    intro cell mem
    rw [← made] at mem
    obtain ⟨one, near⟩ := column_of_mem_copyRow mem
    exact cellColumn?_of_label positive inside one near (cell.attr?_xml final placed)
  have cells : rowCells (copied.xml final) = copied.cells.map (PlacedCell.xml final placed) := by
    rw [← made]
    exact rowCells_copyRow number row copy placed
  have own : ∀ cell ∈ copied.cells.map (PlacedCell.xml final placed),
      cellColumn? cell = some ((cellColumn? cell).getD 0) := by
    intro cell mem
    obtain ⟨placed, source, rfl⟩ := List.mem_map.mp mem
    rw [columns placed source, Option.getD_some]
  have planned : copied.cells = (planCells table data 0 (numberCells 1 (rowCells row))).flatMap
      fun cell => placeCell options log number copy placed cell.2 := by
    rw [← made]
    exact cells_copyRow number row copy placed
  rw [cellsIn, cells, numberCells_of_own own, List.map_map, List.map_map]
  have same : copied.cells.map (PlacedCell.at final placed) = (planCells table data 0
      (numberCells 1 (rowCells row))).flatMap fun cell =>
        placedAt options final log number copy placed cell.2 := by
    rw [planned, List.map_flatMap]
    rfl
  rw [← same]
  refine List.map_congr_left fun cell mem => ?_
  simp only [Function.comp_apply, columns cell mem, Option.getD_some]
  rfl

theorem rowNumber?_copyTrace {number copy placed : Nat} {row : Element} (positive : 0 < placed)
    (inside : placed ≤ maxRows) :
    rowNumber? (copyTrace options data table final log number row copy placed).written =
      some placed :=
  rowNumber?_of_text positive inside (PlacedRow.attr?_xml final _)

/-- The cells of a filled worksheet are those that the cells of the template became. -/
theorem cellsAt_fillSheet (later : (fillSheet options data table template).2.GrowsTo final) :
    cellsAt (fillSheet options data table template).1.document =
      (fillTrace options data table final template).flatMap fun row =>
        row.copies.flatMap fun copy =>
          cellsIn ((rowNumber? copy.written).getD 0) copy.written := by
  have trace := isTrace_fillTrace later
  have own : ∀ row ∈ sheetRows (fillSheet options data table template).1.document,
      rowNumber? row = some ((rowNumber? row).getD 0) := by
    intro row mem
    rw [trace.writtenRows] at mem
    obtain ⟨traced, source, mem⟩ := List.mem_flatMap.mp mem
    obtain ⟨copy, inCopies, rfl⟩ := List.mem_map.mp mem
    obtain ⟨before, after, number, e, split, rfl⟩ := mem_traceRows source
    obtain ⟨k, -, room, rfl⟩ := mem_copies_rowTrace inCopies
    have inside : (number, e) ∈ numberRows 1 (sheetRows template) :=
      List.mem_iff_append.mpr ⟨before, after, split⟩
    have positive := numberRows_positive (Nat.le_refl 1) (sheetRows template) _ inside
    rw [rowNumber?_copyTrace (Nat.lt_of_lt_of_le positive (by omega)) room, Option.getD_some]
  rw [cellsAt, numberRows_of_own own, trace.writtenRows, List.flatMap_map, List.flatMap_assoc]
  exact List.flatMap_congr fun row _ => List.flatMap_map ..

end Filled

end SheetFill
