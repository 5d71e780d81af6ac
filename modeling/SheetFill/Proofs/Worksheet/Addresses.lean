import SheetFill.Proofs.Worksheet.Sums

/-!
# Addresses in a filled sheet

The rows of a filled sheet are the copies of the planned rows, and its cells are those that the
planned cells become. If the rows and cells of the template stand in order, each block of copies
ends before the next one begins. So the rows and cells of the filled sheet stand in order as well,
inside of the limits of a sheet, and no address is written twice (`fillSheet_addresses`).

A row may have any number of 32 bits, and a sum of its number can be too large before it is compared
with the limits of a sheet. A row with the largest of these numbers is enough for that, and then
nothing comes of the sheet (`fillSheet?_farSheet`).
-/

namespace SheetFill

open Xml

/-! ## Placed rows -/

/-- The copies of planned rows, the first of them moved `offset` rows down. -/
def placedRows (options : FillOptions) (log : InsertionLog) (offset : Nat) :
    List TemplateRow → List PlacedRow
  | [] => []
  | row :: rows =>
      row.copies options log offset ++
        placedRows options log (offset + (row.copyCount - 1)) rows

section Rows

variable {options : FillOptions} {data : Value} {table final : StringTable} {log : InsertionLog}
  {template : Document}

theorem written_traceRows (offset : Nat) (rows : List (Nat × Element)) :
    (traceRows options data table final log offset rows).flatMap
        (fun row => row.copies.map (·.written)) =
      (placedRows options log offset (planned table data rows)).map (PlacedRow.xml final) := by
  induction rows generalizing offset with
  | nil => rfl
  | cons row rows ih =>
      have first : planned table data (row :: rows) =
          .ofRow table data 0 row.1 row.2 :: planned table data rows := rfl
      rw [traceRows, List.flatMap_cons, ih, first, placedRows, List.map_append, rowTrace,
        TemplateRow.copies, List.map_map, List.map_map]
      rfl

/-- The rows of a filled sheet are the placed ones. -/
theorem sheetRows_fillSheet (later : (fillSheet options data table template).2.GrowsTo final) :
    sheetRows (fillSheet options data table template).1.document =
      (placedRows options (fillSheet options data table template).1.log 0
        (planned table data (numberRows 1 (sheetRows template)))).map (PlacedRow.xml final) :=
  (isTrace_fillTrace later).writtenRows.trans (written_traceRows 0 _)

/-- The rows of a layout are the placed rows. -/
theorem rows_layout (offset : Nat) (items : List SheetItem) :
    (SheetItem.layout options log offset items).filterMap PlacedItem.row? =
      placedRows options log offset (items.filterMap SheetItem.row?) := by
  induction items generalizing offset with
  | nil => rfl
  | cons item items ih =>
      cases item with
      | row r =>
          rw [SheetItem.layout, List.filterMap_append, filterMap_map_row, ih]
          rfl
      | other e => exact ih offset

theorem mem_copies {row : TemplateRow} {offset : Nat} {placed : PlacedRow}
    (mem : placed ∈ row.copies options log offset) :
    ∃ k < row.copyCount, row.number + offset + k ≤ maxRows ∧
      placed = row.copyRow options log k (row.number + offset + k) := by
  obtain ⟨k, kept, rfl⟩ := List.mem_map.mp mem
  obtain ⟨inside, room⟩ := List.mem_filter.mp kept
  exact ⟨k, List.mem_range.mp inside, of_decide_eq_true room, rfl⟩

/-- A placed row is a copy of a planned row. -/
theorem mem_placedRows {offset : Nat} {rows : List TemplateRow} {placed : PlacedRow}
    (mem : placed ∈ placedRows options log offset rows) :
    ∃ row ∈ rows, ∃ k n, row.number + offset ≤ n ∧ n ≤ maxRows ∧
      placed = row.copyRow options log k n := by
  induction rows generalizing offset with
  | nil => cases mem
  | cons row rows ih =>
      rcases List.mem_append.mp mem with mem | mem
      · obtain ⟨k, -, room, rfl⟩ := mem_copies mem
        exact ⟨row, List.mem_cons_self, k, _, Nat.le_add_right .., room, rfl⟩
      · obtain ⟨source, inRows, k, n, moved, room, rfl⟩ := ih mem
        exact ⟨source, List.mem_cons_of_mem row inRows, k, n, by omega, room, rfl⟩

theorem pairwise_copies (row : TemplateRow) (offset : Nat) :
    (row.copies options log offset).Pairwise fun a b => a.number < b.number := by
  refine List.pairwise_map.mpr ((List.pairwise_lt_range.filter _).imp fun {j k} before => ?_)
  exact Nat.add_lt_add_left before _

/-- The copies of a row come before those of the next one. -/
theorem pairwise_placedRows (offset : Nat) {rows : List TemplateRow}
    (increasing : rows.Pairwise fun a b => a.number < b.number) :
    (placedRows options log offset rows).Pairwise fun a b => a.number < b.number := by
  induction rows generalizing offset with
  | nil => exact List.Pairwise.nil
  | cons row rows ih =>
      obtain ⟨above, later⟩ := List.pairwise_cons.mp increasing
      refine List.pairwise_append.mpr ⟨pairwise_copies row offset, ih _ later, ?_⟩
      intro first inCopies second inRows
      obtain ⟨k, copy, -, rfl⟩ := mem_copies inCopies
      obtain ⟨source, mem, j, n, moved, -, rfl⟩ := mem_placedRows inRows
      have below := above source mem
      show row.number + offset + k < n
      omega

end Rows

/-! ## Placed cells -/

section Cells

variable {options : FillOptions} {data : Value} {table : StringTable} {log : InsertionLog}

/-- A cell is not moved to the left. -/
theorem le_place {offset : Nat} {cells : List (Nat × Element)} {cell : TemplateCell}
    (mem : cell ∈ placeCells table data offset cells) : cell.column + offset ≤ cell.place := by
  induction cells generalizing offset with
  | nil => cases mem
  | cons first cells ih =>
      rcases List.mem_cons.mp mem with rfl | mem
      · exact Nat.le_refl _
      · have moved := ih mem
        omega

/-- The last cell that a cell becomes is left of the first one that the next cell becomes. -/
theorem pairwise_placeCells (offset : Nat) {cells : List (Nat × Element)}
    (increasing : cells.Pairwise fun a b => a.1 < b.1) :
    (placeCells table data offset cells).Pairwise fun a b =>
      a.place + a.outcome.extraColumns < b.place := by
  induction cells generalizing offset with
  | nil => exact List.Pairwise.nil
  | cons first cells ih =>
      obtain ⟨above, later⟩ := List.pairwise_cons.mp increasing
      refine List.pairwise_cons.mpr ⟨fun cell mem => ?_, ih _ later⟩
      have moved : cell.column + (offset + (planCell table data first.2).1.extraColumns) ≤
          cell.place := le_place mem
      have column : cell.column ∈ cells.map (·.1) := by
        rw [← map_column_placeCells]
        exact List.mem_map_of_mem mem
      obtain ⟨source, inCells, same⟩ := List.mem_map.mp column
      have right := above source inCells
      show first.1 + offset + (planCell table data first.2).1.extraColumns < cell.place
      omega

theorem column_of_mem_placeCell {row copy number : Nat} {cell : TemplateCell} {placed : PlacedCell}
    (mem : placed ∈ placeCell options log row copy number cell) :
    cell.place ≤ placed.column ∧ placed.column ≤ cell.place + cell.outcome.extraColumns := by
  have column : placed.column ∈ (placeCell options log row copy number cell).map
      PlacedCell.column := List.mem_map_of_mem mem
  rw [map_column_placeCell] at column
  obtain ⟨first, last⟩ := List.mem_range'_1.mp (List.mem_filter.mp column).1
  exact ⟨first, by omega⟩

theorem pairwise_placeCell (row copy number : Nat) (cell : TemplateCell) :
    (placeCell options log row copy number cell).Pairwise fun a b => a.column < b.column := by
  have columns : ((placeCell options log row copy number cell).map PlacedCell.column).Pairwise
      (· < ·) := by
    rw [map_column_placeCell]
    exact List.Pairwise.filter _ List.pairwise_lt_range'
  exact List.pairwise_map.mp columns

/-- The cells of a copy stand in order. -/
theorem pairwise_copyRow {number : Nat} {row : Element} (copy placed : Nat)
    (increasing : (numberCells 1 (rowCells row)).Pairwise fun a b => a.1 < b.1) :
    ((TemplateRow.ofRow table data 0 number row).copyRow options log copy placed).cells.Pairwise
      fun a b => a.column < b.column := by
  have blocks : (TemplateRow.ofRow table data 0 number row).cells.Pairwise fun a b =>
      a.place + a.outcome.extraColumns < b.place := by
    rw [cells_ofRow]
    exact pairwise_placeCells 0 increasing
  refine List.pairwise_flatMap.mpr ⟨fun cell _ => pairwise_placeCell .., ?_⟩
  refine blocks.imp fun {a b} apart x inA y inB => ?_
  have last := (column_of_mem_placeCell inA).2
  have first := (column_of_mem_placeCell inB).1
  omega

end Cells

/-! ## Addresses -/

/-- The numbers of rows, each with the columns of its cells, increase and are those of a sheet. -/
structure OnSheetInOrder (places : List (Nat × List Nat)) : Prop where
  /-- The rows are in order. -/
  rows : places.Pairwise fun a b => a.1 < b.1
  /-- The rows are inside the sheet. -/
  rowInside : ∀ place ∈ places, 1 ≤ place.1 ∧ place.1 ≤ maxRows
  /-- The cells of each row are in order. -/
  cols : ∀ place ∈ places, place.2.Pairwise (· < ·)
  /-- The cells are inside the sheet. -/
  colInside : ∀ place ∈ places, ∀ col ∈ place.2, 1 ≤ col ∧ col ≤ maxColumns

/-- The labels of all cells. -/
def labels (places : List (Nat × List Nat)) : List String :=
  places.flatMap fun place => place.2.map (CellAddress.label place.1)

theorem OnSheetInOrder.nodup_labels {places : List (Nat × List Nat)}
    (ordered : OnSheetInOrder places) : (labels places).Nodup := by
  refine List.nodup_flatMap.mpr ⟨fun place mem => ?_, ?_⟩
  · refine (List.nodup_map_iff_inj_on ?_).mpr fun col inRow col' inRow' same => ?_
    · exact (ordered.cols place mem).imp fun before => Nat.ne_of_lt before
    · have row := ordered.rowInside place mem
      exact (CellAddress.label_inj row (ordered.colInside place mem col inRow) row
        (ordered.colInside place mem col' inRow') same).2
  · refine ordered.rows.imp_of_mem fun {a b} memA memB before => ?_
    intro text inA inB
    obtain ⟨col, inRow, rfl⟩ := List.mem_map.mp inA
    obtain ⟨col', inRow', same⟩ := List.mem_map.mp inB
    have equal := (CellAddress.label_inj (ordered.rowInside b memB)
      (ordered.colInside b memB col' inRow') (ordered.rowInside a memA)
      (ordered.colInside a memA col inRow) same).1
    omega

section Places

variable {template : Document}

/-- The number of a placed row and the columns of its cells. -/
def PlacedRow.place (row : PlacedRow) : Nat × List Nat := (row.number, row.cells.map (·.column))

theorem onSheetInOrder_placedRows (options : FillOptions) (data : Value) (table : StringTable)
    (log : InsertionLog) (ordered : SheetInOrder template) :
    OnSheetInOrder ((placedRows options log 0
      (planned table data (numberRows 1 (sheetRows template)))).map PlacedRow.place) := by
  have positive := numberRows_positive (Nat.le_refl 1) (sheetRows template)
  have planRows := inOrder_planned table data ordered.rows positive
  have source (row : PlacedRow) (mem : row ∈ placedRows options log 0
      (planned table data (numberRows 1 (sheetRows template)))) :
      ∃ e ∈ sheetRows template, ∃ number k n, 1 ≤ n ∧ n ≤ maxRows ∧
        row = (TemplateRow.ofRow table data 0 number e).copyRow options log k n := by
    obtain ⟨plan, inPlan, k, n, moved, room, rfl⟩ := mem_placedRows mem
    have one := planRows.positive plan inPlan
    obtain ⟨numbered, inRows, rfl⟩ := List.mem_map.mp inPlan
    exact ⟨numbered.2, snd_mem_numberRows inRows, numbered.1, k, n, by omega, room, rfl⟩
  refine ⟨List.pairwise_map.mpr (pairwise_placedRows 0 planRows.increasing), ?_, ?_, ?_⟩
  all_goals
    intro place mem
    obtain ⟨row, inRows, rfl⟩ := List.mem_map.mp mem
    obtain ⟨e, inSheet, number, k, n, one, room, rfl⟩ := source row inRows
  · exact ⟨one, room⟩
  · exact List.pairwise_map.mpr (pairwise_copyRow k n (ordered.cells e inSheet))
  · intro col inRow
    obtain ⟨cell, inCells, rfl⟩ := List.mem_map.mp inRow
    exact column_of_mem_copyRow inCells

/-- The numbers and addresses that are written are those of the placed rows and cells. -/
theorem attrs_fillSheet (options : FillOptions) (data : Value) (table : StringTable)
    (template : Document) :
    (sheetRows (fillSheet options data table template).1.document).map
        (fun row => (row.attr? "r", (rowCells row).map (·.attr? "r"))) =
      ((placedRows options (fillSheet options data table template).1.log 0
        (planned table data (numberRows 1 (sheetRows template)))).map PlacedRow.place).map
        fun place => (some (Text.Numeral.text place.1),
          place.2.map fun col => some (CellAddress.label place.1 col)) := by
  rw [sheetRows_fillSheet (.refl _), List.map_map, List.map_map]
  refine List.map_congr_left fun row mem => ?_
  obtain ⟨plan, inPlan, k, n, -, -, rfl⟩ := mem_placedRows mem
  obtain ⟨numbered, -, rfl⟩ := List.mem_map.mp inPlan
  refine Prod.ext (PlacedRow.attr?_xml _ _) ?_
  show List.map _ (rowCells _) = List.map _ (List.map _ _)
  rw [rowCells_copyRow, List.map_map, List.map_map]
  exact List.map_congr_left fun cell _ => PlacedCell.attr?_xml _ n cell

end Places

/-- What comes of a sheet in order has its rows and cells in order, at numbers of a sheet, with the
addresses that they stand at, and no two cells have the same address. Something comes of a sheet
whose numbers leave room for all insertions. -/
theorem fillSheet_addresses (options : FillOptions) (data : Value) (table : StringTable)
    (template : Document) (ordered : SheetInOrder template) :
    (Room (planned table data (numberRows 1 (sheetRows template))) →
      (fillSheet? options data table template).isSome = true) ∧
    ∀ filled after, fillSheet? options data table template = some (filled, after) →
      ∃ places, OnSheetInOrder places ∧
        (sheetRows filled.document).map
            (fun row => (row.attr? "r", (rowCells row).map (·.attr? "r"))) =
          places.map (fun place => (some (Text.Numeral.text place.1),
            place.2.map fun col => some (CellAddress.label place.1 col))) ∧
        ((sheetRows filled.document).flatMap rowCells).map (·.attr? "r") =
          (labels places).map some ∧
        (labels places).Nodup := by
  refine ⟨isSome_fillSheet?_of_room, ?_⟩
  intro filled after run
  obtain rfl := fst_fillSheet_of_fillSheet? run
  have inOrder := onSheetInOrder_placedRows options data table
    (fillSheet options data table template).1.log ordered
  have attrs := attrs_fillSheet options data table template
  refine ⟨_, inOrder, attrs, ?_, inOrder.nodup_labels⟩
  have cells := congrArg (List.flatMap Prod.snd) attrs
  rw [List.flatMap_map, List.flatMap_map] at cells
  rw [List.map_flatMap, cells, labels, List.map_flatMap]
  exact List.flatMap_congr fun place _ => (List.map_map ..).symm

theorem fillSheet_addresses_grownSheet :
    let table := StringTable.ofDocument none grownData
    let filled := fillSheet {} grownData table grownSheet
    SheetInOrder grownSheet ∧
      Room (planned table grownData (numberRows 1 (sheetRows grownSheet))) ∧
      fillSheet? {} grownData table grownSheet = some filled ∧
      ∃ places, OnSheetInOrder places ∧
        ((sheetRows filled.1.document).flatMap rowCells).map (·.attr? "r") =
          (labels places).map some ∧
        (labels places).Nodup := by
  intro table filled
  have ordered : SheetInOrder grownSheet := by decide +kernel
  have room : Room (planned table grownData (numberRows 1 (sheetRows grownSheet))) := by
    decide +kernel
  have run : fillSheet? {} grownData table grownSheet = some filled := fillSheet?_of_room room
  obtain ⟨places, inOrder, -, cells, nodup⟩ :=
    (fillSheet_addresses {} grownData table grownSheet ordered).2 filled.1 filled.2 run
  exact ⟨ordered, room, run, places, inOrder, cells, nodup⟩

/-- A table in the first row, and a row with the largest number of 32 bits. -/
def farSheet : Document :=
  ⟨none, ⟨"worksheet", [], [.element ⟨"sheetData", [],
    [.element ⟨"row", [("r", "1")],
        [.element ⟨"c", [("r", "A1"), ("t", "inlineStr")],
          [.element ⟨"is", [], [.element ⟨"t", [], [.text "${table:xs}"]⟩]⟩]⟩]⟩,
      .element ⟨"row", [("r", "4294967295")],
        [.element ⟨"c", [], [.element ⟨"v", [], [.text "7"]⟩]⟩]⟩]⟩]⟩⟩

/-- The rows and cells of a sheet may be in order while the number after a row, and its number below
a table, need more than 32 bits. Nothing comes of the sheet then, although only its last row lies
beyond the limits. -/
theorem fillSheet?_farSheet :
    let table := StringTable.ofDocument none grownData
    SheetInOrder farSheet ∧
      (numberRows 1 (sheetRows farSheet)).map (·.1) = [1, Text.Numeral.maxWord32] ∧
      fillSheet? {} grownData table farSheet = none := by
  decide +kernel

end SheetFill
