import SheetFill.Proofs.Worksheet.Sums

/-!
# The dimension of a filled worksheet

The dimension of a worksheet is a range that has all its cells. Cells are placed row by row, while
the dimension only grows by what the log says of its corners. It has all cells of the filled
worksheet all the same (`dimension_covers`): at the top and at the bottom since rows keep their
order, at the right since it grows by the largest shift among its rows, and at the left since
nothing is inserted before the first of its columns. Beyond the limits of a sheet there is neither.

A reference that is written with blanks between its corners is not a range to the log, which takes
it for several references.
-/

namespace SheetFill

open Xml

/-! ## Ranges that grow -/

namespace CellRange

instance (r : CellRange) (row col : Nat) : Decidable (r.Covers row col) :=
  decidable_of_iff (r.start.row ≤ row ∧ row ≤ r.stop.row ∧ r.start.col ≤ col ∧ col ≤ r.stop.col)
    ⟨fun h => ⟨h.1, h.2.1, h.2.2.1, h.2.2.2⟩, fun h => ⟨h.top, h.bottom, h.left, h.right⟩⟩

/-- A range that is sent around a cell of a sheet has this cell, even if its corners are cut off. -/
theorem covers_relocate (r : CellRange) {startRow startCol stopRow stopCol row col : Nat}
    (top : startRow ≤ row) (bottom : row ≤ stopRow) (left : startCol ≤ col)
    (right : col ≤ stopCol) (rowInside : row < maxRows) (colInside : col < maxColumns) :
    (r.relocate startRow startCol stopRow stopCol).Covers row col := by
  have top' := Nat.le_trans (CellAddress.clamp_le_self (maxRows - 1) startRow) top
  have left' := Nat.le_trans (CellAddress.clamp_le_self (maxColumns - 1) startCol) left
  have bottom' : row ≤ CellAddress.clamp (maxRows - 1) stopRow :=
    CellAddress.le_clamp (Nat.le_sub_one_of_lt rowInside) bottom
  have right' : col ≤ CellAddress.clamp (maxColumns - 1) stopCol :=
    CellAddress.le_clamp (Nat.le_sub_one_of_lt colInside) right
  obtain ⟨first, last⟩ := r.corners_relocate (Nat.le_trans top bottom) (Nat.le_trans left right)
  constructor
  · rwa [first]
  · rwa [last]
  · rwa [first]
  · rwa [last]

end CellRange

namespace InsertionLog

variable {log : InsertionLog}

/-- The last column that a range grows to, before it is cut off at the limit of a sheet. -/
def grownRight (log : InsertionLog) (range : CellRange) : Nat :=
  range.stop.col + log.largestShift range.start.row range.stop.row fun row =>
    log.lastColumn row range.stop.col - range.stop.col

/-- No row of a range has its last copies right of where the range grows to. -/
theorem lastColumn_le_grownRight {range : CellRange} (inside : range.stop.col < maxColumns)
    {row col : Nat} (covers : range.Covers row col) :
    log.lastColumn row col ≤ log.grownRight range := by
  refine Nat.le_trans (lastColumn_mono covers.right) ?_
  rw [grownRight]
  cases found : log.columns.get? row with
  | none =>
      have stays : log.lastColumn row range.stop.col ≤ range.stop.col := by
        rw [lastColumn, columnsWhere, found]
        exact bounded_le _
      omega
  | some cells =>
      have largest := shift_le_largestShift
        (fun row => log.lastColumn row range.stop.col - range.stop.col) covers.top covers.bottom
        found
      have right : range.stop.col ≤ log.lastColumn row range.stop.col := le_lastColumn inside
      omega

/-- A cell is at a place of the filled sheet that a cell of the template becomes. -/
structure Becomes (log : InsertionLog) (row col row' col' : Nat) : Prop where
  /-- The row is not above the first copy. -/
  firstRow : log.firstRow row ≤ row'
  /-- The row is not below the last copy. -/
  lastRow : row' ≤ log.lastRow row
  /-- The row is one of the sheet. -/
  rowInside : row' < maxRows
  /-- The column is not left of the first cell. -/
  firstColumn : log.firstColumn row col ≤ col'
  /-- The column is not right of the last cell. -/
  lastColumn : col' ≤ log.lastColumn row col
  /-- The column is one of the sheet. -/
  colInside : col' < maxColumns

/-- A range that grows has everything that its cells became, if nothing was inserted left of it. -/
theorem covers_growRange {range : CellRange} (wellFormed : range.WellFormed)
    {row col row' col' : Nat}
    (noneLeft : ∀ row, log.columnsWhere row (· < range.start.col) = 0)
    (becomes : log.Becomes row col row' col') (covers : range.Covers row col) :
    (log.growRange range).Covers row' col' := by
  have stays : log.largestShift range.start.row range.stop.row
      (fun row => log.firstColumn row range.start.col - range.start.col) = 0 := by
    refine Nat.eq_zero_of_le_zero (largestShift_le fun row _ _ => ?_)
    have le : log.firstColumn row range.start.col ≤ range.start.col := by
      rw [firstColumn, noneLeft row]
      exact bounded_le _
    omega
  have small : range.start.col ≤ Text.Numeral.maxWord32 :=
    Nat.le_trans (Nat.le_of_lt wellFormed.start.col) (by decide)
  have first : range.start.col ≤ col' := by
    refine Nat.le_trans (le_bounded ?_ small) becomes.firstColumn
    exact Nat.le_trans covers.left (Nat.le_add_right ..)
  refine range.covers_relocate (Nat.le_trans (firstRow_mono covers.top) becomes.firstRow)
    (Nat.le_trans becomes.lastRow (lastRow_mono covers.bottom)) ?_
    (Nat.le_trans becomes.lastColumn (lastColumn_le_grownRight wellFormed.stop.col covers))
    becomes.rowInside becomes.colInside
  rw [stays]
  exact first

/-- With nothing inserted a range does not grow. -/
theorem growRange_empty {range : CellRange} (wellFormed : range.WellFormed) :
    empty.growRange range = range := by
  rw [growRange, firstRow_empty wellFormed.start.row, lastRow_empty wellFormed.stop.row]
  exact CellRange.relocate_self wellFormed

theorem eq_empty_of_isEmpty (none : log.isEmpty = true) : log = .empty := by
  obtain ⟨⟨rows, _⟩, ⟨columns, _⟩⟩ := log
  obtain ⟨noRows, noColumns⟩ := Bool.and_eq_true_iff.mp none
  cases List.isEmpty_iff.mp noRows
  cases List.isEmpty_iff.mp noColumns
  rfl

end InsertionLog

/-! ## References to one range -/

/-- A reference of one word is adjusted as the range that it is read as. -/
theorem InsertionLog.adjustList_of_word (log : InsertionLog) {reference : String}
    {range : CellRange} (oneWord : (Text.words reference.toList).length = 1)
    (read : CellRange.read reference = .ok range) :
    log.adjustList reference = (log.growRange range).text := by
  obtain ⟨word, one⟩ := List.length_eq_one_iff.mp oneWord
  obtain ⟨trimmed, noBlank⟩ := Text.trim_of_words one
  have item : CellRange.readChars word = .ok range := by
    rw [← read, CellRange.read, CellRange.readChars, CellRange.readChars,
      Text.trim_of_none noBlank, trimmed]
  rw [adjustList, one, List.map_singleton, adjustItem, item]
  exact congrArg String.ofList (List.append_nil _)

section Dimension

variable {options : FillOptions} {data : Value} {table : StringTable} {template : Document}

/-- A part of the worksheet that is not its rows is adjusted if anything was inserted. -/
theorem child?_fillSheet {name : String} (other : name ≠ "sheetData") {part : Element}
    (found : template.root.child? name = some part) :
    (fillSheet options data table template).1.document.root.child? name =
      some (if (fillSheet options data table template).1.log.isEmpty then part
        else adjustPart options (fillSheet options data table template).1.log part) := by
  have adjusted (log : InsertionLog) (f : Element → Element)
      (keeps : ∀ child : Element, child.name = "sheetData" → (f child).name = "sheetData") :
      (if log.isEmpty then template.root.modifyChild "sheetData" f
        else (template.root.modifyChild "sheetData" f).mapElements
          (adjustPart options log)).child? name =
        some (if log.isEmpty then part else adjustPart options log part) := by
    have kept : (template.root.modifyChild "sheetData" f).child? name = some part := by
      rw [template.root.child?_modifyChild_of_ne other keeps, found]
    split
    · exact kept
    · rw [Element.child?_mapElements _ _ (name_adjustPart options log), kept]
      rfl
  exact adjusted (fillSheet options data table template).1.log _ fun _ same => same

/-- The dimension is adjusted if anything was inserted. -/
theorem child?_dimension_fillSheet (grow : options.growDimension = true) {dimension : Element}
    (found : template.root.child? "dimension" = some dimension) :
    (fillSheet options data table template).1.document.root.child? "dimension" =
      some (if (fillSheet options data table template).1.log.isEmpty then dimension
        else adjustAttr (fillSheet options data table template).1.log "ref" dimension) := by
  have named := List.find?_some found
  have adjusted (log : InsertionLog) :
      adjustPart options log dimension = adjustAttr log "ref" dimension :=
    if_pos ⟨eq_of_beq named, grow⟩
  rw [child?_fillSheet (by decide) found, adjusted]

/-- The dimension of a filled worksheet is the range that the dimension of the template grows to. -/
theorem read_dimension (grow : options.growDimension = true) {dimension : Element}
    (found : template.root.child? "dimension" = some dimension) {reference : String}
    (own : dimension.attr? "ref" = some reference)
    (oneWord : (Text.words reference.toList).length = 1) {range : CellRange}
    (read : CellRange.read reference = .ok range) :
    (((fillSheet options data table template).1.document.root.child? "dimension").bind
        (·.attr? "ref")).map CellRange.read =
      some (.ok ((fillSheet options data table template).1.log.growRange range)) := by
  rw [child?_dimension_fillSheet grow found, Option.bind_some]
  split
  · rename_i none
    rw [own, Option.map_some, read, InsertionLog.eq_empty_of_isEmpty none,
      InsertionLog.growRange_empty (CellRange.wellFormed_of_read read)]
  · simp only [adjustAttr, own, Element.attr?_setAttr_self, Option.map_some,
      InsertionLog.adjustList_of_word _ oneWord read]
    exact congrArg some (CellRange.read_text (CellRange.wellFormed_relocate ..))

/-- A range has the places of all cells of a worksheet. -/
def CoversCells (range : CellRange) (template : Document) : Prop :=
  ∀ row ∈ numberRows 1 (sheetRows template), ∀ cell ∈ numberCells 1 (rowCells row.2),
    range.Covers (row.1 - 1) (cell.1 - 1)

instance (range : CellRange) (template : Document) : Decidable (CoversCells range template) := by
  unfold CoversCells
  infer_instance

/-- Nothing is inserted left of the cells of a worksheet. -/
theorem columnsWhere_left {range : CellRange} (covers : CoversCells range template) (row : Nat) :
    (fillSheet options data table template).1.log.columnsWhere row (· < range.start.col) = 0 := by
  rw [log_fillSheet, columnsWhere_logRows]
  have none : (((planned table data (numberRows 1 (sheetRows template))).filter fun plan =>
      plan.number - 1 = row).flatMap (·.cells)).filter
        (fun cell => decide (cell.column - 1 < range.start.col)) = [] := by
    rw [List.filter_eq_nil_iff]
    intro cell mem
    obtain ⟨plan, inPlan, mem⟩ := List.mem_flatMap.mp mem
    obtain ⟨numbered, source, rfl⟩ := List.mem_map.mp (List.mem_filter.mp inPlan).1
    rw [cells_ofRow] at mem
    have column : cell.column ∈ (numberCells 1 (rowCells numbered.2)).map (·.1) := by
      rw [← map_column_placeCells 0]
      exact List.mem_map_of_mem mem
    obtain ⟨place, inRow, same⟩ := List.mem_map.mp column
    have left := (covers numbered source place inRow).left
    rw [same] at left
    simpa using left
  rw [none]
  rfl

/-- A copy of a row is not below the last one that the log counts. -/
theorem le_lastRow {log : InsertionLog} {row offset k : Nat}
    (first : log.firstRow row = InsertionLog.bounded (row + offset)) (copy : k ≤ log.extraRows row)
    (room : row + offset + k + 1 ≤ maxRows) : row + offset + k ≤ log.lastRow row := by
  have small : maxRows ≤ Text.Numeral.maxWord32 := by decide
  have moved : row + offset ≤ row + log.rows.sumWhere (· < row) := by
    rw [← bounded_of_le small room, ← first]
    exact InsertionLog.bounded_le _
  have sum := log.rows.sumWhere_le_eq row
  have extra : log.extraRows row = (log.rows.get? row).getD 0 := rfl
  exact InsertionLog.le_bounded (by omega) (by omega)

/-- Cells that are placed by a log have columns between those that it says. -/
theorem exists_column {first last placed : Nat} {written : List Element}
    (columns : written.map (·.attr? "r") =
      ((interval (first + 1) (last + 1)).filter (· ≤ maxColumns)).map
        fun column => some (CellAddress.label placed column))
    {cell : Element} (mem : cell ∈ written) :
    ∃ col, cell.attr? "r" = some (CellAddress.label placed (col + 1)) ∧
      first ≤ col ∧ col ≤ last ∧ col < maxColumns := by
  have address : cell.attr? "r" ∈ written.map (·.attr? "r") := List.mem_map_of_mem mem
  rw [columns] at address
  obtain ⟨column, within, same⟩ := List.mem_map.mp address
  obtain ⟨between, inside⟩ := List.mem_filter.mp within
  have room : column ≤ maxColumns := of_decide_eq_true inside
  obtain ⟨left, right⟩ := List.mem_range'_1.mp between
  have positive : column = column - 1 + 1 := by omega
  rw [positive] at same
  exact ⟨column - 1, same.symm, by omega, by omega, by omega⟩

/-- Every cell of a filled worksheet is at a place that a cell of the template becomes. -/
theorem exists_becomes (ordered : SheetInOrder template) {row : Element}
    (mem : row ∈ sheetRows (fillSheet options data table template).1.document) {cell : Element}
    (mem' : cell ∈ rowCells row) :
    ∃ source ∈ numberRows 1 (sheetRows template), ∃ place ∈ numberCells 1 (rowCells source.2),
      ∃ row' col', cell.attr? "r" = some (CellAddress.label (row' + 1) (col' + 1)) ∧
        (fillSheet options data table template).1.log.Becomes (source.1 - 1) (place.1 - 1)
          row' col' := by
  have trace := isTrace_fillTrace (.refl (fillSheet options data table template).2)
  rw [trace.writtenRows] at mem
  obtain ⟨traced, inTrace, isCopy⟩ := List.mem_flatMap.mp mem
  obtain ⟨copy, inCopies, rfl⟩ := List.mem_map.mp isCopy
  rw [trace.writtenCells traced inTrace copy inCopies] at mem'
  obtain ⟨became, inCopy, isWritten⟩ := List.mem_flatMap.mp mem'
  obtain ⟨before, after, number, e, split, rfl⟩ := mem_traceRows inTrace
  obtain ⟨k, inside, room, rfl⟩ := mem_copies_rowTrace inCopies
  have source : (number, e) ∈ numberRows 1 (sheetRows template) :=
    List.mem_iff_append.mpr ⟨before, after, split⟩
  obtain ⟨one, first, count, plans, finished⟩ := tracedRow options data table ordered split
  have columns := columns_traced plans (ordered.cells e (snd_mem_numberRows source)) finished
    inCopy
  obtain ⟨plan, inPlan, rfl⟩ := List.mem_map.mp inCopy
  obtain ⟨col', address, left, right, colInside⟩ := exists_column columns isWritten
  have numbered := (of_mem_planCells inPlan).1
  rw [Nat.zero_add] at room address
  have rowInside : number - 1 + extraCopies (planned table data before) + k + 1 ≤ maxRows := by
    omega
  have isRow : number + extraCopies (planned table data before) + k =
      number - 1 + extraCopies (planned table data before) + k + 1 := by omega
  rw [isRow] at address
  refine ⟨_, source, _, numbered, _, col', address, ?_⟩
  refine ⟨?_, le_lastRow first (by omega) rowInside, rowInside, left, right, colInside⟩
  rw [first]
  exact Nat.le_trans (InsertionLog.bounded_le _) (Nat.le_add_right ..)

/-- The dimension has all cells of a filled worksheet, if it is one range without blanks inside that
has all cells of the template. A worksheet whose numbers leave room for all insertions is filled. -/
theorem dimension_covers (options : FillOptions) (data : Value) (table : StringTable)
    (template : Document) (ordered : SheetInOrder template) (grow : options.growDimension = true)
    (dimension : Element) (found : template.root.child? "dimension" = some dimension)
    (reference : String) (own : dimension.attr? "ref" = some reference)
    (oneWord : (Text.words reference.toList).length = 1) (range : CellRange)
    (read : CellRange.read reference = .ok range)
    (covers : CoversCells range template) :
    (Room (planned table data (numberRows 1 (sheetRows template))) →
      (fillSheet? options data table template).isSome = true) ∧
    ∀ filled after, fillSheet? options data table template = some (filled, after) →
      ∃ grown, ((filled.document.root.child? "dimension").bind (·.attr? "ref")).map CellRange.read =
          some (.ok grown) ∧
        ∀ row ∈ sheetRows filled.document, ∀ cell ∈ rowCells row, ∃ address,
          (cell.attr? "r").map CellAddress.read = some (.ok address) ∧
            grown.Covers address.row address.col := by
  refine ⟨isSome_fillSheet?_of_room, ?_⟩
  intro filled after run
  obtain rfl := fst_fillSheet_of_fillSheet? run
  refine ⟨_, read_dimension grow found own oneWord read, fun row mem cell mem' => ?_⟩
  have wellFormed := CellRange.wellFormed_of_read read
  obtain ⟨source, inRows, place, inCells, row', col', address, becomes⟩ :=
    exists_becomes ordered mem mem'
  refine ⟨CellAddress.relative row' col', ?_, ?_⟩
  · rw [address, Option.map_some, CellAddress.read_label (Nat.succ_pos row') becomes.rowInside
      (Nat.succ_pos col') becomes.colInside]
    rfl
  · exact InsertionLog.covers_growRange wellFormed (columnsWhere_left covers) becomes
      (covers source inRows place inCells)

end Dimension

/-- A sheet with a sequence over columns, a table and a dimension that ends in the last row but one
and in the last column. -/
def measuredSheet (reference : String) : Document :=
  let text (s : String) : Node :=
    .element ⟨"c", [("t", "inlineStr")], [.element ⟨"is", [], [.element ⟨"t", [], [.text s]⟩]⟩]⟩
  let number (address : String) : Node :=
    .element ⟨"c", [("r", address)], [.element ⟨"v", [], [.text "7"]⟩]⟩
  ⟨none, ⟨"worksheet", [], [.element ⟨"dimension", [("ref", reference)], []⟩,
    .element ⟨"sheetData", [],
      [.element ⟨"row", [], [number "B1", text "${xs}", number "XFD1"]⟩,
        .element ⟨"row", [("r", "1048575")], [text "${table:items.name}", text "last"]⟩,
        .element ⟨"row", [], [number "C1"]⟩]⟩]⟩⟩

/-- The range of a whole sheet. -/
def wholeSheet : CellRange := ⟨⟨0, 0, false, false⟩, ⟨1048575, 16383, false, true⟩, false⟩

theorem dimension_covers_measuredSheet :
    let template := measuredSheet " a1:$XFD1048576"
    let table := StringTable.ofDocument none grownData
    let filled := fillSheet {} grownData table template
    SheetInOrder template ∧ (Text.words " a1:$XFD1048576".toList).length = 1 ∧
      CellRange.read " a1:$XFD1048576" = .ok wholeSheet ∧ CoversCells wholeSheet template ∧
      Room (planned table grownData (numberRows 1 (sheetRows template))) ∧
      fillSheet? {} grownData table template = some filled ∧
      ∃ grown, ((filled.1.document.root.child? "dimension").bind (·.attr? "ref")).map
            CellRange.read = some (.ok grown) ∧
        ∀ row ∈ sheetRows filled.1.document, ∀ cell ∈ rowCells row, ∃ address,
          (cell.attr? "r").map CellAddress.read = some (.ok address) ∧
            grown.Covers address.row address.col := by
  intro template table filled
  have ordered : SheetInOrder template := by decide +kernel
  have oneWord : (Text.words " a1:$XFD1048576".toList).length = 1 := by decide +kernel
  have read : CellRange.read " a1:$XFD1048576" = .ok wholeSheet := rfl
  have covers : CoversCells wholeSheet template := by decide +kernel
  have room : Room (planned table grownData (numberRows 1 (sheetRows template))) := by
    decide +kernel
  have run : fillSheet? {} grownData table template = some filled := fillSheet?_of_room room
  have covered := dimension_covers {} grownData table template ordered rfl _ rfl _ rfl oneWord
    wholeSheet read covers
  exact ⟨ordered, oneWord, read, covers, room, run, covered.2 filled.1 filled.2 run⟩

/-- A sheet whose dimension is written with blanks around the colon. -/
def spacedSheet : Document :=
  ⟨none, ⟨"worksheet", [], [.element ⟨"dimension", [("ref", "A1 : B1")], []⟩,
    .element ⟨"sheetData", [], [.element ⟨"row", [("r", "1")],
      [.element ⟨"c", [("r", "A1"), ("t", "inlineStr")],
          [.element ⟨"is", [], [.element ⟨"t", [], [.text "${xs}"]⟩]⟩]⟩,
        .element ⟨"c", [("r", "B1")], [.element ⟨"v", [], [.text "7"]⟩]⟩]⟩]⟩]⟩⟩

/-! ## Rows that need more than 32 bits -/

/-- A cell of a table. -/
def tableCell : Element :=
  ⟨"c", [("t", "inlineStr")],
    [.element ⟨"is", [], [.element ⟨"t", [], [.text "${table:xs}"]⟩]⟩]⟩

/-- A row of a table and nothing else. -/
def tableRow (attributes : List (String × String)) : Element :=
  ⟨"row", attributes, [.element tableCell]⟩

/-- Tables in the last 4096 rows of a sheet. -/
def crowdedSheet : Document :=
  ⟨none, ⟨"worksheet", [], [.element ⟨"dimension", [("ref", "A1:$XFD1048576")], []⟩,
    .element ⟨"sheetData", [], (tableRow [("r", "1044481")] ::
      List.replicate 4095 (tableRow [])).map Node.element⟩]⟩⟩

/-- A sequence of one element more than a sheet has rows. -/
def crowdedData : Value := .mapping [("xs", .sequence (List.replicate (maxRows + 1) .null))]

theorem numberRows_replicate {row : Element} (noNumber : rowNumber? row = none) (next n : Nat) :
    numberRows next (List.replicate n row) = (List.range' next n).map fun k => (k, row) := by
  induction n generalizing next with
  | zero => rfl
  | succ n ih =>
      rw [List.replicate_succ, numberRows, noNumber, Option.getD_none, ih]
      rfl

theorem sheetRows_crowdedSheet :
    sheetRows crowdedSheet = tableRow [("r", "1044481")] :: List.replicate 4095 (tableRow []) := by
  have elements : sheetElements crowdedSheet =
      tableRow [("r", "1044481")] :: List.replicate 4095 (tableRow []) :=
    Element.elements_children ..
  rw [sheetRows, elements, List.filter_eq_self]
  intro row mem
  rcases List.mem_cons.mp mem with rfl | mem
  · rfl
  · rw [List.eq_of_mem_replicate mem]
    rfl

/-- The rows of the crowded sheet are numbered up to the last row of a sheet. -/
theorem numberRows_crowdedSheet : numberRows 1 (sheetRows crowdedSheet) =
    (1044481, tableRow [("r", "1044481")]) ::
      (List.range' 1044482 4095).map fun k => (k, tableRow []) := by
  have own : rowNumber? (tableRow [("r", "1044481")]) = some 1044481 := by decide +kernel
  rw [sheetRows_crowdedSheet, numberRows, own, Option.getD_some, numberRows_replicate rfl]

theorem mem_numberRows_crowdedSheet {row : Nat × Element}
    (mem : row ∈ numberRows 1 (sheetRows crowdedSheet)) :
    0 < row.1 ∧ row.1 ≤ maxRows ∧ ∃ attributes, row.2 = tableRow attributes := by
  rw [numberRows_crowdedSheet] at mem
  rcases List.mem_cons.mp mem with rfl | mem
  · exact ⟨by decide, by decide, _, rfl⟩
  · obtain ⟨k, inside, rfl⟩ := List.mem_map.mp mem
    obtain ⟨first, last⟩ := List.mem_range'_1.mp inside
    have last : k < 1044482 + 4095 := last
    have rows : maxRows = 1048576 := rfl
    exact ⟨by omega, by omega, _, rfl⟩

/-- A row of a table becomes a row for each element of the sequence. -/
theorem copyCount_tableRow (table : StringTable) (items : List Value) (number : Nat)
    (attributes : List (String × String)) :
    (TemplateRow.ofRow table (.mapping [("xs", .sequence items)]) 0 number
      (tableRow attributes)).copyCount = Nat.max items.length 1 := by
  have sole : (Placeholder.sole? (((tableCell.child? "is").map visibleText).getD "")).map
      DataPath.read = some ⟨true, [.key "xs"]⟩ := by decide +kernel
  have plan : planCell table (.mapping [("xs", .sequence items)]) tableCell =
      (.down (items.map Value.cellContent?), tableCell) := by
    rw [planCell_path _ _ _ (show solePath? table tableCell = some _ from sole)]
    rfl
  have cells : (TemplateRow.ofRow table (.mapping [("xs", .sequence items)]) 0 number
      (tableRow attributes)).cells = [⟨1, 1, tableCell, .down (items.map Value.cellContent?)⟩] := by
    rw [cells_ofRow]
    show placeCells table _ 0 [(1, tableCell)] = _
    rw [placeCells, plan]
    rfl
  rw [TemplateRow.copyCount, cells]
  show Nat.max (items.map Value.cellContent?).length 1 = _
  rw [List.length_map]

theorem sheetInOrder_crowdedSheet : SheetInOrder crowdedSheet where
  rows := by
    rw [numberRows_crowdedSheet]
    refine List.pairwise_cons.mpr ⟨fun row mem => ?_, ?_⟩
    · obtain ⟨k, inside, rfl⟩ := List.mem_map.mp mem
      exact (List.mem_range'_1.mp inside).1
    · exact List.pairwise_map.mpr List.pairwise_lt_range'
  cells row mem := by
    rw [sheetRows_crowdedSheet] at mem
    have shape : ∃ attributes, row = tableRow attributes := by
      rcases List.mem_cons.mp mem with rfl | mem
      · exact ⟨_, rfl⟩
      · exact ⟨_, List.eq_of_mem_replicate mem⟩
    obtain ⟨attributes, rfl⟩ := shape
    exact List.pairwise_singleton _ _

theorem coversCells_crowdedSheet : CoversCells wholeSheet crowdedSheet := by
  intro row mem cell mem'
  obtain ⟨positive, inside, attributes, shape⟩ := mem_numberRows_crowdedSheet mem
  rw [shape] at mem'
  have only : cell = (1, tableCell) := List.mem_singleton.mp mem'
  have rows : maxRows = 1048576 := rfl
  rw [only]
  exact ⟨Nat.zero_le _, show row.1 - 1 ≤ 1048575 by omega, Nat.zero_le _, by decide⟩

/-- The rows that come on top of the crowded sheet need more than 32 bits. -/
theorem fillSheet?_crowdedSheet (options : FillOptions) (table : StringTable) :
    fillSheet? options crowdedData table crowdedSheet = none := by
  have each : ∀ row ∈ numberRows 1 (sheetRows crowdedSheet),
      (TemplateRow.ofRow table crowdedData 0 row.1 row.2).copyCount - 1 = maxRows := by
    intro row mem
    obtain ⟨-, -, attributes, shape⟩ := mem_numberRows_crowdedSheet mem
    rw [shape, crowdedData, copyCount_tableRow, List.length_replicate]
    rfl
  have total : extraCopies (planned table crowdedData (numberRows 1 (sheetRows crowdedSheet))) =
      4096 * maxRows := by
    have amounts : (planned table crowdedData (numberRows 1 (sheetRows crowdedSheet))).map
        (fun row => row.copyCount - 1) = List.replicate 4096 maxRows := by
      rw [planned, List.map_map]
      refine (List.map_congr_left each).trans ?_
      rw [List.map_const', numberRows_crowdedSheet, List.length_cons, List.length_map,
        List.length_range']
    rw [extraCopies, amounts, List.sum_replicate]
    rfl
  cases run : fillSheet? options crowdedData table crowdedSheet with
  | none => rfl
  | some result =>
      have small := extraCopies_of_fillSheet? run
      rw [total] at small
      exact absurd small (by decide)

/-- The words of a reference move on their own, so a range with blanks inside is a range no more once
a cell was inserted. And if too many rows come on top, then the worksheet is not filled, with any
dimension. -/
theorem dimension_not_covering :
    let table := StringTable.ofDocument none grownData
    let range : CellRange := ⟨⟨0, 0, false, false⟩, ⟨0, 1, false, false⟩, false⟩
    let filled := fillSheet {} grownData table spacedSheet
    (SheetInOrder spacedSheet ∧ CellRange.read "A1 : B1" = .ok range ∧
      CoversCells range spacedSheet ∧ fillSheet? {} grownData table spacedSheet = some filled ∧
      ¬ ∃ grown, ((filled.1.document.root.child? "dimension").bind (·.attr? "ref")).map
            CellRange.read = some (.ok grown) ∧
        ∀ row ∈ sheetRows filled.1.document, ∀ cell ∈ rowCells row, ∃ address,
          (cell.attr? "r").map CellAddress.read = some (.ok address) ∧
            grown.Covers address.row address.col) ∧
      SheetInOrder crowdedSheet ∧
      (∀ row ∈ numberRows 1 (sheetRows crowdedSheet), row.1 ≤ maxRows) ∧
      CellRange.read "A1:$XFD1048576" = .ok wholeSheet ∧ CoversCells wholeSheet crowdedSheet ∧
      fillSheet? {} crowdedData (.ofDocument none crowdedData) crowdedSheet = none := by
  intro table range filled
  refine ⟨?_, sheetInOrder_crowdedSheet, fun row mem => (mem_numberRows_crowdedSheet mem).2.1, rfl,
    coversCells_crowdedSheet, fillSheet?_crowdedSheet _ _⟩
  have ordered : SheetInOrder spacedSheet := by decide +kernel
  have covers : CoversCells range spacedSheet := by decide +kernel
  have room : Room (planned table grownData (numberRows 1 (sheetRows spacedSheet))) := by
    decide +kernel
  have log : filled.1.log = InsertionLog.empty.addCells 0 0 2 := by decide +kernel
  have words : (InsertionLog.empty.addCells 0 0 2).adjustList "A1 : B1" = "A1:C1 : D1" := by cbv
  refine ⟨ordered, rfl, covers, fillSheet?_of_room room, ?_⟩
  rintro ⟨grown, read, -⟩
  rw [child?_dimension_fillSheet rfl rfl, log] at read
  replace read : some (CellRange.read
      ((InsertionLog.empty.addCells 0 0 2).adjustList "A1 : B1")) = some (.ok grown) := read
  rw [words] at read
  cases read

end SheetFill
