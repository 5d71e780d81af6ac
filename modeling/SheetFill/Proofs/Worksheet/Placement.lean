import SheetFill.Proofs.Worksheet.Trace

/-!
# Rows and cells stand where the log says

Rows and cells are placed with offsets that grow from row to row and from cell to cell. References
are moved with sums over the log, once it is finished. In a sheet whose rows and cells stand in
order the two agree for every row and cell, up to the limits of a sheet (`fillSheet_places`): the
offset of a row is the sum over the log before it (`firstRow_traced`), and so is the offset of a
cell in its row (`columns_traced`).
-/

namespace SheetFill

open Xml

/-! ## Sheets in order -/

/-- The numbers of the rows increase, and so do the columns of the cells of each row. -/
structure SheetInOrder (template : Document) : Prop where
  /-- The rows are in order. -/
  rows : (numberRows 1 (sheetRows template)).Pairwise fun a b => a.1 < b.1
  /-- The cells of each row are in order. -/
  cells : ∀ row ∈ sheetRows template,
    (numberCells 1 (rowCells row)).Pairwise fun a b => a.1 < b.1

instance (template : Document) : Decidable (SheetInOrder template) :=
  decidable_of_iff ((numberRows 1 (sheetRows template)).Pairwise (fun a b => a.1 < b.1) ∧
      ∀ row ∈ sheetRows template, (numberCells 1 (rowCells row)).Pairwise fun a b => a.1 < b.1)
    ⟨fun h => ⟨h.1, h.2⟩, fun h => ⟨h.rows, h.cells⟩⟩

theorem numberRows_positive {next : Nat} (positive : 1 ≤ next) (rows : List Element) :
    ∀ row ∈ numberRows next rows, 1 ≤ row.1 := by
  induction rows generalizing next with
  | nil =>
      intro row mem
      cases mem
  | cons first rows ih =>
      have number : 1 ≤ (rowNumber? first).getD next := by
        cases found : rowNumber? first with
        | none => exact positive
        | some n => exact of_decide_eq_true (Option.filter_eq_some_iff.mp found).2
      intro row mem
      rcases List.mem_cons.mp mem with rfl | mem
      · exact number
      · exact ih (Nat.le_add_left ..) row mem

theorem numberCells_positive {next : Nat} (positive : 1 ≤ next) (cells : List Element) :
    ∀ cell ∈ numberCells next cells, 1 ≤ cell.1 := by
  induction cells generalizing next with
  | nil =>
      intro cell mem
      cases mem
  | cons first cells ih =>
      have column : 1 ≤ (cellColumn? first).getD next := by
        rw [cellColumn?]
        split
        · exact Nat.le_add_left ..
        · exact positive
      intro cell mem
      rcases List.mem_cons.mp mem with rfl | mem
      · exact column
      · exact ih (Nat.le_add_left ..) cell mem

theorem snd_mem_numberRows {next : Nat} {rows : List Element} {row : Nat × Element}
    (mem : row ∈ numberRows next rows) : row.2 ∈ rows := by
  induction rows generalizing next with
  | nil => cases mem
  | cons first rows ih =>
      rcases List.mem_cons.mp mem with rfl | mem
      · exact List.mem_cons_self ..
      · exact List.mem_cons_of_mem _ (ih mem)

/-! ## The log of the plan -/

section Log

variable {options : FillOptions} {data : Value} {table final : StringTable} {template : Document}

theorem rows_planRows (next : Nat) (elements : List Element) :
    (planRows table data next elements).filterMap SheetItem.row? =
      planned table data (numberRows next (elements.filter fun e => e.name == "row")) := by
  induction elements generalizing next with
  | nil => rfl
  | cons e rest ih =>
      by_cases isRow : e.name = "row"
      · rw [planRows, if_pos isRow, filter_row isRow]
        exact congrArg _ (ih _)
      · rw [planRows, if_neg isRow, filter_other isRow]
        exact ih next

theorem log_fillSheet :
    (fillSheet options data table template).1.log =
      logRows .empty (planned table data (numberRows 1 (sheetRows template))) :=
  congrArg (logRows .empty) (rows_planRows 1 _)

theorem inOrder_planned (table : StringTable) (data : Value) {rows : List (Nat × Element)}
    (increasing : rows.Pairwise fun a b => a.1 < b.1) (positive : ∀ row ∈ rows, 1 ≤ row.1) :
    InOrder TemplateRow.number (planned table data rows) where
  increasing := List.pairwise_map.mpr increasing
  positive := by
    intro plan mem
    obtain ⟨row, source, rfl⟩ := List.mem_map.mp mem
    exact positive row source

theorem map_column_placeCells (offset : Nat) (cells : List (Nat × Element)) :
    (placeCells table data offset cells).map TemplateCell.column = cells.map (·.1) := by
  induction cells generalizing offset with
  | nil => rfl
  | cons cell cells ih => exact congrArg _ (ih _)

theorem inOrder_placeCells (table : StringTable) (data : Value) (offset : Nat)
    {cells : List (Nat × Element)}
    (increasing : cells.Pairwise fun a b => a.1 < b.1) (positive : ∀ cell ∈ cells, 1 ≤ cell.1) :
    InOrder TemplateCell.column (placeCells table data offset cells) where
  increasing := by
    have sorted : ((placeCells table data offset cells).map TemplateCell.column).Pairwise
        (· < ·) := by
      rw [map_column_placeCells]
      exact List.pairwise_map.mpr increasing
    exact List.pairwise_map.mp sorted
  positive := by
    intro plan mem
    have column : plan.column ∈ cells.map (·.1) := by
      rw [← map_column_placeCells offset cells]
      exact List.mem_map_of_mem mem
    obtain ⟨cell, source, same⟩ := List.mem_map.mp column
    rw [← same]
    exact positive cell source

end Log

/-! ## Limits -/

theorem bounded_add_le_iff {limit n k : Nat} (small : limit ≤ Text.Numeral.maxWord32) :
    InsertionLog.bounded n + k + 1 ≤ limit ↔ n + k + 1 ≤ limit := by
  rw [InsertionLog.bounded]
  split
  · exact Iff.rfl
  · omega

theorem bounded_of_le {limit n k : Nat} (small : limit ≤ Text.Numeral.maxWord32)
    (inside : n + k + 1 ≤ limit) : InsertionLog.bounded n = n := by
  rw [InsertionLog.bounded, if_pos]
  omega

/-- The numbers from one to another. -/
def interval (first last : Nat) : List Nat := List.range' first (last + 1 - first)

theorem filter_range'_le (limit first count : Nat) :
    (List.range' first count).filter (· ≤ limit) =
      List.range' first (min count (limit + 1 - first)) := by
  induction count generalizing first with
  | zero => simp
  | succ count ih =>
      rw [List.range'_succ, List.filter_cons, ih]
      by_cases inside : first ≤ limit
      · have count' : min (count + 1) (limit + 1 - first) =
            min count (limit + 1 - (first + 1)) + 1 := by omega
        rw [if_pos (decide_eq_true inside), count', List.range'_succ]
      · have none : min count (limit + 1 - (first + 1)) = 0 := by omega
        have none' : min (count + 1) (limit + 1 - first) = 0 := by omega
        rw [if_neg (by simpa using inside), none, none']
        rfl

/-- Cutting off at the largest of 32 bits is not seen below a limit that is less. -/
theorem filter_interval_bounded {limit : Nat} (small : limit ≤ Text.Numeral.maxWord32)
    (first extra : Nat) :
    (interval (InsertionLog.bounded first + 1)
        (InsertionLog.bounded (first + extra) + 1)).filter (· ≤ limit) =
      (interval (first + 1) (first + 1 + extra)).filter (· ≤ limit) := by
  rw [interval, interval, filter_range'_le, filter_range'_le]
  by_cases inside : first ≤ Text.Numeral.maxWord32
  · have same : InsertionLog.bounded first = first := if_pos inside
    have last : InsertionLog.bounded (first + extra) = first + extra ∨
        limit ≤ InsertionLog.bounded (first + extra) ∧ limit ≤ first + extra := by
      rw [InsertionLog.bounded]
      split
      · exact Or.inl rfl
      · omega
    rw [same]
    congr 1
    omega
  · have far : InsertionLog.bounded first = Text.Numeral.maxWord32 := if_neg inside
    have none : min (InsertionLog.bounded (first + extra) + 1 + 1 -
        (InsertionLog.bounded first + 1)) (limit + 1 - (InsertionLog.bounded first + 1)) = 0 := by
      omega
    have none' : min (first + 1 + extra + 1 - (first + 1)) (limit + 1 - (first + 1)) = 0 := by
      omega
    rw [none, none']
    rfl

/-! ## Rows -/

section Rows

variable {options : FillOptions} {data : Value} {table final : StringTable} {log : InsertionLog}
  {before after : List (Nat × Element)} {number : Nat} {e : Element}

theorem planned_split :
    planned table data (before ++ (number, e) :: after) =
      planned table data before ++ .ofRow table data 0 number e :: planned table data after := by
  rw [planned, List.map_append, List.map_cons]
  rfl

/-- The rows in front of a row have moved it by what the log says. -/
theorem firstRow_traced (rows : (before ++ (number, e) :: after).Pairwise fun a b => a.1 < b.1)
    (positive : ∀ row ∈ before ++ (number, e) :: after, 1 ≤ row.1)
    (finished : log = logRows .empty (planned table data (before ++ (number, e) :: after))) :
    log.firstRow (number - 1) =
        InsertionLog.bounded (number - 1 + extraCopies (planned table data before)) ∧
      log.extraRows (number - 1) + 1 = (TemplateRow.ofRow table data 0 number e).copyCount := by
  have ordered := inOrder_planned table data rows positive
  rw [planned_split] at ordered finished
  have extra : (logRows .empty (planned table data before ++
      .ofRow table data 0 number e :: planned table data after)).extraRows (number - 1) =
      (TemplateRow.ofRow table data 0 number e).copyCount - 1 := extraRows_logRows_self ordered
  have some := (TemplateRow.ofRow table data 0 number e).one_le_copyCount
  rw [finished]
  refine ⟨firstRow_logRows ordered, ?_⟩
  rw [extra, Nat.sub_add_cancel some]

/-- A row of the template with the rows before and after it, and what the finished log says of
it. -/
structure TracedRow (data : Value) (table : StringTable) (log : InsertionLog)
    (before : List (Nat × Element)) (number : Nat) (e : Element)
    (after : List (Nat × Element)) : Prop where
  /-- Rows are counted from one. -/
  one : 1 ≤ number
  /-- The rows before it have moved it. -/
  first : log.firstRow (number - 1) =
    InsertionLog.bounded (number - 1 + extraCopies (planned table data before))
  /-- Its copies. -/
  count : log.extraRows (number - 1) + 1 = (TemplateRow.ofRow table data 0 number e).copyCount
  /-- The plans of all rows are in order. -/
  plans : InOrder TemplateRow.number
    (planned table data before ++ .ofRow table data 0 number e :: planned table data after)
  /-- The log is that of the plans. -/
  finished : log = logRows .empty
    (planned table data before ++ .ofRow table data 0 number e :: planned table data after)

theorem tracedRow (options : FillOptions) (data : Value) (table : StringTable)
    {template : Document} (ordered : SheetInOrder template)
    (split : numberRows 1 (sheetRows template) = before ++ (number, e) :: after) :
    TracedRow data table (fillSheet options data table template).1.log before number e after := by
  have rows := ordered.rows
  have positive := numberRows_positive (Nat.le_refl 1) (sheetRows template)
  have finished : (fillSheet options data table template).1.log =
      logRows .empty (planned table data _) := log_fillSheet
  rw [split] at rows positive finished
  obtain ⟨first, count⟩ := firstRow_traced rows positive finished
  have plans := inOrder_planned table data rows positive
  rw [planned_split] at plans finished
  exact ⟨positive _ (List.mem_append_right _ (List.mem_cons_self ..)), first, count, plans, finished⟩

/-- The copies of a row are those that the log has room for, and they stand where it says. -/
theorem copies_rowTrace {offset : Nat} (one : 1 ≤ number)
    (first : log.firstRow (number - 1) = InsertionLog.bounded (number - 1 + offset))
    (count : log.extraRows (number - 1) + 1 = (TemplateRow.ofRow table data 0 number e).copyCount) :
    (rowTrace options data table final log offset number e).copies.map
        (fun copy => (copy.copy, copy.written.attr? "r")) =
      ((List.range (log.extraRows (number - 1) + 1)).filter
          fun k => log.firstRow (number - 1) + k + 1 ≤ maxRows).map
        fun k => (k, some (Text.Numeral.text (log.firstRow (number - 1) + k + 1))) := by
  have small : maxRows ≤ Text.Numeral.maxWord32 := by decide
  have same : ∀ k, number + offset + k = number - 1 + offset + k + 1 := by
    intro k
    omega
  have room : (fun k => decide (log.firstRow (number - 1) + k + 1 ≤ maxRows)) =
      fun k => decide (number + offset + k ≤ maxRows) := by
    funext k
    rw [first, same k, decide_eq_decide]
    exact bounded_add_le_iff small
  rw [count, room, rowTrace, List.map_map]
  refine List.map_congr_left fun k mem => ?_
  have inside := of_decide_eq_true (List.mem_filter.mp mem).2
  rw [same k] at inside
  rw [first, bounded_of_le small inside, ← same k]
  exact congrArg (k, ·) (PlacedRow.attr?_xml final _)

end Rows

/-! ## Cells -/

section Cells

variable {options : FillOptions} {data : Value} {table final : StringTable} {log : InsertionLog}

/-- A planned cell is moved by what the cells before it have grown by. -/
theorem split_of_mem_planCells {offset : Nat} {cells : List (Nat × Element)}
    {cell : Element × TemplateCell} (mem : cell ∈ planCells table data offset cells) :
    ∃ left right, placeCells table data offset cells = left ++ cell.2 :: right ∧
      cell.2.place = cell.2.column + (offset + extraCells left) := by
  induction cells generalizing offset with
  | nil => cases mem
  | cons first cells ih =>
      rcases List.mem_cons.mp mem with rfl | mem
      · exact ⟨[], _, rfl, rfl⟩
      · obtain ⟨left, right, split, place⟩ := ih mem
        refine ⟨_ :: left, right, congrArg (List.cons _) split, ?_⟩
        rw [place, Nat.add_assoc]
        rfl

theorem map_column_spread (template : Element) (column : Nat)
    (contents : List (Option CellContent)) :
    (spread template column contents).map PlacedCell.column =
      (List.range' column contents.length).filter (· ≤ maxColumns) := by
  induction contents generalizing column with
  | nil => rfl
  | cons content contents ih =>
      rw [spread, List.length_cons, List.range'_succ]
      split
      · rename_i far
        have none : (column :: List.range' (column + 1) contents.length).filter
            (· ≤ maxColumns) = [] := by
          rw [← List.range'_succ, filter_range'_le]
          have none : min (contents.length + 1) (maxColumns + 1 - column) = 0 := by omega
          rw [none]
          rfl
        rw [none]
        rfl
      · rename_i near
        have inside : column ≤ maxColumns := Nat.le_of_not_lt near
        rw [List.map_cons, ih, List.filter_cons, if_pos (decide_eq_true inside)]

/-- A cell becomes the cells from its place on that are within the limits of a sheet. -/
theorem map_column_placeCell (row copy number : Nat) (cell : TemplateCell) :
    (placeCell options log row copy number cell).map PlacedCell.column =
      (interval cell.place (cell.place + cell.outcome.extraColumns)).filter (· ≤ maxColumns) := by
  obtain ⟨column, place, template, outcome⟩ := cell
  rw [placeCell]
  split
  · rename_i beyond
    have far : maxColumns < place := beyond
    have none : min (place + outcome.extraColumns + 1 - place) (maxColumns + 1 - place) = 0 := by
      omega
    rw [interval, filter_range'_le, none]
    rfl
  · rename_i near
    have inside : place ≤ maxColumns := Nat.le_of_not_lt near
    have one : (interval place place).filter (· ≤ maxColumns) = [place] := by
      rw [interval, Nat.add_sub_cancel_left]
      exact List.filter_cons_of_pos (decide_eq_true inside)
    cases outcome with
    | kept => exact one.symm
    | formula => exact one.symm
    | one content => exact one.symm
    | down contents => exact one.symm
    | across contents =>
        cases contents with
        | nil => exact one.symm
        | cons content contents =>
            have count : place + contents.length + 1 - place = (content :: contents).length := by
              rw [Nat.add_assoc, Nat.add_sub_cancel_left, List.length_cons]
            refine (map_column_spread template place (content :: contents)).trans ?_
            show _ = (interval place (place + contents.length)).filter _
            rw [interval, count]

/-- Every cell of a copy has a column of the sheet. -/
theorem column_of_mem_copyRow {number copy placed : Nat} {row : Element} {cell : PlacedCell}
    (mem : cell ∈ ((TemplateRow.ofRow table data 0 number row).copyRow options log copy
      placed).cells) : 0 < cell.column ∧ cell.column ≤ maxColumns := by
  rw [cells_copyRow] at mem
  obtain ⟨planned, source, mem⟩ := List.mem_flatMap.mp mem
  obtain ⟨left, right, -, place⟩ := split_of_mem_planCells source
  have positive := numberCells_positive (Nat.le_refl 1) (rowCells row) _ (of_mem_planCells source).1
  have column : cell.column ∈
      (placeCell options log number copy placed planned.2).map PlacedCell.column :=
    List.mem_map_of_mem mem
  rw [map_column_placeCell] at column
  obtain ⟨after, inside⟩ := List.mem_filter.mp column
  have first : planned.2.place ≤ cell.column := (List.mem_range'_1.mp after).1
  exact ⟨by omega, of_decide_eq_true inside⟩

/-- The cells in front of a cell have moved it by what the log says. -/
theorem columns_planned {before after : List TemplateRow} {row : Element} {number : Nat}
    (rows : InOrder TemplateRow.number
      (before ++ TemplateRow.ofRow table data 0 number row :: after))
    (cells : (numberCells 1 (rowCells row)).Pairwise fun a b => a.1 < b.1)
    (finished : log = logRows .empty (before ++ .ofRow table data 0 number row :: after))
    {plan : Element × TemplateCell}
    (source : plan ∈ planCells table data 0 (numberCells 1 (rowCells row))) :
    ∃ col, plan.2.place = col + 1 ∧ plan.2.column ≤ plan.2.place ∧
      log.firstColumn (number - 1) (plan.2.column - 1) = InsertionLog.bounded col ∧
      log.lastColumn (number - 1) (plan.2.column - 1) =
        InsertionLog.bounded (col + plan.2.outcome.extraColumns) := by
  obtain ⟨left, right, split, place⟩ := split_of_mem_planCells source
  have ordered := inOrder_placeCells table data 0 cells
    (numberCells_positive (Nat.le_refl 1) (rowCells row))
  rw [split] at ordered
  have inRow : (TemplateRow.ofRow table data 0 number row).cells = left ++ plan.2 :: right :=
    (cells_ofRow 0 number row).trans split
  have one : 1 ≤ plan.2.column :=
    ordered.positive _ (List.mem_append_right _ (List.mem_cons_self ..))
  refine ⟨plan.2.column - 1 + extraCells left, by omega, by omega, ?_, ?_⟩
  · rw [finished]
    exact firstColumn_logRows rows inRow ordered
  · rw [finished]
    exact lastColumn_logRows rows inRow ordered

/-- The cells that a cell became stand where the log says. -/
theorem columns_traced {before after : List TemplateRow} {row : Element} {number copy placed : Nat}
    (rows : InOrder TemplateRow.number
      (before ++ TemplateRow.ofRow table data 0 number row :: after))
    (cells : (numberCells 1 (rowCells row)).Pairwise fun a b => a.1 < b.1)
    (finished : log = logRows .empty (before ++ .ofRow table data 0 number row :: after))
    {cell : CellTrace}
    (mem : cell ∈ (copyTrace options data table final log number row copy placed).cells) :
    cell.written.map (·.attr? "r") =
      ((interval (log.firstColumn (number - 1) (cell.column - 1) + 1)
          (log.lastColumn (number - 1) (cell.column - 1) + 1)).filter (· ≤ maxColumns)).map
        fun column => some (CellAddress.label placed column) := by
  obtain ⟨plan, source, rfl⟩ := List.mem_map.mp mem
  obtain ⟨col, start, -, first, last⟩ := columns_planned rows cells finished source
  have small : maxColumns ≤ Text.Numeral.maxWord32 := by decide
  show List.map _ (List.map (PlacedCell.xml final placed) _) =
    List.map _ (List.filter _ (interval (log.firstColumn (number - 1) (plan.2.column - 1) + 1)
      (log.lastColumn (number - 1) (plan.2.column - 1) + 1)))
  rw [first, last, filter_interval_bounded small, ← start, ← map_column_placeCell, List.map_map,
    List.map_map]
  exact List.map_congr_left fun c _ => PlacedCell.attr?_xml final placed c

end Cells

/-! ## Sheets -/

/-- The copies of a row and the cells that its cells became stand where a log says: the row has all
copies that the log counts and the sheet has room for, and each cell became the cells from its first
to its last column that the sheet has room for. -/
structure PlacedBy (log : InsertionLog) (row : RowTrace) : Prop where
  /-- The copies and their numbers. -/
  copies : row.copies.map (fun copy => (copy.copy, copy.written.attr? "r")) =
    ((List.range (log.extraRows (row.number - 1) + 1)).filter
        fun k => log.firstRow (row.number - 1) + k + 1 ≤ maxRows).map
      fun k => (k, some (Text.Numeral.text (log.firstRow (row.number - 1) + k + 1)))
  /-- The cells of a copy and their addresses. -/
  cells : ∀ copy ∈ row.copies, ∀ cell ∈ copy.cells, cell.written.map (·.attr? "r") =
    ((interval (log.firstColumn (row.number - 1) (cell.column - 1) + 1)
        (log.lastColumn (row.number - 1) (cell.column - 1) + 1)).filter (· ≤ maxColumns)).map
      fun column => some
        (CellAddress.label (log.firstRow (row.number - 1) + copy.copy + 1) column)

/-- Every row of a trace stands where the finished log says, and so do its cells. -/
theorem placedBy_of_mem_fillTrace {options : FillOptions} {data : Value} {table final : StringTable}
    {template : Document} (ordered : SheetInOrder template) {row : RowTrace}
    (mem : row ∈ fillTrace options data table final template) :
    PlacedBy (fillSheet options data table template).1.log row := by
  obtain ⟨before, after, number, e, split, rfl⟩ := mem_traceRows mem
  obtain ⟨one, first, count, plans, finished⟩ := tracedRow options data table ordered split
  have source : e ∈ sheetRows template :=
    snd_mem_numberRows (List.mem_iff_append.mpr ⟨before, after, split⟩)
  rw [Nat.zero_add]
  refine ⟨copies_rowTrace one first count, fun copy mem cell mem' => ?_⟩
  obtain ⟨k, -, room, rfl⟩ := mem_copies_rowTrace mem
  -- The log counts from zero and stops at the limit, which no copy lies beyond.
  have row : (fillSheet options data table template).1.log.firstRow (number - 1) + k + 1 =
      number + extraCopies (planned table data before) + k := by
    have inside : number - 1 + extraCopies (planned table data before) + k + 1 ≤ maxRows := by
      omega
    rw [first, bounded_of_le (by decide) inside]
    omega
  have columns := columns_traced plans (ordered.cells e source) finished mem'
  rw [← row] at columns
  exact columns

/-- Rows and cells of a filled sheet stand where its finished log says, and there are no others. -/
theorem fillSheet_places (options : FillOptions) (data : Value) (table : StringTable)
    (template : Document) (ordered : SheetInOrder template) :
    let filled := fillSheet options data table template
    let trace := fillTrace options data table filled.2 template
    IsTrace template filled.1.document trace ∧ ∀ row ∈ trace, PlacedBy filled.1.log row :=
  ⟨isTrace_fillTrace (.refl _), fun _ mem => placedBy_of_mem_fillTrace ordered mem⟩

/-- A sheet with a sequence over columns, a table of two rows and cells without addresses. -/
def grownSheet : Document :=
  let text (s : String) : Node :=
    .element ⟨"c", [("t", "inlineStr")], [.element ⟨"is", [], [.element ⟨"t", [], [.text s]⟩]⟩]⟩
  let number (address : String) : Node :=
    .element ⟨"c", [("r", address)], [.element ⟨"v", [], [.text "7"]⟩]⟩
  ⟨none, ⟨"worksheet", [], [.element ⟨"sheetData", [],
    [.element ⟨"row", [], [number "B1", text "${xs}", text "last"]⟩,
      .element ⟨"row", [("r", "16383")], [text "${table:items.name}", number "XFD16383"]⟩,
      .element ⟨"row", [], [text "${xs}", number "XFC1"]⟩]⟩]⟩⟩

def grownData : Value :=
  .mapping [("xs", .sequence [.text "a", .text "b", .text "c"]),
    ("items", .sequence [.mapping [("name", .text "p")], .mapping [("name", .text "q")]])]

theorem fillSheet_places_grownSheet :
    let filled := fillSheet {} grownData (.ofDocument none grownData) grownSheet
    SheetInOrder grownSheet ∧ filled.1.log.firstRow 16383 = 16384 ∧
      ∀ row ∈ fillTrace {} grownData (.ofDocument none grownData) filled.2 grownSheet,
        PlacedBy filled.1.log row := by
  have ordered : SheetInOrder grownSheet := by decide +kernel
  have grown : (fillSheet {} grownData (.ofDocument none grownData) grownSheet).1.log.firstRow
      16383 = 16384 := by decide +kernel
  exact ⟨ordered, grown, (fillSheet_places {} grownData _ grownSheet ordered).2⟩

end SheetFill
