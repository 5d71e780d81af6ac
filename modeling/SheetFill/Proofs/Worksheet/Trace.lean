import SheetFill.Proofs.Worksheet.Insertions
import SheetFill.Proofs.Worksheet.Written

/-!
# The trace of a filled sheet

A trace says what became of every row and cell of a template: for each row of the template the
copies of it that the filled sheet has, and for each copy and each cell of the template the cells
that it became there. A trace leaves nothing out and adds nothing (`IsTrace`): the rows and cells of
the template in order are those it starts from, and the rows and cells of the filled sheet in order
are those it ends in.

`fillTrace` is the trace of a filled sheet (`isTrace_fillTrace`). It reads the finished log and a
finished table of strings, and so each part of it can be looked at on its own.
-/

namespace SheetFill

open Xml

/-! ## Rows and cells of a sheet -/

/-- What stands between the rows' tags of a worksheet. -/
def sheetElements (d : Document) : List Element :=
  ((d.root.child? "sheetData").map Element.elements).getD []

/-- The rows of a worksheet. -/
def sheetRows (d : Document) : List Element := (sheetElements d).filter fun e => e.name == "row"

/-- The cells of a row. -/
def rowCells (row : Element) : List Element := row.elements.filter fun e => e.name == "c"

/-- The cells in the rows of a worksheet. -/
def sheetCells (d : Document) : List Element := (sheetRows d).flatMap rowCells

/-- Rows with their numbers; one without a number of its own is `next` or follows the row before
it. -/
def numberRows (next : Nat) : List Element → List (Nat × Element)
  | [] => []
  | row :: rows =>
      let number := (rowNumber? row).getD next
      (number, row) :: numberRows (number + 1) rows

/-! ## Traces -/

/-- What became of a cell of the template in one copy of its row. -/
structure CellTrace where
  /-- The column of the cell in the template, from one. -/
  column : Nat
  /-- The cell of the template. -/
  template : Element
  /-- The column that its first cell has in the filled sheet, if there is room for it. -/
  place : Nat
  /-- The cells that it became. -/
  written : List Element

/-- A copy of a row of the template. -/
structure CopyTrace where
  /-- Which copy it is, from zero. -/
  copy : Nat
  /-- The row of the filled sheet. -/
  written : Element
  /-- What became of the cells. -/
  cells : List CellTrace

/-- What became of a row of the template. -/
structure RowTrace where
  /-- The number of the row in the template, from one. -/
  number : Nat
  /-- The row of the template. -/
  template : Element
  /-- The number that its first copy has in the filled sheet, if there is room for it. -/
  first : Nat
  /-- The copies in the filled sheet. -/
  copies : List CopyTrace

/-- The trace accounts for every row and cell of the template and of the filled sheet, in order. -/
structure IsTrace (template filled : Document) (trace : List RowTrace) : Prop where
  /-- It starts from the rows of the template. -/
  rows : trace.map (fun row => (row.number, row.template)) = numberRows 1 (sheetRows template)
  /-- Each copy starts from the cells of its row. -/
  cells : ∀ row ∈ trace, ∀ copy ∈ row.copies,
    copy.cells.map (fun cell => (cell.column, cell.template)) =
      numberCells 1 (rowCells row.template)
  /-- It ends in the rows of the filled sheet. -/
  writtenRows : sheetRows filled = trace.flatMap fun row => row.copies.map (·.written)
  /-- Each copy ends in its cells. -/
  writtenCells : ∀ row ∈ trace, ∀ copy ∈ row.copies,
    rowCells copy.written = copy.cells.flatMap (·.written)

/-! ## The trace of a plan -/

/-- Numbered cells with their plans, the first of them moved `offset` columns to the right. -/
def planCells (table : StringTable) (data : Value) (offset : Nat) :
    List (Nat × Element) → List (Element × TemplateCell)
  | [] => []
  | (column, cell) :: cells =>
      let planned := planCell table data cell
      (cell, ⟨column, column + offset, planned.2, planned.1⟩) ::
        planCells table data (offset + planned.1.extraColumns) cells

theorem map_snd_planCells (table : StringTable) (data : Value) (offset : Nat)
    (cells : List (Nat × Element)) :
    (planCells table data offset cells).map (·.2) = placeCells table data offset cells := by
  induction cells generalizing offset with
  | nil => rfl
  | cons cell cells ih => exact congrArg _ (ih _)

theorem map_fst_planCells (table : StringTable) (data : Value) (offset : Nat)
    (cells : List (Nat × Element)) :
    (planCells table data offset cells).map (fun cell => (cell.2.column, cell.1)) = cells := by
  induction cells generalizing offset with
  | nil => rfl
  | cons cell cells ih => exact congrArg _ (ih _)

/-- A planned cell is one of the cells, with the plan of its element. -/
theorem of_mem_planCells {table : StringTable} {data : Value} {offset : Nat}
    {cells : List (Nat × Element)} {cell : Element × TemplateCell}
    (mem : cell ∈ planCells table data offset cells) :
    (cell.2.column, cell.1) ∈ cells ∧
      (cell.2.outcome, cell.2.template) = planCell table data cell.1 := by
  induction cells generalizing offset with
  | nil => cases mem
  | cons first cells ih =>
      rcases List.mem_cons.mp mem with rfl | mem
      · exact ⟨List.mem_cons_self .., rfl⟩
      · obtain ⟨source, plan⟩ := ih mem
        exact ⟨List.mem_cons_of_mem _ source, plan⟩

/-- The plans of numbered rows. -/
def planned (table : StringTable) (data : Value) (rows : List (Nat × Element)) :
    List TemplateRow := rows.map fun row => .ofRow table data 0 row.1 row.2

section Trace

variable (options : FillOptions) (data : Value) (table final : StringTable) (log : InsertionLog)

/-- What became of a planned cell in the copy of its row that has the given number. -/
def cellTrace (row copy number : Nat) (cell : Element × TemplateCell) : CellTrace :=
  ⟨cell.2.column, cell.1, cell.2.place,
    (placeCell options log row copy number cell.2).map (PlacedCell.xml final number)⟩

/-- A copy of a numbered row, with its number in the filled sheet. -/
def copyTrace (number : Nat) (row : Element) (copy placed : Nat) : CopyTrace :=
  ⟨copy, ((TemplateRow.ofRow table data 0 number row).copyRow options log copy placed).xml final,
    (planCells table data 0 (numberCells 1 (rowCells row))).map
      (cellTrace options final log number copy placed)⟩

/-- What became of a numbered row that is moved `offset` rows down. -/
def rowTrace (offset number : Nat) (row : Element) : RowTrace :=
  ⟨number, row, number + offset,
    ((List.range (TemplateRow.ofRow table data 0 number row).copyCount).filter
      fun copy => number + offset + copy ≤ maxRows).map
      fun copy => copyTrace options data table final log number row copy (number + offset + copy)⟩

/-- What became of numbered rows, the first of them moved `offset` rows down. -/
def traceRows (offset : Nat) : List (Nat × Element) → List RowTrace
  | [] => []
  | (number, row) :: rows =>
      rowTrace options data table final log offset number row ::
        traceRows (offset + ((TemplateRow.ofRow table data 0 number row).copyCount - 1)) rows

end Trace

/-- The trace of a filled sheet. The finished table may have texts of later sheets too. -/
def fillTrace (options : FillOptions) (data : Value) (table final : StringTable)
    (template : Document) : List RowTrace :=
  traceRows options data table final (fillSheet options data table template).1.log 0
    (numberRows 1 (sheetRows template))

/-! ## Names -/

theorem name_leaveGroup (cell : Element) : (leaveGroup cell).name = cell.name := by
  rw [leaveGroup]
  split
  · rfl
  · split
    · rfl
    · rfl

theorem name_firstFormula (log : InsertionLog) (cell : Element) :
    (firstFormula log cell).name = cell.name := by
  rw [firstFormula]
  split
  · rfl
  · rfl

theorem name_laterFormula (down right : Nat) (cell : Element) :
    (laterFormula down right cell).name = cell.name := by
  rw [laterFormula]
  split
  · exact name_leaveGroup cell
  · exact name_leaveGroup cell

theorem template_of_mem_spread {template : Element} {column : Nat}
    {contents : List (Option CellContent)} {placed : PlacedCell}
    (mem : placed ∈ spread template column contents) : placed.body.template = template := by
  induction contents generalizing column with
  | nil => cases mem
  | cons content contents ih =>
      rw [spread] at mem
      split at mem
      · cases mem
      · rcases List.mem_cons.mp mem with rfl | mem
        · rfl
        · exact ih mem

/-- A cell is made from a cell of the template as it is, or from its formula. -/
theorem template_of_mem_placeCell {options : FillOptions} {log : InsertionLog}
    {row copy number : Nat} {cell : TemplateCell} {placed : PlacedCell}
    (mem : placed ∈ placeCell options log row copy number cell) :
    placed.body.template = cell.template ∨
      ∃ base, (base = cell.template ∨ base = cell.template.removeChildren "v") ∧
        (placed.body.template = firstFormula log base ∨
          ∃ down right, placed.body.template = laterFormula down right base) := by
  rw [placeCell] at mem
  split at mem
  · cases mem
  · split at mem
    · rw [List.mem_singleton.mp mem]
      exact .inl rfl
    · rw [List.mem_singleton.mp mem]
      refine .inr ⟨if options.dropStoredResults then cell.template.removeChildren "v"
        else cell.template, ?_, ?_⟩
      · split
        · exact .inr rfl
        · exact .inl rfl
      · by_cases first : copy = 0
        · exact .inl (if_pos first)
        · exact .inr ⟨_, _, if_neg first⟩
    · rw [List.mem_singleton.mp mem]
      exact .inl rfl
    · rw [List.mem_singleton.mp mem]
      exact .inl rfl
    · exact .inl (template_of_mem_spread mem)
    · rw [List.mem_singleton.mp mem]
      exact .inl rfl

/-- The cells that a cell becomes have its name. -/
theorem name_of_mem_placeCell {options : FillOptions} {log : InsertionLog}
    {row copy number : Nat} {cell : TemplateCell} {placed : PlacedCell}
    (mem : placed ∈ placeCell options log row copy number cell) :
    placed.body.template.name = cell.template.name := by
  rcases template_of_mem_placeCell mem with same | ⟨base, source, made⟩
  · rw [same]
  · have named : base.name = cell.template.name := by
      rcases source with rfl | rfl
      · rfl
      · rfl
    rcases made with same | ⟨down, right, same⟩
    · rw [same, name_firstFormula, named]
    · rw [same, name_laterFormula, named]

/-- A planned cell is that of the template, but for an inline text that is filled in. -/
theorem template_planCell (table : StringTable) (data : Value) (cell : Element) :
    (planCell table data cell).2 = cell ∨
      ∃ text, (planCell table data cell).2 = setInlineText cell text := by
  rw [planCell]
  split
  · exact .inl rfl
  · split
    · split
      · exact .inl rfl
      · exact .inl rfl
    · split
      · dsimp only
        split
        · exact .inl rfl
        · dsimp only
          split
          · exact .inr ⟨_, rfl⟩
          · exact .inl rfl
      · exact .inl rfl

theorem name_planCell (table : StringTable) (data : Value) (cell : Element) :
    (planCell table data cell).2.name = cell.name := by
  rcases template_planCell table data cell with same | ⟨text, same⟩
  · rw [same]
  · rw [same]
    rfl

/-! ## The trace of a filled sheet -/

section Trace

variable {options : FillOptions} {data : Value} {table final : StringTable} {log : InsertionLog}
  {template : Document}

theorem cells_ofRow (offset number : Nat) (row : Element) :
    (TemplateRow.ofRow table data offset number row).cells =
      placeCells table data offset (numberCells 1 (rowCells row)) := by
  rw [TemplateRow.ofRow, List.partition_eq_filter_filter]
  rfl

theorem others_ofRow (table : StringTable) (data : Value) (offset number : Nat) (row : Element) :
    (TemplateRow.ofRow table data offset number row).trailing =
      row.elements.filter fun e => e.name != "c" := by
  rw [TemplateRow.ofRow, List.partition_eq_filter_filter]
  rfl

theorem trailing_ofRow (offset number : Nat) (row : Element) :
    ∀ e ∈ (TemplateRow.ofRow table data offset number row).trailing, (e.name == "c") = false := by
  intro e mem
  rw [others_ofRow] at mem
  simpa using (List.mem_filter.mp mem).2

theorem snd_mem_numberCells {next : Nat} {cells : List Element} {cell : Nat × Element}
    (mem : cell ∈ numberCells next cells) : cell.2 ∈ cells := by
  induction cells generalizing next with
  | nil => cases mem
  | cons first cells ih =>
      rcases List.mem_cons.mp mem with rfl | mem
      · exact List.mem_cons_self ..
      · exact List.mem_cons_of_mem _ (ih mem)

theorem cells_copyRow (number : Nat) (row : Element) (copy placed : Nat) :
    ((TemplateRow.ofRow table data 0 number row).copyRow options log copy placed).cells =
      (planCells table data 0 (numberCells 1 (rowCells row))).flatMap
        fun cell => placeCell options log number copy placed cell.2 := by
  show (TemplateRow.ofRow table data 0 number row).cells.flatMap _ = _
  rw [cells_ofRow, ← map_snd_planCells, List.flatMap_map]
  rfl

/-- Every cell that is placed in a copy of a row is named like the cells of the row. -/
theorem name_of_mem_copyRow {number : Nat} {row : Element} {copy placed : Nat} {cell : PlacedCell}
    (mem : cell ∈ ((TemplateRow.ofRow table data 0 number row).copyRow options log copy
      placed).cells) :
    (cell.xml final placed).name = "c" := by
  rw [cells_copyRow] at mem
  obtain ⟨planned, source, mem⟩ := List.mem_flatMap.mp mem
  obtain ⟨source, plan⟩ := of_mem_planCells source
  have named := (List.mem_filter.mp (snd_mem_numberCells source)).2
  rw [PlacedCell.name_xml, name_of_mem_placeCell mem]
  have kept := name_planCell table data planned.1
  rw [← plan] at kept
  exact kept.trans (eq_of_beq named)

section CopyRow

variable (number : Nat) (row : Element) (copy placed : Nat)

theorem elements_copyRow :
    (((TemplateRow.ofRow table data 0 number row).copyRow options log copy placed).xml
        final).elements =
      ((TemplateRow.ofRow table data 0 number row).copyRow options log copy placed).cells.map
          (PlacedCell.xml final placed) ++ row.elements.filter fun e => e.name != "c" := by
  rw [← others_ofRow table data 0 number row, PlacedRow.xml, Element.elements_children]
  rfl

/-- The cells of a written copy are those that were placed in it. -/
theorem rowCells_copyRow :
    rowCells (((TemplateRow.ofRow table data 0 number row).copyRow options log copy placed).xml
        final) =
      ((TemplateRow.ofRow table data 0 number row).copyRow options log copy placed).cells.map
        (PlacedCell.xml final placed) := by
  have cells : (((TemplateRow.ofRow table data 0 number row).copyRow options log copy
      placed).cells.map (PlacedCell.xml final placed)).filter (fun e => e.name == "c") =
      ((TemplateRow.ofRow table data 0 number row).copyRow options log copy
        placed).cells.map (PlacedCell.xml final placed) := by
    rw [List.filter_eq_self]
    intro e mem
    obtain ⟨cell, source, rfl⟩ := List.mem_map.mp mem
    exact beq_of_eq (name_of_mem_copyRow source)
  rw [rowCells, elements_copyRow, List.filter_append, cells, List.filter_filter]
  simp

/-- The other elements of a written copy are those of the row. -/
theorem others_copyRow :
    (((TemplateRow.ofRow table data 0 number row).copyRow options log copy placed).xml
        final).elements.filter (fun e => e.name != "c") =
      row.elements.filter fun e => e.name != "c" := by
  have noCells : (((TemplateRow.ofRow table data 0 number row).copyRow options log copy
      placed).cells.map (PlacedCell.xml final placed)).filter (fun e => e.name != "c") = [] := by
    rw [List.filter_eq_nil_iff]
    intro e mem
    obtain ⟨cell, source, rfl⟩ := List.mem_map.mp mem
    simp [name_of_mem_copyRow source]
  rw [elements_copyRow, List.filter_append, noCells, List.nil_append, List.filter_filter]
  simp

/-- The cells of a written copy are what the cells of the template became there. -/
theorem rowCells_copyTrace :
    rowCells (copyTrace options data table final log number row copy placed).written =
      (copyTrace options data table final log number row copy placed).cells.flatMap
        (·.written) := by
  show rowCells (((TemplateRow.ofRow table data 0 number row).copyRow options log copy
    placed).xml final) = List.flatMap _ (List.map _ _)
  rw [rowCells_copyRow, cells_copyRow, List.map_flatMap, List.flatMap_map]
  rfl

end CopyRow

/-! ### The rows of the document -/

theorem map_traceRows (offset : Nat) (rows : List (Nat × Element)) :
    (traceRows options data table final log offset rows).map
      (fun row => (row.number, row.template)) = rows := by
  induction rows generalizing offset with
  | nil => rfl
  | cons row rows ih => exact congrArg _ (ih _)

theorem name_adjustPart (options : FillOptions) (log : InsertionLog) (e : Element) :
    (adjustPart options log e).name = e.name := by
  have attr : ∀ key, (adjustAttr log key e).name = e.name := by
    intro key
    rw [adjustAttr]
    split
    · rfl
    · rfl
  rw [adjustPart]
  repeat' split
  all_goals first | exact attr _ | rfl

theorem adjustPart_sheetData (options : FillOptions) (log : InsertionLog) {e : Element}
    (name : e.name = "sheetData") : adjustPart options log e = e := by
  rw [adjustPart, name]
  rw [if_neg (fun both => absurd both.1 (by decide))]
  split
  · rfl
  · rfl

/-- Moving ranges leaves the rows alone. -/
theorem child?_sheetData_adjusted (options : FillOptions) (log : InsertionLog) (root : Element) :
    (if log.isEmpty then root else root.mapElements (adjustPart options log)).child? "sheetData" =
      root.child? "sheetData" := by
  split
  · rfl
  · rw [Element.child?_mapElements _ _ (name_adjustPart options log)]
    cases found : root.child? "sheetData" with
    | none => rfl
    | some e =>
        have named := List.find?_some found
        exact congrArg some (adjustPart_sheetData options log (eq_of_beq named))

/-- The elements of the rows of a filled worksheet are the placed ones. -/
theorem sheetElements_fillSheet (later : (fillSheet options data table template).2.GrowsTo final) :
    sheetElements (fillSheet options data table template).1.document =
      (SheetItem.layout options (fillSheet options data table template).1.log 0
        (planRows table data 1 (sheetElements template))).map (PlacedItem.xml final) := by
  obtain ⟨written, -⟩ := writeItems_eq later
  refine Eq.trans ?_ written
  show Option.getD (Option.map Element.elements (Element.child? (ite _ _ _) "sheetData")) [] = _
  rw [child?_sheetData_adjusted, Element.child?_modifyChild]
  · cases found : template.root.child? "sheetData" with
    | none => rfl
    | some e => exact Element.elements_children ..
  · intro e same
    exact same

theorem filter_row {e : Element} (isRow : e.name = "row") (rest : List Element) :
    (e :: rest).filter (fun e => e.name == "row") = e :: rest.filter fun e => e.name == "row" :=
  List.filter_cons_of_pos (beq_of_eq isRow)

theorem filter_other {e : Element} (other : ¬ e.name = "row") (rest : List Element) :
    (e :: rest).filter (fun e => e.name == "row") = rest.filter fun e => e.name == "row" :=
  List.filter_cons_of_neg fun same => other (eq_of_beq same)

/-- The placed rows are the copies of the rows of the template. -/
theorem filter_layout (offset next : Nat) (elements : List Element) :
    ((SheetItem.layout options log offset (planRows table data next elements)).map
        (PlacedItem.xml final)).filter (fun e => e.name == "row") =
      (traceRows options data table final log offset
        (numberRows next (elements.filter fun e => e.name == "row"))).flatMap
        fun row => row.copies.map (·.written) := by
  induction elements generalizing offset next with
  | nil => rfl
  | cons e rest ih =>
      by_cases isRow : e.name = "row"
      · have kept : ∀ placed : List PlacedRow,
            ((placed.map PlacedItem.row).map (PlacedItem.xml final)).filter
              (fun e => e.name == "row") = placed.map (PlacedRow.xml final) := by
          intro placed
          rw [List.map_map, List.filter_eq_self.mpr]
          · rfl
          · intro e mem
            obtain ⟨row, -, rfl⟩ := List.mem_map.mp mem
            rfl
        rw [planRows, if_pos isRow, SheetItem.layout, List.map_append, List.filter_append, ih,
          kept, filter_row isRow, numberRows, traceRows, List.flatMap_cons, rowTrace, TemplateRow.copies,
          List.map_map, List.map_map]
        rfl
      · rw [planRows, if_neg isRow, filter_other isRow, ← ih]
        exact filter_other isRow _

/-- A row of a trace is moved by what the rows before it have grown by. -/
theorem mem_traceRows {offset : Nat} {rows : List (Nat × Element)} {row : RowTrace}
    (mem : row ∈ traceRows options data table final log offset rows) :
    ∃ before after number e, rows = before ++ (number, e) :: after ∧
      row = rowTrace options data table final log
        (offset + extraCopies (planned table data before)) number e := by
  induction rows generalizing offset with
  | nil => cases mem
  | cons first rows ih =>
      rcases List.mem_cons.mp mem with rfl | mem
      · exact ⟨[], rows, first.1, first.2, rfl, rfl⟩
      · obtain ⟨before, after, number, e, split, same⟩ := ih mem
        refine ⟨first :: before, after, number, e, congrArg (first :: ·) split, ?_⟩
        rw [same, Nat.add_assoc]
        rfl

theorem mem_copies_rowTrace {offset number : Nat} {row : Element} {copy : CopyTrace}
    (mem : copy ∈ (rowTrace options data table final log offset number row).copies) :
    ∃ k, k < (TemplateRow.ofRow table data 0 number row).copyCount ∧
      number + offset + k ≤ maxRows ∧
      copy = copyTrace options data table final log number row k (number + offset + k) := by
  obtain ⟨k, kept, rfl⟩ := List.mem_map.mp mem
  obtain ⟨inside, room⟩ := List.mem_filter.mp kept
  exact ⟨k, List.mem_range.mp inside, of_decide_eq_true room, rfl⟩

theorem getElem?_cells_copyTrace {number copy placed i : Nat} {row : Element} {cell : CellTrace}
    (found : (copyTrace options data table final log number row copy placed).cells[i]? =
      some cell) :
    ∃ plan, (planCells table data 0 (numberCells 1 (rowCells row)))[i]? = some plan ∧
      cellTrace options final log number copy placed plan = cell := by
  rw [← Option.map_eq_some_iff, ← List.getElem?_map]
  exact found

theorem filterMap_map_row (rows : List PlacedRow) :
    (rows.map PlacedItem.row).filterMap PlacedItem.row? = rows := by
  rw [List.filterMap_map]
  exact List.filterMap_some

/-- The copies of a row are among the placed rows. -/
theorem copyRow_mem_layout {offset next : Nat} {elements : List Element}
    {before after : List (Nat × Element)} {number k : Nat} {e : Element}
    (split : numberRows next (elements.filter fun e => e.name == "row") =
      before ++ (number, e) :: after)
    (inside : k < (TemplateRow.ofRow table data 0 number e).copyCount)
    (room : number + (offset + extraCopies (planned table data before)) + k ≤ maxRows) :
    (TemplateRow.ofRow table data 0 number e).copyRow options log k
        (number + (offset + extraCopies (planned table data before)) + k) ∈
      (SheetItem.layout options log offset (planRows table data next elements)).filterMap
        PlacedItem.row? := by
  induction elements generalizing offset next before with
  | nil => cases before <;> cases split
  | cons x rest ih =>
      by_cases isRow : x.name = "row"
      · rw [filter_row isRow, numberRows] at split
        rw [planRows, if_pos isRow, SheetItem.layout, List.filterMap_append, filterMap_map_row]
        cases before with
        | nil =>
            obtain ⟨same, -⟩ := List.cons.inj split
            cases same
            refine List.mem_append_left _ (List.mem_map.mpr ⟨k, ?_, rfl⟩)
            exact List.mem_filter.mpr ⟨List.mem_range.mpr inside, decide_eq_true room⟩
        | cons first before =>
            obtain ⟨rfl, tail⟩ := List.cons.inj split
            have moved : offset + extraCopies (planned table data
                (((rowNumber? x).getD next, x) :: before)) =
                offset + ((TemplateRow.ofRow table data 0 ((rowNumber? x).getD next) x).copyCount -
                  1) + extraCopies (planned table data before) := (Nat.add_assoc ..).symm
            rw [moved] at room ⊢
            exact List.mem_append_right _ (ih tail room)
      · rw [filter_other isRow] at split
        rw [planRows, if_neg isRow]
        exact ih split room

/-- The texts of all copies are in the finished table. -/
theorem stored_copyRow (later : (fillSheet options data table template).2.GrowsTo final)
    {before after : List (Nat × Element)} {number k : Nat} {e : Element}
    (split : numberRows 1 (sheetRows template) = before ++ (number, e) :: after)
    (inside : k < (TemplateRow.ofRow table data 0 number e).copyCount)
    (room : number + (0 + extraCopies (planned table data before)) + k ≤ maxRows) :
    ∀ cell ∈ ((TemplateRow.ofRow table data 0 number e).copyRow options
        (fillSheet options data table template).1.log k
        (number + (0 + extraCopies (planned table data before)) + k)).cells,
      cell.Stored final :=
  (writeItems_eq later).2 _ (copyRow_mem_layout split inside room)

/-- And so are the texts of the cells that a cell becomes. -/
theorem stored_placeCell (later : (fillSheet options data table template).2.GrowsTo final)
    {before after : List (Nat × Element)} {number k : Nat} {e : Element}
    (split : numberRows 1 (sheetRows template) = before ++ (number, e) :: after)
    (inside : k < (TemplateRow.ofRow table data 0 number e).copyCount)
    (room : number + (0 + extraCopies (planned table data before)) + k ≤ maxRows)
    {cell : Element × TemplateCell}
    (source : cell ∈ planCells table data 0 (numberCells 1 (rowCells e))) :
    ∀ placed ∈ placeCell options (fillSheet options data table template).1.log number k
      (number + (0 + extraCopies (planned table data before)) + k) cell.2,
      placed.Stored final := by
  intro placed mem
  refine stored_copyRow later split inside room placed ?_
  rw [cells_copyRow]
  exact List.mem_flatMap.mpr ⟨cell, source, mem⟩

/-- The trace of a filled sheet accounts for all that is in it. -/
theorem isTrace_fillTrace (later : (fillSheet options data table template).2.GrowsTo final) :
    IsTrace template (fillSheet options data table template).1.document
      (fillTrace options data table final template) where
  rows := map_traceRows 0 _
  cells := by
    intro row mem copy mem'
    obtain ⟨before, after, number, e, -, rfl⟩ := mem_traceRows mem
    obtain ⟨k, -, -, rfl⟩ := mem_copies_rowTrace mem'
    show List.map _ (List.map _ _) = _
    rw [List.map_map]
    exact map_fst_planCells table data 0 _
  writtenRows := by
    rw [sheetRows, sheetElements_fillSheet later]
    exact filter_layout 0 1 _
  writtenCells := by
    intro row mem copy mem'
    obtain ⟨before, after, number, e, -, rfl⟩ := mem_traceRows mem
    obtain ⟨k, -, -, rfl⟩ := mem_copies_rowTrace mem'
    exact rowCells_copyTrace number e k _

end Trace

end SheetFill
