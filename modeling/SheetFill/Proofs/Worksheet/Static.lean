import SheetFill.Proofs.InsertionLog.Positions
import SheetFill.Proofs.Reference.RoundTrip
import SheetFill.Proofs.Worksheet.Copies
import SheetFill.Proofs.Worksheet.Shown
import SheetFill.Proofs.Worksheet.Sums

/-!
# Worksheets without placeholders

A cell without a placeholder is static. A worksheet of static cells that have the addresses of their
places is taken apart and put together again like any other one, whatever the data are. What comes
out is the same worksheet with its rows tidied (`fillSheet_static`): between the tags of the rows
there are only elements, cells come first in each row, and formulas have lost their stored results
if these are dropped.

The addresses matter. A cell takes the row of its address from the row that it stands in, and a
range is written with its corners in order (`fillSheet_misplacedSheet`).
-/

namespace SheetFill

open Xml

/-! ## Static cells -/

/-- The text of an inline cell, as it is planned. -/
def inlineText (cell : Element) : String := ((cell.child? "is").map visibleText).getD ""

/-- The range of a formula is written as it would be written again, if it can be read. -/
def RangeSettled (cell : Element) : Prop :=
  ∀ reference range, (cell.child? "f").bind (·.attr? "ref") = some reference →
    CellRange.read reference = .ok range → range.text = reference

instance (cell : Element) : Decidable (RangeSettled cell) :=
  decidable_of_iff (∀ reference ∈ (cell.child? "f").bind (·.attr? "ref"),
    ∀ range ∈ (CellRange.read reference).toOption, range.text = reference) <| by
      refine ⟨fun h reference range own read => h reference own range ?_,
        fun h reference own range read => h reference range own ?_⟩
      · rw [read]
        rfl
      · cases found : CellRange.read reference with
        | ok range' =>
            rw [found] at read
            exact congrArg Except.ok (Option.some.inj read)
        | error e =>
            rw [found] at read
            cases read

/-- A cell without a placeholder. What is in a cell with a formula besides its range does not
matter. -/
structure Static (table : StringTable) (cell : Element) : Prop where
  /-- Its whole text is not one placeholder, in the cell or in the entry that it points to. -/
  noPath : solePath? table cell = none
  /-- It has no placeholder in a text of its own. -/
  noText : cell.hasChild "f" = false → cell.attr? "t" = some "inlineStr" →
    Placeholder.occursIn (inlineText cell) = false
  /-- The range of its formula is written as it would be written again. -/
  range : cell.hasChild "f" = true → RangeSettled cell

instance (table : StringTable) (cell : Element) : Decidable (Static table cell) :=
  decidable_of_iff (solePath? table cell = none ∧
    (cell.hasChild "f" = false → cell.attr? "t" = some "inlineStr" →
      Placeholder.occursIn (inlineText cell) = false) ∧
    (cell.hasChild "f" = true → RangeSettled cell))
    ⟨fun h => ⟨h.1, h.2.1, h.2.2⟩, fun h => ⟨h.noPath, h.noText, h.range⟩⟩

/-- A cell has the address of a place in a row. -/
def AddressedIn (row : Nat) (cell : Element) : Prop :=
  ∃ column, 0 < column ∧ column ≤ maxColumns ∧ cell.attr? "r" = some (CellAddress.label row column)

/-- A row of static cells with their addresses, at the number of a row of a sheet. -/
def StaticRow (table : StringTable) (row : Element) : Prop :=
  ∃ number, 0 < number ∧ number ≤ maxRows ∧ row.attr? "r" = some (Text.Numeral.text number) ∧
    ∀ cell ∈ rowCells row, AddressedIn number cell ∧ Static table cell

/-! ## Tidy rows -/

/-- A cell whose formula has lost its stored result, if that is dropped. -/
def tidyCell (options : FillOptions) (cell : Element) : Element :=
  if cell.hasChild "f" then formulaTemplate options cell else cell

/-- A row of tidy cells, with the other elements after them. -/
def tidyRow (options : FillOptions) (row : Element) : Element :=
  { row with children := ((rowCells row).map (tidyCell options) ++
      row.elements.filter fun e => e.name != "c").map Node.element }

/-- An element among the rows, tidy if it is a row. -/
def tidyItem (options : FillOptions) (e : Element) : Element :=
  if e.name = "row" then tidyRow options e else e

/-- A worksheet with tidy rows. -/
def tidySheet (options : FillOptions) (template : Document) : Document :=
  { template with root := template.root.modifyChild "sheetData" fun sheetData =>
      { sheetData with
        children := (sheetData.elements.map (tidyItem options)).map Node.element } }

section Cells

variable (options : FillOptions) (data : Value) {table : StringTable} (final : StringTable)
  {cell : Element} {number : Nat}

/-- A kept cell is planned as it is, but for the placeholders of an inline text. -/
theorem planCell_eq_kept (noFormula : cell.hasChild "f" = false)
    (noPath : solePath? table cell = none) :
    planCell table data cell = (.kept,
      if cell.attr? "t" = some "inlineStr" ∧ Placeholder.occursIn (inlineText cell) = true then
        setInlineText cell (data.fill (inlineText cell)) else cell) := by
  refine Prod.ext (planCell_kept table data cell noFormula noPath) ?_
  rw [solePath?, noFormula, if_neg Bool.false_ne_true] at noPath
  rw [planCell, noFormula, if_neg Bool.false_ne_true]
  by_cases isShared : cell.attr? "t" = some "s"
  · have notInline : ¬ (cell.attr? "t" = some "inlineStr" ∧
        Placeholder.occursIn (inlineText cell) = true) := by
      rw [isShared]
      simp
    rw [if_pos isShared, if_neg notInline]
    split <;> rfl
  · rw [if_neg isShared] at noPath ⊢
    by_cases isInline : cell.attr? "t" = some "inlineStr"
    · rw [if_pos isInline] at noPath
      have noBody := Option.map_eq_none_iff.mp noPath
      simp only [noBody, isInline, true_and]
      rfl
    · rw [if_neg isInline, if_neg fun both => isInline both.1]

/-- A static cell is planned as it is. -/
theorem planCell_static (static : Static table cell) :
    planCell table data cell = (if cell.hasChild "f" then .formula else .kept, cell) := by
  cases formula : cell.hasChild "f" with
  | true => exact planCell_formula table data cell formula
  | false =>
      rw [planCell_eq_kept data formula static.noPath, if_neg]
      · rfl
      · rintro ⟨isInline, occurs⟩
        rw [static.noText formula isInline] at occurs
        cases occurs

/-- With nothing inserted a range stays where it is. -/
theorem followRange_empty {range : CellRange} (wellFormed : range.WellFormed) :
    InsertionLog.empty.followRange range = range := by
  rw [InsertionLog.followRange, InsertionLog.firstRow_empty wellFormed.start.row,
    InsertionLog.firstRow_empty wellFormed.stop.row]
  exact CellRange.relocate_self wellFormed

theorem firstFormula_empty (range : RangeSettled cell) : firstFormula .empty cell = cell := by
  rw [firstFormula]
  cases found : formulaRange? cell with
  | none => rfl
  | some r =>
      obtain ⟨reference, own, read⟩ := Option.bind_eq_some_iff.mp found
      obtain ⟨f, isFormula, ref⟩ := Option.bind_eq_some_iff.mp own
      have ok : CellRange.read reference = .ok r := by
        cases result : CellRange.read reference with
        | ok r' =>
            rw [result] at read
            exact congrArg Except.ok (Option.some.inj read)
        | error e =>
            rw [result] at read
            cases read
      dsimp only
      rw [followRange_empty (CellRange.wellFormed_of_read ok), setFormulaRange,
        range reference r own ok]
      refine Element.modifyChild_of_fixed fun child first => ?_
      rw [isFormula] at first
      cases first
      exact Element.setAttr_of_attr? ref

theorem rangeSettled_formulaTemplate (range : RangeSettled cell) :
    RangeSettled (formulaTemplate options cell) := by
  rwa [RangeSettled, child?_f_formulaTemplate]

/-- A cell with an address has the column of the address. -/
theorem cellColumn?_of_addressed (positive : 0 < number) (room : number ≤ maxRows)
    (addressed : AddressedIn number cell) :
    ∃ column, column ≤ maxColumns ∧ cell.attr? "r" = some (CellAddress.label number column) ∧
      cellColumn? cell = some column := by
  obtain ⟨column, one, inside, address⟩ := addressed
  refine ⟨column, inside, address, ?_⟩
  rw [cellColumn?, address, Option.map_some, CellAddress.read_label positive room one inside]
  exact congrArg some (Nat.sub_add_cancel one)

/-- A static cell is one cell where it is. -/
theorem placeCell_static (positive : 0 < number) (room : number ≤ maxRows)
    (addressed : AddressedIn number cell) (static : Static table cell) :
    ∃ column, cellColumn? cell = some column ∧
      (planCell table data cell).1.extraColumns = 0 ∧ (planCell table data cell).1.rowCount = 0 ∧
      (placeCell options .empty number 0 number ⟨column, column, (planCell table data cell).2,
        (planCell table data cell).1⟩).map (PlacedCell.xml final number) =
          [tidyCell options cell] := by
  obtain ⟨column, inside, address, own⟩ := cellColumn?_of_addressed positive room addressed
  refine ⟨column, own, ?_⟩
  rw [planCell_static data static, placeCell, if_neg (Nat.not_lt.mpr inside), tidyCell]
  cases formula : cell.hasChild "f" with
  | false => exact ⟨rfl, rfl, congrArg ([·]) (Element.setAttr_of_attr? address)⟩
  | true =>
      have range := rangeSettled_formulaTemplate options (static.range formula)
      have kept := (attr?_formulaTemplate options cell "r").trans address
      refine ⟨rfl, rfl, congrArg ([·]) ?_⟩
      show (firstFormula .empty (formulaTemplate options cell)).setAttr "r" _ = _
      rw [firstFormula_empty range]
      exact Element.setAttr_of_attr? kept

/-- Static cells are placed where they are. -/
theorem placeCells_static (positive : 0 < number) (room : number ≤ maxRows)
    {cells : List Element} (static : ∀ cell ∈ cells, AddressedIn number cell ∧ Static table cell)
    (next : Nat) :
    (∀ cell ∈ placeCells table data 0 (numberCells next cells),
      cell.outcome.extraColumns = 0 ∧ cell.outcome.rowCount = 0) ∧
    ((placeCells table data 0 (numberCells next cells)).flatMap
      (placeCell options .empty number 0 number)).map (PlacedCell.xml final number) =
        cells.map (tidyCell options) := by
  induction cells generalizing next with
  | nil => simp [numberCells, placeCells]
  | cons cell cells ih =>
      rw [List.forall_mem_cons] at static
      obtain ⟨column, found, noColumns, noRows, placed⟩ :=
        placeCell_static options data final positive room static.1.1 static.1.2
      obtain ⟨still, rest⟩ := ih static.2 (column + 1)
      simp only [numberCells, found, Option.getD_some, placeCells, noColumns, Nat.add_zero]
      refine ⟨List.forall_mem_cons.mpr ⟨⟨noColumns, noRows⟩, still⟩, ?_⟩
      rw [List.flatMap_cons, List.map_append, placed, rest]
      rfl

end Cells

/-! ## Static rows -/

/-- A row of a plan that becomes nothing more. -/
def TemplateRow.Still (row : TemplateRow) : Prop :=
  ∀ cell ∈ row.cells, cell.outcome.extraColumns = 0 ∧ cell.outcome.rowCount = 0

namespace TemplateRow

variable {row : TemplateRow}

theorem Still.copyCount (still : row.Still) : row.copyCount = 1 := by
  rw [TemplateRow.copyCount, List.foldr_map]
  refine foldr_of_fixed fun cell mem => ?_
  rw [(still cell mem).2]
  rfl

theorem Still.extraColumns (still : row.Still) : row.extraColumns = 0 := by
  rw [TemplateRow.extraColumns, List.foldr_map]
  exact foldr_of_fixed fun cell mem => (Nat.add_zero _).trans (still cell mem).1

theorem Still.logInsertions (still : row.Still) (log : InsertionLog) :
    row.logInsertions log = log := by
  have noColumns : row.logColumns log = log := by
    refine foldl_of_fixed fun cell mem => ?_
    rw [(still cell mem).1]
    rfl
  rw [TemplateRow.logInsertions, noColumns, still.copyCount]
  rfl

/-- A row that becomes nothing more is one copy, if the sheet has room for it. -/
theorem Still.copies (still : row.Still) (room : row.number ≤ maxRows) (options : FillOptions)
    (log : InsertionLog) : row.copies options log 0 = [row.copyRow options log 0 row.number] := by
  have one : (List.range 1).filter (fun copy => row.number + 0 + copy ≤ maxRows) = [0] :=
    List.filter_cons_of_pos (decide_eq_true room)
  rw [TemplateRow.copies, still.copyCount]
  exact congrArg (List.map _) one

end TemplateRow

/-- Nothing comes on top of rows that become nothing more. -/
theorem extraCopies_still {plans : List TemplateRow} (still : ∀ row ∈ plans, row.Still) :
    extraCopies plans = 0 := by
  refine List.sum_eq_zero fun n mem => ?_
  obtain ⟨row, inPlan, rfl⟩ := List.mem_map.mp mem
  exact congrArg (· - 1) (still row inPlan).copyCount

/-- Nothing comes on top of their cells. -/
theorem extraCells_still {plans : List TemplateRow} (still : ∀ row ∈ plans, row.Still)
    {cells : List TemplateCell} (inside : ∀ cell ∈ cells, ∃ row ∈ plans, cell ∈ row.cells) :
    extraCells cells = 0 := by
  refine List.sum_eq_zero fun n mem => ?_
  obtain ⟨cell, found, rfl⟩ := List.mem_map.mp mem
  obtain ⟨row, inPlan, inRow⟩ := inside cell found
  exact (still row inPlan cell inRow).1

/-- Rows of a sheet that become nothing more have room. -/
theorem room_still {plans : List TemplateRow} (still : ∀ row ∈ plans, row.Still)
    (rows : ∀ row ∈ plans, row.number ≤ maxRows)
    (cells : ∀ row ∈ plans, ∀ cell ∈ row.cells, cell.column ≤ maxColumns) : Room plans := by
  have smallRows : maxRows < Text.Numeral.maxWord32 := by decide
  have smallColumns : maxColumns < Text.Numeral.maxWord32 := by decide
  have noRows := extraCopies_still still
  constructor
  · intro row mem
    rw [noRows]
    exact Nat.lt_of_le_of_lt (rows row mem) smallRows
  · rw [noRows]
    exact Nat.le_of_lt smallRows
  · intro row mem cell mem'
    rw [extraCells_still still fun cell mem' => ⟨row, mem, mem'⟩]
    exact Nat.lt_of_le_of_lt (cells row mem cell mem') smallColumns
  · intro row _
    rw [extraCells_still still fun cell mem => ?_]
    · exact Nat.le_of_lt smallColumns
    · obtain ⟨other, mem, mem'⟩ := List.mem_flatMap.mp mem
      exact ⟨other, (List.mem_filter.mp mem).1, mem'⟩

section Rows

variable {options : FillOptions} (data : Value) {table : StringTable} (final : StringTable)
  {number : Nat} {row : Element}

theorem rowNumber?_of_text (positive : 0 < number) (room : number ≤ maxRows)
    (own : row.attr? "r" = some (Text.Numeral.text number)) : rowNumber? row = some number := by
  have small : maxRows ≤ Text.Numeral.maxWord32 := by decide
  rw [rowNumber?, own, Option.bind_some, Text.Numeral.text, String.toList_ofList,
    Text.Numeral.unsigned?_write (Nat.le_trans room small), Option.filter_some,
    if_pos (decide_eq_true positive)]

/-- A static row is planned to become nothing more. -/
theorem StaticRow.still (static : StaticRow table row) (number : Nat) :
    (TemplateRow.ofRow table data 0 number row).Still := by
  obtain ⟨own, positive, room, -, cells⟩ := static
  intro cell mem
  rw [cells_ofRow] at mem
  exact (placeCells_static {} data table positive room cells 1).1 cell mem

theorem fst_numberCells_le (positive : 0 < number) (room : number ≤ maxRows) {cells : List Element}
    (addressed : ∀ cell ∈ cells, AddressedIn number cell) (next : Nat) :
    ∀ cell ∈ numberCells next cells, cell.1 ≤ maxColumns := by
  induction cells generalizing next with
  | nil =>
      intro cell mem
      cases mem
  | cons first cells ih =>
      rw [List.forall_mem_cons] at addressed
      obtain ⟨column, inside, -, own⟩ := cellColumn?_of_addressed positive room addressed.1
      rw [numberCells, own]
      exact List.forall_mem_cons.mpr ⟨inside, ih addressed.2 (column + 1)⟩

theorem fst_numberRows_le {rows : List Element} (static : ∀ row ∈ rows, StaticRow table row)
    (next : Nat) : ∀ row ∈ numberRows next rows, row.1 ≤ maxRows := by
  induction rows generalizing next with
  | nil =>
      intro row mem
      cases mem
  | cons first rows ih =>
      rw [List.forall_mem_cons] at static
      obtain ⟨number, positive, room, written, -⟩ := static.1
      rw [numberRows, rowNumber?_of_text positive room written]
      exact List.forall_mem_cons.mpr ⟨room, ih static.2 (number + 1)⟩

/-- Static rows have room. -/
theorem room_static {rows : List Element} (static : ∀ row ∈ rows, StaticRow table row) :
    Room (planned table data (numberRows 1 rows)) := by
  refine room_still ?_ ?_ ?_
  all_goals
    intro plan mem
    obtain ⟨numbered, source, rfl⟩ := List.mem_map.mp mem
    have staticRow := static numbered.2 (snd_mem_numberRows source)
  · exact staticRow.still data numbered.1
  · exact fst_numberRows_le static 1 numbered source
  · intro cell mem
    obtain ⟨number, positive, room, -, cells⟩ := staticRow
    have columns : (placeCells table data 0 (numberCells 1 (rowCells numbered.2))).map
        TemplateCell.column = (numberCells 1 (rowCells numbered.2)).map (·.1) :=
      map_column_placeCells 0 _
    rw [cells_ofRow] at mem
    have column := columns ▸ List.mem_map_of_mem (f := TemplateCell.column) mem
    obtain ⟨place, inRow, same⟩ := List.mem_map.mp column
    rw [← same]
    exact fst_numberCells_le positive room (fun cell mem => (cells cell mem).1) 1 place inRow

/-- The copy of a static row is the tidy row. -/
theorem xml_copyRow_static (isRow : row.name = "row") (static : StaticRow table row)
    (own : rowNumber? row = some number) :
    ((TemplateRow.ofRow table data 0 number row).copyRow options .empty 0 number).xml final =
      tidyRow options row := by
  have still := static.still data number
  obtain ⟨number', positive, room, written, inRow⟩ := static
  rw [rowNumber?_of_text positive room written] at own
  cases own
  generalize made : (TemplateRow.ofRow table data 0 number row).copyRow options .empty 0 number =
    copied
  have isNumber : copied.number = number := by rw [← made]; rfl
  have cells : copied.cells.map (PlacedCell.xml final number) =
      (rowCells row).map (tidyCell options) := by
    rw [← made, ← (placeCells_static options data final positive room inRow 1).2, ← cells_ofRow]
    rfl
  have trailing : copied.trailing = row.elements.filter fun e => e.name != "c" := by
    rw [← made]
    exact others_ofRow table data 0 number row
  have kept : copied.attributes = row.attributes := by
    rw [← made, TemplateRow.copyRow, still.extraColumns]
    rfl
  have attributes : Element.setIn "r" (Text.Numeral.text number) row.attributes = row.attributes :=
    congrArg Element.attributes (Element.setAttr_of_attr? written)
  rw [PlacedRow.xml, isNumber, cells, trailing, kept, attributes, ← isRow, tidyRow]

/-- Static rows are laid out one for one, and nothing is recorded of them. -/
theorem layout_static {elements : List Element}
    (static : ∀ e ∈ elements, e.name = "row" → StaticRow table e) (next : Nat) :
    let items := planRows table data next elements
    SheetItem.log items = .empty ∧
      (SheetItem.layout options .empty 0 items).map (PlacedItem.xml final) =
        elements.map (tidyItem options) ∧
      ((SheetItem.layout options .empty 0 items).filterMap PlacedItem.row?).length =
        (items.filterMap SheetItem.row?).length := by
  induction elements generalizing next with
  | nil => exact ⟨rfl, rfl, rfl⟩
  | cons e rest ih =>
      rw [List.forall_mem_cons] at static
      by_cases isRow : e.name = "row"
      · have staticRow := static.1 isRow
        obtain ⟨number, positive, room, written, -⟩ := static.1 isRow
        have own := rowNumber?_of_text positive room written
        have still := staticRow.still data number
        obtain ⟨log, layout, counts⟩ := ih static.2 (number + 1)
        have plan : planRows table data next (e :: rest) =
            .row (.ofRow table data 0 number e) :: planRows table data (number + 1) rest := by
          rw [planRows, if_pos isRow, own, Option.getD_some]
        have first : SheetItem.layout options .empty 0 (planRows table data next (e :: rest)) =
            .row ((TemplateRow.ofRow table data 0 number e).copyRow options .empty 0 number) ::
              SheetItem.layout options .empty 0 (planRows table data (number + 1) rest) := by
          rw [plan, SheetItem.layout, still.copyCount, still.copies room]
          rfl
        refine ⟨?_, ?_, ?_⟩
        · rw [plan]
          show List.foldl _ ((TemplateRow.ofRow table data 0 number e).logInsertions .empty) _ = _
          rw [still.logInsertions]
          exact log
        · rw [first, List.map_cons, layout, List.map_cons, tidyItem, if_pos isRow]
          exact congrArg (· :: _) (xml_copyRow_static data final isRow staticRow own)
        · rw [first, plan]
          exact congrArg (· + 1) counts
      · obtain ⟨log, layout, counts⟩ := ih static.2 next
        rw [planRows, if_neg isRow]
        refine ⟨log, ?_, counts⟩
        rw [List.map_cons, tidyItem, if_neg isRow, ← layout]
        rfl

end Rows

/-! ## Static worksheets -/

section Sheets

variable {options : FillOptions} (data : Value) {table : StringTable} {template : Document}

/-- Nothing is recorded of a worksheet of static rows, each row is one row, and the rows are
tidied. -/
theorem filled_static
    (static : ∀ e ∈ sheetElements template, e.name = "row" → StaticRow table e) :
    (fillSheet options data table template).1.log = .empty ∧
      (fillSheet options data table template).1.rowsOut =
        (fillSheet options data table template).1.rowsIn ∧
      (fillSheet options data table template).1.document = tidySheet options template := by
  obtain ⟨log, layout, counts⟩ := layout_static data
    (fillSheet options data table template).2 static 1
  have empty : (fillSheet options data table template).1.log = .empty := log
  have written : (writeItems table (SheetItem.layout options .empty 0
      (planRows table data 1 (sheetElements template)))).1 =
        (sheetElements template).map (tidyItem options) := by
    refine (writeItems_eq ?_).1.trans layout
    rw [← log]
    exact .refl _
  have same : (template.root.modifyChild "sheetData" fun sheetData =>
      { sheetData with
        children := ((sheetElements template).map (tidyItem options)).map Node.element }) =
        (tidySheet options template).root := by
    refine Element.modifyChild_congr fun sheetData found => ?_
    rw [sheetElements, found, Option.map_some, Option.getD_some]
  have document (log : InsertionLog)
      (isLog : (fillSheet options data table template).1.log = log) :
      (fillSheet options data table template).1.document =
        let root := template.root.modifyChild "sheetData" fun sheetData => { sheetData with
          children := (writeItems table (SheetItem.layout options log 0
            (planRows table data 1 (sheetElements template)))).1.map Node.element }
        ⟨template.declaration,
          if log.isEmpty then root else root.mapElements (adjustPart options log)⟩ := by
    rw [← isLog]
    rfl
  have rows (log : InsertionLog) (isLog : (fillSheet options data table template).1.log = log) :
      (fillSheet options data table template).1.rowsOut = ((SheetItem.layout options log 0
        (planRows table data 1 (sheetElements template))).filterMap PlacedItem.row?).length := by
    rw [← isLog]
    rfl
  refine ⟨empty, ?_, ?_⟩
  · rw [rows .empty empty, counts]
    rfl
  · rw [document .empty empty, written, same]
    rfl

end Sheets

/-- Whatever the data are, nothing is inserted into a worksheet of static rows, no row is lost, and
the worksheet stays as it is but for the order and the stored results inside of its rows and for
what is no element there. -/
theorem fillSheet_static (options : FillOptions) (data : Value) (table : StringTable)
    (template : Document) (static : ∀ row ∈ sheetRows template, StaticRow table row) :
    let filled := (fillSheet options data table template).1
    filled.log = .empty ∧ filled.rowsOut = filled.rowsIn ∧
      filled.document = tidySheet options template :=
  filled_static data fun e mem isRow => static e (List.mem_filter.mpr ⟨mem, beq_of_eq isRow⟩)

/-- A static row that is not tidy: there are blanks, a link stands before the cells, and a formula
has a stored result. -/
def untidyRow : Element :=
  ⟨"row", [("r", "2"), ("spans", "1:4")],
    [.text " ", .element ⟨"extLst", [], []⟩,
      .element ⟨"c", [("s", "1"), ("r", "A2"), ("t", "s")], [.element ⟨"v", [], [.text "1"]⟩]⟩,
      .element ⟨"c", [("r", "D2")],
        [.element ⟨"f", [("t", "array"), ("ref", "$D$2:E3")], [.text "A1"]⟩,
          .element ⟨"v", [], [.text "7"]⟩]⟩,
      .element ⟨"c", [("r", "B2"), ("t", "inlineStr")],
        [.element ⟨"is", [], [.element ⟨"t", [], [.text "plain"]⟩]⟩]⟩]⟩

/-- A worksheet of a static row, with merged cells below its rows. -/
def untidySheet : Document :=
  ⟨none, ⟨"worksheet", [], [.element ⟨"dimension", [("ref", "A2:D2")], []⟩,
    .element ⟨"sheetData", [], [.text " ", .element untidyRow, .element ⟨"note", [], []⟩]⟩,
    .element ⟨"mergeCells", [("count", "1")],
      [.element ⟨"mergeCell", [("ref", "B2:C2")], []⟩]⟩]⟩⟩

theorem fillSheet_static_untidySheet :
    let table := StringTable.ofDocument (some greetings) grownData
    let filled := (fillSheet {} grownData table untidySheet).1
    (∀ row ∈ sheetRows untidySheet, StaticRow table row) ∧
      tidySheet {} untidySheet ≠ untidySheet ∧
      filled.log = .empty ∧ filled.rowsOut = filled.rowsIn ∧
      filled.document = tidySheet {} untidySheet := by
  intro table filled
  have rows : sheetRows untidySheet = [untidyRow] := by decide +kernel
  have addressed : ∀ cell ∈ rowCells untidyRow, ∃ column ∈ cellColumn? cell,
      0 < column ∧ column ≤ maxColumns ∧ cell.attr? "r" = some (CellAddress.label 2 column) := by
    decide +kernel
  have cells : ∀ cell ∈ rowCells untidyRow, Static table cell := by decide +kernel
  have static : ∀ row ∈ sheetRows untidySheet, StaticRow table row := by
    intro row mem
    rw [rows, List.mem_singleton] at mem
    rw [mem]
    refine ⟨2, by decide, by decide, by decide +kernel, fun cell mem => ⟨?_, cells cell mem⟩⟩
    obtain ⟨column, -, place⟩ := addressed cell mem
    exact ⟨column, place⟩
  exact ⟨static, by decide +kernel, fillSheet_static {} grownData table untidySheet static⟩

/-- A cell that names another row, and a range from its last corner to its first one. -/
def misplacedSheet : Document :=
  ⟨none, ⟨"worksheet", [], [.element ⟨"sheetData", [],
    [.element ⟨"row", [("r", "3")],
      [.element ⟨"c", [("r", "B7")], [.element ⟨"v", [], [.text "1"]⟩]⟩,
        .element ⟨"c", [("r", "C3")],
          [.element ⟨"f", [("t", "array"), ("ref", "D4:C3")], [.text "A1:B2"]⟩]⟩]⟩]⟩]⟩⟩

/-- Addresses and ranges of a sheet in upper case, without a mark and without leading zeros are not
enough: the cell gets the row that it stands in, and the range gets its corners in order. -/
theorem fillSheet_misplacedSheet :
    let table := StringTable.ofDocument none grownData
    let filled := (fillSheet {} grownData table misplacedSheet).1.document
    let formulaRanges := fun d : Document =>
      (sheetCells d).map fun cell => (cell.child? "f").bind (·.attr? "ref")
    (sheetRows misplacedSheet).map (·.attr? "r") = [some (Text.Numeral.text 3)] ∧
      (sheetCells misplacedSheet).map (·.attr? "r") =
        [some (CellAddress.label 7 2), some (CellAddress.label 3 3)] ∧
      formulaRanges misplacedSheet =
        [none, some (CellAddress.label 4 4 ++ ":" ++ CellAddress.label 3 3)] ∧
      (∀ cell ∈ sheetCells misplacedSheet, cell.attr? "t" = none) ∧
      (sheetCells filled).map (·.attr? "r") =
        [some (CellAddress.label 3 2), some (CellAddress.label 3 3)] ∧
      formulaRanges filled =
        [none, some (CellAddress.label 3 3 ++ ":" ++ CellAddress.label 4 4)] ∧
      filled ≠ tidySheet {} misplacedSheet := by
  decide +kernel

end SheetFill
