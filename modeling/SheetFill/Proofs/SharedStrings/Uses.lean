import SheetFill.Proofs.SharedStrings.Indices
import SheetFill.Proofs.Worksheet.Addresses
import SheetFill.Proofs.Worksheet.Settled

/-!
# The count of uses

The table of strings counts the cells that point into it. A cell is counted when it is written, and
only what a sheet has room for is written. So the count is the number of cells with a shared string
in the rows of all filled sheets (`count_fillEach`): each copy of a row counts, and each cell that a
sequence becomes, and a string that is kept once counts for every cell that has it.

A cell with a formula is not counted, whatever its type (`count_sharedFormulaSheet`).
-/

namespace SheetFill

open Xml

/-- Whether a cell points into the table of strings. -/
def pointsIntoTable (cell : Element) : Bool := cell.attr? "t" == some "s"

/-- No cell of a worksheet has a formula and points into the table of strings. -/
def NoSharedFormula (template : Document) : Prop :=
  ∀ row ∈ sheetRows template, ∀ cell ∈ rowCells row,
    cell.hasChild "f" = true → pointsIntoTable cell = false

instance (template : Document) : Decidable (NoSharedFormula template) :=
  inferInstanceAs (Decidable (∀ row ∈ sheetRows template, ∀ cell ∈ rowCells row,
    cell.hasChild "f" = true → pointsIntoTable cell = false))

/-! ## Operations that count -/

theorem StringTable.uses_apply (table : StringTable) (operation : TableOperation) :
    (table.apply operation).uses = table.uses + if operation = .countUse then 1 else 0 := by
  cases operation with
  | countUse => rfl
  | intern text =>
      show (table.intern text).2.uses = table.uses
      rw [intern]
      split <;> rfl

/-- A run counts as often as it is told to. -/
theorem StringTable.uses_run (table : StringTable) (operations : List TableOperation) :
    (table.run operations).uses = table.uses + operations.count .countUse := by
  induction operations generalizing table with
  | nil => rfl
  | cons operation operations ih =>
      rw [run_cons, ih, uses_apply, List.count_cons, beq_eq_decide]
      simp only [decide_eq_true_eq]
      omega

section Cells

variable {options : FillOptions} {data : Value} {table final : StringTable} {log : InsertionLog}
  {number copy placed : Nat}

theorem pointsIntoTable_setAttr_r (cell : Element) (address : String) :
    pointsIntoTable (cell.setAttr "r" address) = pointsIntoTable cell := by
  rw [pointsIntoTable, cell.attr?_setAttr_of_ne (by decide), pointsIntoTable]

/-- A cell is counted if it points into the table, unless it has a formula. -/
theorem count_operations {cell : PlacedCell}
    (notShared : ∀ template, cell.body = .formula template → pointsIntoTable template = false) :
    cell.operations.count .countUse =
      if pointsIntoTable (cell.xml final placed) then 1 else 0 := by
  obtain ⟨column, body⟩ := cell
  cases body with
  | copied template =>
      show _ = if pointsIntoTable (template.setAttr "r" _) then 1 else 0
      rw [pointsIntoTable_setAttr_r, pointsIntoTable, PlacedCell.operations]
      by_cases isShared : template.attr? "t" = some "s"
      · simp [isShared]
      · simp [isShared]
  | formula template =>
      show 0 = if pointsIntoTable (template.setAttr "r" _) then 1 else 0
      rw [pointsIntoTable_setAttr_r, notShared template rfl]
      rfl
  | filled template content =>
      have blank := attr?_t_blankCell template (CellAddress.label placed column)
      rcases content with _ | x | b | s
      · show 0 = if pointsIntoTable (blankCell template _) then 1 else 0
        rw [pointsIntoTable, blank]
        rfl
      · show 0 = if pointsIntoTable (withValue (blankCell template _) _) then 1 else 0
        rw [pointsIntoTable, attr?_withValue, blank]
        rfl
      · show 0 = if pointsIntoTable (withValue ((blankCell template _).setAttr "t" "b") _)
          then 1 else 0
        rw [pointsIntoTable, attr?_withValue, Element.attr?_setAttr_self]
        rfl
      · show 1 = if pointsIntoTable (withValue ((blankCell template _).setAttr "t" "s") _)
          then 1 else 0
        rw [pointsIntoTable, attr?_withValue, Element.attr?_setAttr_self]
        rfl

/-- A formula is placed only for a cell with a formula, and it keeps the type of the cell. -/
theorem of_formula_mem_placeCell {cell : Element × TemplateCell}
    (plan : (cell.2.outcome, cell.2.template) = planCell table data cell.1) {inSheet : PlacedCell}
    (mem : inSheet ∈ placeCell options log number copy placed cell.2) {template : Element}
    (isFormula : inSheet.body = .formula template) :
    cell.1.hasChild "f" = true ∧ template.attr? "t" = cell.1.attr? "t" := by
  rcases placed_cases plan mem with ⟨formula, rfl⟩ | ⟨column, content, rfl⟩ | ⟨-, -, rfl⟩
  · cases isFormula
    exact ⟨formula, (sameButFormula_placedFormula cell).type.trans
      (attr?_formulaTemplate options cell.1 "t")⟩
  · cases isFormula
  · cases isFormula

theorem count_flatMap_operations {cells : List PlacedCell}
    (each : ∀ cell ∈ cells, cell.operations.count .countUse =
      if pointsIntoTable (cell.xml final placed) then 1 else 0) :
    (cells.flatMap PlacedCell.operations).count .countUse =
      (cells.map (PlacedCell.xml final placed)).countP pointsIntoTable := by
  induction cells with
  | nil => rfl
  | cons cell cells ih =>
      rw [List.forall_mem_cons] at each
      rw [List.flatMap_cons, List.count_append, each.1, ih each.2, List.map_cons, List.countP_cons,
        Nat.add_comm]

/-- The cells of a copy that point into the table are those that were counted. -/
theorem count_operations_copyRow {row : Element}
    (notShared : ∀ cell ∈ rowCells row, cell.hasChild "f" = true → pointsIntoTable cell = false) :
    let copied := (TemplateRow.ofRow table data 0 number row).copyRow options log copy placed
    (copied.cells.flatMap PlacedCell.operations).count .countUse =
      (rowCells (copied.xml final)).countP pointsIntoTable := by
  intro copied
  rw [rowCells_copyRow]
  refine count_flatMap_operations fun cell mem => count_operations fun template isFormula => ?_
  rw [cells_copyRow] at mem
  obtain ⟨planned, source, mem⟩ := List.mem_flatMap.mp mem
  obtain ⟨numbered, plan⟩ := of_mem_planCells source
  obtain ⟨formula, type⟩ := of_formula_mem_placeCell plan mem isFormula
  rw [pointsIntoTable, type]
  exact notShared _ (snd_mem_numberCells numbered) formula

end Cells

/-! ## Worksheets -/

/-- Only rows do something to the table of strings. -/
theorem flatMap_operations (items : List PlacedItem) :
    items.flatMap PlacedItem.operations =
      (items.filterMap PlacedItem.row?).flatMap fun row =>
        row.cells.flatMap PlacedCell.operations := by
  induction items with
  | nil => rfl
  | cons item items ih =>
      cases item with
      | row r => exact congrArg (_ ++ ·) ih
      | other e => exact ih

/-- Filling a worksheet counts the cells of the filled worksheet that point into the table. -/
theorem uses_fillSheet (options : FillOptions) (data : Value) (table : StringTable)
    {template : Document} (noSharedFormula : NoSharedFormula template) :
    (fillSheet options data table template).2.uses =
      table.uses + (sheetCells (fillSheet options data table template).1.document).countP
        pointsIntoTable := by
  rw [run_fillSheet, StringTable.uses_run, sheetCells, sheetRows_fillSheet (.refl _)]
  congr 1
  show ((SheetItem.layout options (fillSheet options data table template).1.log 0
    (planRows table data 1 (sheetElements template))).flatMap PlacedItem.operations).count _ = _
  rw [flatMap_operations, rows_layout, rows_planRows, List.count_flatMap, List.countP_flatMap,
    List.map_map]
  congr 1
  refine List.map_congr_left fun row mem => ?_
  obtain ⟨plan, inPlan, copy, moved, -, -, -, rfl⟩ := mem_placedRows mem
  obtain ⟨numbered, inRows, rfl⟩ := List.mem_map.mp inPlan
  exact count_operations_copyRow (noSharedFormula _ (snd_mem_numberRows inRows))

/-- A worksheet with the data that it is filled from. -/
structure SheetFilling where
  /-- How it is filled. -/
  options : FillOptions
  /-- The data. -/
  data : Value
  /-- The worksheet. -/
  template : Document

/-- Fill worksheets one after another with one table of strings, each from data of its own. -/
def fillEach (table : StringTable) : List SheetFilling → List FilledSheet × StringTable
  | [] => ([], table)
  | ⟨options, data, template⟩ :: fillings =>
      let (filled, table) := fillSheet options data table template
      let (others, table) := fillEach table fillings
      (filled :: others, table)

theorem uses_fillEach (table : StringTable) {fillings : List SheetFilling}
    (noSharedFormula : ∀ filling ∈ fillings, NoSharedFormula filling.template) :
    (fillEach table fillings).2.uses = table.uses +
      ((fillEach table fillings).1.flatMap fun filled => sheetCells filled.document).countP
        pointsIntoTable := by
  induction fillings generalizing table with
  | nil => rfl
  | cons filling fillings ih =>
      rw [List.forall_mem_cons] at noSharedFormula
      have first := uses_fillSheet filling.options filling.data table noSharedFormula.1
      have rest := ih (fillSheet filling.options filling.data table filling.template).2
        noSharedFormula.2
      rw [first, Nat.add_assoc, ← List.countP_append] at rest
      exact rest

theorem count_toPart (table : StringTable) :
    table.toPart.root.attr? "count" = some (Text.Numeral.text table.uses) :=
  (Element.attr?_setAttr_of_ne _ (by decide) _).trans (Element.attr?_setAttr_self _ _ _)

/-- When worksheets are filled one after another with the table of a template, the part for the
table has as its count the number of cells that point into it, over all rows of all filled
worksheets. -/
theorem count_fillEach (document : Option Document) (known : Value) (fillings : List SheetFilling)
    (noSharedFormula : ∀ filling ∈ fillings, NoSharedFormula filling.template) :
    let filled := fillEach (.ofDocument document known) fillings
    filled.2.toPart.root.attr? "count" = some (Text.Numeral.text
      ((filled.1.flatMap fun sheet => sheetCells sheet.document).countP pointsIntoTable)) := by
  intro filled
  rw [count_toPart, uses_fillEach _ noSharedFormula]
  exact congrArg (fun n => some (Text.Numeral.text n)) (Nat.zero_add _)

/-- A row before the last one, with a string of the template, a table, a placeholder without a
value, a formula, and a sequence in the column before the last one. -/
def lastCellsSheet : Document :=
  ⟨none, ⟨"worksheet", [], [.element ⟨"sheetData", [], [.element ⟨"row", [("r", "1048575")],
    [sharedCell "A1048575" "2", inlineCell "B1048575" "${table:xs}" [],
      sharedCell "C1048575" "0",
      .element ⟨"c", [("r", "D1048575")], [.element ⟨"f", [], [.text "A1"]⟩]⟩,
      inlineCell "XFC1048575" "${xs}" []]⟩]⟩]⟩⟩

/-- Two of three copies have room, with two of three cells at their end, and the second time each
text is a sequence of one. -/
theorem count_fillEach_lastCellsSheet :
    let fillings : List SheetFilling := [⟨{}, grownData, lastCellsSheet⟩,
      ⟨{}, .mapping [("xs", .text "a")], lastCellsSheet⟩]
    let filled := fillEach (.ofDocument (some greetings) grownData) fillings
    (∀ filling ∈ fillings, NoSharedFormula filling.template) ∧
      filled.2.added = ["a", "b"] ∧
      (filled.1.flatMap fun sheet => sheetCells sheet.document).countP pointsIntoTable = 11 ∧
      filled.2.toPart.root.attr? "count" = some "11" := by
  intro fillings filled
  have noSharedFormula : ∀ filling ∈ fillings, NoSharedFormula filling.template := by
    intro filling mem
    rcases List.mem_cons.mp mem with rfl | mem
    · decide +kernel
    · rw [List.mem_singleton.mp mem]
      decide +kernel
  have added : filled.2.added = ["a", "b"] := by decide +kernel
  have eleven : (filled.1.flatMap fun sheet => sheetCells sheet.document).countP
      pointsIntoTable = 11 := by decide +kernel
  have count := count_fillEach (some greetings) grownData fillings noSharedFormula
  refine ⟨noSharedFormula, added, eleven, count.trans ?_⟩
  rw [eleven]
  decide +kernel

/-- A formula in a cell that points into the table. -/
def sharedFormulaSheet : Document :=
  rowSheet [.element ⟨"c", [("r", "A1"), ("t", "s")],
    [.element ⟨"f", [], [.text "B1"]⟩, .element ⟨"v", [], [.text "2"]⟩]⟩]

/-- A cell with a formula stays as it is and is not counted. -/
theorem count_sharedFormulaSheet :
    let filled := fillEach (.ofDocument (some greetings) grownData)
      [⟨{}, grownData, sharedFormulaSheet⟩]
    (filled.1.flatMap fun sheet => sheetCells sheet.document).countP pointsIntoTable = 1 ∧
      filled.2.toPart.root.attr? "count" = some "0" := by
  decide +kernel

end SheetFill
