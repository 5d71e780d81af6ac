import SheetFill.Proofs.Worksheet.Dimension
import SheetFill.Proofs.Worksheet.Located

/-!
# Ranges of formulas

A range belongs to the formula that a group of cells shares, and to a formula with several results.
It starts at the cell with the formula, and a shared one has all cells of its group. First copies of
rows are placed before the log is finished and get their ranges from it afterwards, while later
copies leave their group and take their ranges along. Both agree with where the cells stand
(`fillSheet_formulas`): the cells of a group are the first copies of those in the template, in their
order (`filter_inGroupOf_fillSheet`), and corners of ranges move like the cells there
(`InsertionLog.KeepsShape`), if a range lies in one row or in rows without insertions of cells.
-/

namespace SheetFill

open Xml

/-! ## Ranges that follow first copies -/

namespace InsertionLog

/-- A range lies in one row, or no cells are inserted in its rows. -/
def KeepsShape (log : InsertionLog) (r : CellRange) : Prop :=
  r.inOneRow = true ∨ log.KeepsColumns r

instance (log : InsertionLog) (r : CellRange) : Decidable (log.KeepsShape r) :=
  inferInstanceAs (Decidable (_ ∨ _))

section Follow

variable {log : InsertionLog} {r : CellRange} {row col : Nat}

theorem KeepsColumns.firstColumn_eq (keeps : log.KeepsColumns r) (top : r.start.row ≤ row)
    (bottom : row ≤ r.stop.row) (small : col < maxColumns) : log.firstColumn row col = col := by
  rw [firstColumn, columnsWhere_eq_zero (keeps row top bottom)]
  exact if_pos (Nat.le_trans (Nat.le_of_lt small) (by decide))

/-- In the rows of such a range a column goes where the first copies of its cells go. -/
theorem KeepsShape.column_eq (keeps : log.KeepsShape r) (top : r.start.row ≤ row)
    (bottom : row ≤ r.stop.row) (small : col < maxColumns) :
    col + log.largestShift r.start.row r.stop.row (fun row => log.firstColumn row col - col) =
      log.firstColumn row col := by
  have inside : col ≤ Text.Numeral.maxWord32 := Nat.le_trans (Nat.le_of_lt small) (by decide)
  have right : col ≤ log.firstColumn row col := le_bounded (Nat.le_add_right ..) inside
  have same : ∀ row', r.start.row ≤ row' → row' ≤ r.stop.row →
      log.firstColumn row' col - col = log.firstColumn row col - col := by
    intro row' top' bottom'
    rcases keeps with one | keeps
    · have within : r.start.row = r.stop.row := eq_of_beq one
      rw [show row' = row by omega]
    · rw [keeps.firstColumn_eq top' bottom' small, keeps.firstColumn_eq top bottom small]
  have still : log.columns.get? r.start.row = none → log.firstColumn row col - col = 0 := by
    intro found
    have stays : log.firstColumn r.start.row col = col := by
      rw [firstColumn, columnsWhere, found]
      exact if_pos inside
    rw [← same r.start.row (Nat.le_refl _) (Nat.le_trans top bottom), stays, Nat.sub_self]
  rw [largestShift_eq (Nat.le_trans top bottom) same still]
  omega

/-- A range that follows first copies starts at that of its first cell. -/
theorem KeepsShape.start_followRange (keeps : log.KeepsShape r) (wellFormed : r.WellFormed)
    (rowInside : log.firstRow r.start.row < maxRows)
    (colInside : log.firstColumn r.start.row r.start.col < maxColumns) :
    (log.followRange r).start.row = log.firstRow r.start.row ∧
      (log.followRange r).start.col = log.firstColumn r.start.row r.start.col := by
  have left := keeps.column_eq (Nat.le_refl _) wellFormed.rows wellFormed.start.col
  have right := keeps.column_eq (Nat.le_refl _) wellFormed.rows wellFormed.stop.col
  rw [followRange, left, right,
    r.start_relocate (firstRow_mono wellFormed.rows) (firstColumn_mono wellFormed.cols) rowInside
      colInside]
  exact ⟨rfl, rfl⟩

/-- It has the first copies of all its cells. -/
theorem KeepsShape.covers_followRange (keeps : log.KeepsShape r) (wellFormed : r.WellFormed)
    (covers : r.Covers row col) (rowInside : log.firstRow row < maxRows)
    (colInside : log.firstColumn row col < maxColumns) :
    (log.followRange r).Covers (log.firstRow row) (log.firstColumn row col) := by
  have left := keeps.column_eq covers.top covers.bottom wellFormed.start.col
  have right := keeps.column_eq covers.top covers.bottom wellFormed.stop.col
  rw [followRange, left, right]
  exact r.covers_relocate (firstRow_mono covers.top) (firstRow_mono covers.bottom)
    (firstColumn_mono covers.left) (firstColumn_mono covers.right) rowInside colInside

end Follow

end InsertionLog

/-! ## Groups of shared formulas -/

/-- The formulas of a cell. A cell has one at most, but nothing keeps a file from having more. -/
def formulas (cell : Element) : List Element := cell.elements.filter fun e => e.name == "f"

/-- Whether a cell has a formula of a group of shared formulas. -/
def inAnyGroup (cell : Element) : Bool :=
  (formulas cell).any fun f => f.attr? "t" = some "shared"

/-- Whether a cell has a formula of the group with an identifier. -/
def inGroupOf (id : String) (cell : Element) : Bool :=
  (formulas cell).any fun f => f.attr? "t" = some "shared" && f.attr? "si" = some id

/-- Whether a cell has a formula of this group that has a range. -/
def leadsGroup (id : String) (cell : Element) : Bool :=
  (formulas cell).any fun f =>
    f.attr? "t" = some "shared" && f.attr? "si" = some id && (f.attr? "ref").isSome

/-- The range of the formula in a cell starts at a place. -/
def RangeStartsAt (cell : Element) (row col : Nat) : Prop :=
  ∃ range, formulaRange? cell = some range ∧ range.start.row = row ∧ range.start.col = col

/-- A group of shared formulas has one master, whose range starts at the master and has all cells of
the group. -/
structure Led (cells : List CellAt) (id : String) (master : CellAt) (range : CellRange) :
    Prop where
  /-- No other cell of the group has a range. -/
  one : cells.filter (fun c => leadsGroup id c.cell) = [master]
  /-- The range can be read. -/
  own : formulaRange? master.cell = some range
  /-- It starts in the row of the master. -/
  row : range.start.row = master.row
  /-- It starts in the column of the master. -/
  col : range.start.col = master.col
  /-- It has all cells of the group. -/
  covers : ∀ c ∈ cells, inGroupOf id c.cell = true → range.Covers c.row c.col

/-- Every group of shared formulas among some cells has a master. -/
def AllLed (cells : List CellAt) : Prop :=
  ∀ c ∈ cells, ∀ id, inGroupOf id c.cell = true → ∃ master range, Led cells id master range

theorem Led.mem {cells : List CellAt} {id : String} {master : CellAt} {range : CellRange}
    (led : Led cells id master range) : master ∈ cells := by
  have mem : master ∈ cells.filter fun c => leadsGroup id c.cell := by
    rw [led.one]
    exact List.mem_singleton_self master
  exact (List.mem_filter.mp mem).1

instance (cells : List CellAt) (id : String) (master : CellAt) (range : CellRange) :
    Decidable (Led cells id master range) :=
  decidable_of_iff (_ ∧ _ ∧ _ ∧ _ ∧ _)
    ⟨fun ⟨one, own, row, col, covers⟩ => ⟨one, own, row, col, covers⟩,
      fun led => ⟨led.one, led.own, led.row, led.col, led.covers⟩⟩

theorem mem_si_of_inGroupOf {id : String} {cell : Element} (group : inGroupOf id cell = true) :
    id ∈ (formulas cell).filterMap (·.attr? "si") := by
  obtain ⟨f, mem, shared⟩ := List.any_eq_true.mp group
  exact List.mem_filterMap.mpr ⟨f, mem, of_decide_eq_true (Bool.and_eq_true_iff.mp shared).2⟩

/-- The group and the range of a master are those that its formulas have. -/
instance (cells : List CellAt) : Decidable (AllLed cells) :=
  decidable_of_iff (∀ c ∈ cells, ∀ id ∈ (formulas c.cell).filterMap (·.attr? "si"),
      inGroupOf id c.cell = true → ∃ master ∈ cells, ∃ range ∈ formulaRange? master.cell,
        Led cells id master range)
    ⟨fun all c mem id group =>
        have ⟨master, _, range, _, led⟩ := all c mem id (mem_si_of_inGroupOf group) group
        ⟨master, range, led⟩,
      fun all c mem id _ group =>
        have ⟨master, range, led⟩ := all c mem id group
        ⟨master, led.mem, range, led.own, led⟩⟩

section Formulas

variable {options : FillOptions} {log : InsertionLog} {cell : Element} {id : String}

theorem inGroupOf_of_leadsGroup (leads : leadsGroup id cell = true) : inGroupOf id cell = true := by
  obtain ⟨f, mem, shared⟩ := List.any_eq_true.mp leads
  exact List.any_eq_true.mpr ⟨f, mem, (Bool.and_eq_true_iff.mp shared).1⟩

theorem inAnyGroup_of_inGroupOf (group : inGroupOf id cell = true) : inAnyGroup cell = true := by
  obtain ⟨f, mem, shared⟩ := List.any_eq_true.mp group
  exact List.any_eq_true.mpr ⟨f, mem, (Bool.and_eq_true_iff.mp shared).1⟩

theorem child?_f (cell : Element) : cell.child? "f" = (formulas cell).head? :=
  (List.head?_filter ..).symm

theorem formulas_of_none (none : cell.child? "f" = none) : formulas cell = [] := by
  rw [child?_f] at none
  exact List.head?_eq_none_iff.mp none

/-- The group of a cell with one formula is that of its first one. -/
theorem inGroup_eq_inAnyGroup (single : (formulas cell).length ≤ 1) :
    inGroup cell = inAnyGroup cell := by
  rw [inGroup, child?_f, inAnyGroup]
  cases shape : formulas cell with
  | nil => rfl
  | cons f fs =>
      rw [shape, List.length_cons] at single
      have alone : fs = [] := List.eq_nil_of_length_eq_zero (by omega)
      rw [alone, List.head?_cons, Option.filter_some, List.any_cons, List.any_nil, Bool.or_false]
      split
      · exact (Eq.symm ‹_›)
      · exact (Bool.eq_false_of_not_eq_true ‹_›).symm

/-- A cell in no group is in none by its first formula. -/
theorem inGroup_of_alone (alone : inAnyGroup cell = false) : inGroup cell = false := by
  rw [inGroup, Option.isSome_eq_false_iff, Option.isNone_iff_eq_none, Option.filter_eq_none_iff]
  intro f first shared
  rw [child?_f] at first
  have mem : f ∈ formulas cell := List.mem_of_mem_head? first
  exact Bool.eq_false_iff.mp alone (List.any_eq_true.mpr ⟨f, mem, shared⟩)

theorem formulas_modifyChild (cell : Element) {change : Element → Element}
    (keeps : ∀ f, f.name = "f" → (change f).name = "f") :
    formulas (cell.modifyChild "f" change) = (formulas cell).modifyHead change :=
  cell.filter_eq_modifyChild keeps

theorem formulas_setFormulaRange (cell : Element) (range : CellRange) :
    formulas (setFormulaRange cell range) =
      (formulas cell).modifyHead (·.setAttr "ref" range.text) :=
  formulas_modifyChild cell fun _ same => same

theorem formulas_formulaTemplate (options : FillOptions) (cell : Element) :
    formulas (formulaTemplate options cell) = formulas cell := by
  rw [formulaTemplate]
  split
  · exact cell.filter_removeChildren (by decide)
  · rfl

theorem formulaRange?_formulaTemplate (options : FillOptions) (cell : Element) :
    formulaRange? (formulaTemplate options cell) = formulaRange? cell := by
  rw [formulaRange?, child?_f_formulaTemplate, formulaRange?]

theorem wellFormed_of_formulaRange? {range : CellRange} (found : formulaRange? cell = some range) :
    range.WellFormed := by
  obtain ⟨reference, -, read⟩ := Option.bind_eq_some_iff.mp found
  cases result : CellRange.read reference with
  | error e =>
      rw [result] at read
      cases read
  | ok r =>
      rw [result] at read
      cases read
      exact CellRange.wellFormed_of_read result

/-- A range that was set is read back. -/
theorem formulaRange?_setFormulaRange {range : CellRange} (formula : cell.hasChild "f" = true)
    (wellFormed : range.WellFormed) :
    formulaRange? (setFormulaRange cell range) = some range := by
  obtain ⟨f, found⟩ := Option.isSome_iff_exists.mp formula
  rw [formulaRange?, child?_f_setFormulaRange, found, Option.map_some, Option.bind_some,
    Element.attr?_setAttr_self, Option.bind_some, CellRange.read_text wellFormed]
  rfl

theorem hasChild_f_of_formulaRange? {range : CellRange} (found : formulaRange? cell = some range) :
    cell.hasChild "f" = true := by
  obtain ⟨reference, own, -⟩ := Option.bind_eq_some_iff.mp found
  obtain ⟨f, isFormula, -⟩ := Option.bind_eq_some_iff.mp own
  rw [Element.hasChild, isFormula]
  rfl

theorem inGroup_setFormulaRange (cell : Element) (range : CellRange) :
    inGroup (setFormulaRange cell range) = inGroup cell := by
  rw [inGroup, child?_f_setFormulaRange, inGroup]
  cases cell.child? "f" with
  | none => rfl
  | some f =>
      rw [Option.map_some, Option.filter_some, Option.filter_some,
        f.attr?_setAttr_of_ne (by decide)]
      split
      · rfl
      · rfl

/-- A range that is set where there was one changes nothing else about the group. -/
theorem group_firstFormula (id : String) (log : InsertionLog) (cell : Element) :
    inGroupOf id (firstFormula log cell) = inGroupOf id cell ∧
      leadsGroup id (firstFormula log cell) = leadsGroup id cell := by
  rw [firstFormula]
  split
  · rename_i range found
    obtain ⟨reference, own, -⟩ := Option.bind_eq_some_iff.mp found
    obtain ⟨f, isFormula, ref⟩ := Option.bind_eq_some_iff.mp own
    rw [child?_f] at isFormula
    obtain ⟨fs, shape⟩ := List.head?_eq_some_iff.mp isFormula
    simp [leadsGroup, inGroupOf, formulas_setFormulaRange, shape, ref, Element.attr?_setAttr_of_ne]
  · exact ⟨rfl, rfl⟩

theorem group_formulaTemplate (id : String) (options : FillOptions) (cell : Element) :
    inGroupOf id (formulaTemplate options cell) = inGroupOf id cell ∧
      leadsGroup id (formulaTemplate options cell) = leadsGroup id cell := by
  rw [leadsGroup, leadsGroup, inGroupOf, inGroupOf, formulas_formulaTemplate]
  exact ⟨rfl, rfl⟩

/-- A cell that leaves its group is in none. -/
theorem inGroup_leaveGroup (cell : Element) : inGroup (leaveGroup cell) = false := by
  rw [leaveGroup]
  split
  · rename_i alone
    rw [inGroup, alone]
    rfl
  · rename_i f found
    split
    · have changed : (cell.modifyChild "f" fun f =>
          ((f.removeAttr "t").removeAttr "ref").removeAttr "si").child? "f" =
            (cell.child? "f").map fun f => ((f.removeAttr "t").removeAttr "ref").removeAttr "si" :=
        cell.child?_modifyChild fun _ same => same
      have noType : (((f.removeAttr "t").removeAttr "ref").removeAttr "si").attr? "t" = none := by
        rw [Element.attr?_removeAttr_of_ne _ (by decide),
          Element.attr?_removeAttr_of_ne _ (by decide), Element.attr?_removeAttr_self]
      rw [inGroup, changed, (Option.filter_eq_some_iff.mp found).1, Option.map_some,
        Option.filter_some, noType]
      rfl
    · rw [inGroup, Element.child?_removeChildren_self]
      rfl

/-- A cell has no more formulas after it left its group. -/
theorem length_formulas_leaveGroup (cell : Element) :
    (formulas (leaveGroup cell)).length ≤ (formulas cell).length := by
  rw [leaveGroup]
  split
  · exact Nat.le_refl _
  · split
    · rw [formulas_modifyChild cell, List.length_modifyHead]
      exact fun _ same => same
    · rw [formulas_of_none (cell.child?_removeChildren_self "f")]
      exact Nat.zero_le _

/-- In a later copy a cell with one formula is in no group. -/
theorem inAnyGroup_laterFormula (down right : Nat) (single : (formulas cell).length ≤ 1) :
    inAnyGroup (laterFormula down right cell) = false := by
  have few := Nat.le_trans (length_formulas_leaveGroup cell) single
  rw [laterFormula]
  split
  · rw [← inGroup_eq_inAnyGroup, inGroup_setFormulaRange, inGroup_leaveGroup]
    rwa [formulas_setFormulaRange, List.length_modifyHead]
  · rw [← inGroup_eq_inAnyGroup few, inGroup_leaveGroup]

end Formulas

/-! ## Formulas that are placed -/

section Placed

variable {options : FillOptions} {data : Value} {table final : StringTable} {log : InsertionLog}
  {row copy number : Nat} {cell : Element × TemplateCell}

theorem child?_f_filled (final : StringTable) (number column : Nat) (template : Element)
    (content : Option CellContent) :
    (PlacedCell.xml final number ⟨column, .filled template content⟩).child? "f" = none := by
  cases content with
  | none => rfl
  | some content => cases content <;> rfl

/-- A cell without a formula becomes cells without formulas. -/
theorem child?_f_placeCell (plan : (cell.2.outcome, cell.2.template) = planCell table data cell.1)
    (noFormula : cell.1.hasChild "f" = false) :
    ∀ placed ∈ placeCell options log row copy number cell.2,
      (placed.xml final number).child? "f" = none := by
  intro placed mem
  rcases placed_cases plan mem with ⟨formula, -⟩ | ⟨column, content, rfl⟩ | ⟨-, -, rfl⟩
  · cases noFormula.symm.trans formula
  · exact child?_f_filled final number column _ content
  · have absent := Element.child?_of_noChild noFormula
    show (planCell table data cell.1).2.child? "f" = none
    rcases template_planCell table data cell.1 with same | ⟨text, same⟩
    · rw [same, absent]
    · rw [same]
      refine (cell.1.child?_modifyChild_of_ne (by decide) ?_).trans absent
      exact fun _ same => same

/-- In later copies of a row a cell with one formula is in no group. -/
theorem inAnyGroup_placeCell (later : copy ≠ 0)
    (plan : (cell.2.outcome, cell.2.template) = planCell table data cell.1)
    (single : (formulas cell.1).length ≤ 1) :
    ∀ placed ∈ placeCell options log row copy number cell.2,
      inAnyGroup (placed.xml final number) = false := by
  intro placed mem
  by_cases formula : cell.1.hasChild "f" = true
  · by_cases far : maxColumns < cell.2.place
    · rw [placeCell_far far] at mem
      cases mem
    · rw [placeCell_formula plan formula far] at mem
      rw [List.mem_singleton.mp mem]
      show inAnyGroup (placedFormula options log row copy number cell) = false
      rw [placedFormula, if_neg later]
      refine inAnyGroup_laterFormula _ _ ?_
      rwa [formulas_formulaTemplate]
  · have noFormula := Bool.eq_false_of_not_eq_true formula
    rw [inAnyGroup, formulas_of_none (child?_f_placeCell plan noFormula placed mem)]
    rfl

end Placed

/-! ## Cells that have room -/

/-- No row and no cell of a worksheet is cut off. -/
def HasRoom (log : InsertionLog) (template : Document) : Prop :=
  ∀ row ∈ numberRows 1 (sheetRows template), log.lastRow (row.1 - 1) < maxRows ∧
    ∀ cell ∈ numberCells 1 (rowCells row.2),
      log.lastColumn (row.1 - 1) (cell.1 - 1) < maxColumns

instance (log : InsertionLog) (template : Document) : Decidable (HasRoom log template) := by
  unfold HasRoom
  infer_instance

section Sheets

variable {options : FillOptions} {data : Value} {table final : StringTable} {log : InsertionLog}
  {template : Document} {id : String}

theorem inside_of_mem_cellsAt (room : HasRoom log template) {c : CellAt}
    (mem : c ∈ cellsAt template) :
    log.firstRow c.row < maxRows ∧ log.firstColumn c.row c.col < maxColumns := by
  obtain ⟨row, inRows, cell, inCells, rfl⟩ := mem_cellsAt.mp mem
  obtain ⟨rowInside, cells⟩ := room row inRows
  exact ⟨Nat.lt_of_le_of_lt (log.firstRow_le_lastRow _) rowInside,
    Nat.lt_of_le_of_lt (log.firstColumn_le_lastColumn _ _) (cells cell inCells)⟩

/-- A numbered row that is moved `offset` rows down: its copies have room, and they and its cells
stand where the log says. -/
structure StandsAt (data : Value) (table : StringTable) (log : InsertionLog)
    (offset number : Nat) (row : Element) : Prop where
  /-- Rows are counted from one. -/
  positive : 1 ≤ number
  /-- The number of the first copy. -/
  first : number + offset = log.firstRow (number - 1) + 1
  /-- All copies are rows of a sheet. -/
  copies : ∀ k < (TemplateRow.ofRow table data 0 number row).copyCount,
    number + offset + k ≤ maxRows
  /-- The columns of the cells. -/
  cells : ∀ plan ∈ planCells table data 0 (numberCells 1 (rowCells row)),
    1 ≤ plan.2.column ∧ plan.2.column ≤ plan.2.place ∧
      plan.2.place = log.firstColumn (number - 1) (plan.2.column - 1) + 1 ∧
      plan.2.place ≤ maxColumns

/-- Every row of the trace stands where the log says. -/
theorem exists_standsAt (ordered : SheetInOrder template)
    (room : HasRoom (fillSheet options data table template).1.log template) {row : RowTrace}
    (mem : row ∈ fillTrace options data table final template) :
    ∃ offset number e, (number, e) ∈ numberRows 1 (sheetRows template) ∧
      row = rowTrace options data table final (fillSheet options data table template).1.log offset
        number e ∧
      StandsAt data table (fillSheet options data table template).1.log offset number e := by
  obtain ⟨before, after, number, e, split, rfl⟩ := mem_traceRows mem
  have source : (number, e) ∈ numberRows 1 (sheetRows template) :=
    List.mem_iff_append.mpr ⟨before, after, split⟩
  have rowInside : (fillSheet options data table template).1.log.lastRow (number - 1) < maxRows :=
    (room _ source).1
  obtain ⟨one, first, count, plans, finished⟩ := tracedRow options data table ordered split
  refine ⟨_, number, e, source, rfl, ?_⟩
  rw [Nat.zero_add]
  have small : maxRows ≤ Text.Numeral.maxWord32 := by decide
  obtain ⟨-, last⟩ := InsertionLog.lastRow_eq (Nat.lt_of_lt_of_le rowInside small)
  have exact : InsertionLog.bounded (number - 1 + extraCopies (planned table data before)) =
      number - 1 + extraCopies (planned table data before) :=
    InsertionLog.bounded_eq (by omega)
  refine ⟨one, by omega, fun k inside => by omega, fun plan inPlan => ?_⟩
  obtain ⟨numbered, -⟩ := of_mem_planCells inPlan
  have colInside : (fillSheet options data table template).1.log.lastColumn (number - 1)
      (plan.2.column - 1) < maxColumns := (room _ source).2 _ numbered
  obtain ⟨col, place, right, start, stop⟩ :=
    columns_planned plans (ordered.cells e (snd_mem_numberRows source)) finished inPlan
  have column : 1 ≤ plan.2.column :=
    numberCells_positive (Nat.le_refl 1) (rowCells e) _ numbered
  have narrow : maxColumns ≤ Text.Numeral.maxWord32 := by decide
  have whole : InsertionLog.bounded (col + plan.2.outcome.extraColumns) =
      col + plan.2.outcome.extraColumns :=
    InsertionLog.bounded_eq (by omega)
  have same : InsertionLog.bounded col = col := if_pos (by omega)
  exact ⟨column, right, by omega, by omega⟩

/-! ## The cells of a group -/

/-- A cell with a formula in the first copy of its row. -/
def CellAt.firstCopy (options : FillOptions) (log : InsertionLog) (c : CellAt) : CellAt :=
  ⟨log.firstRow c.row, log.firstColumn c.row c.col,
    (firstFormula log (formulaTemplate options c.cell)).setAttr "r"
      (CellAddress.label (log.firstRow c.row + 1) (log.firstColumn c.row c.col + 1))⟩

theorem group_firstCopy (id : String) (options : FillOptions) (log : InsertionLog) (c : CellAt) :
    inGroupOf id (c.firstCopy options log).cell = inGroupOf id c.cell ∧
      leadsGroup id (c.firstCopy options log).cell = leadsGroup id c.cell := by
  obtain ⟨group, leads⟩ := group_firstFormula id log (formulaTemplate options c.cell)
  obtain ⟨group', leads'⟩ := group_formulaTemplate id options c.cell
  exact ⟨group.trans group', leads.trans leads'⟩

/-- If each element of a list gives one element that counts or none, then those that count are given
by those that give one. -/
theorem filter_flatMap_eq_map {α β : Type} {p : β → Bool} {q : α → Bool} {f : α → List β}
    {g : α → β} {list : List α}
    (single : ∀ a ∈ list, (f a).filter p = if q a then [g a] else []) :
    (list.flatMap f).filter p = (list.filter q).map g := by
  induction list with
  | nil => rfl
  | cons a list ih =>
      obtain ⟨first, rest⟩ := List.forall_mem_cons.mp single
      rw [List.flatMap_cons, List.filter_append, first, ih rest, List.filter_cons]
      split
      · rfl
      · rfl

theorem filter_placedAt_first {number : Nat} {cell : Element × TemplateCell}
    (plan : (cell.2.outcome, cell.2.template) = planCell table data cell.1)
    (near : cell.2.place ≤ maxColumns)
    (place : cell.2.place = log.firstColumn (number - 1) (cell.2.column - 1) + 1) :
    (placedAt options final log number 0 (log.firstRow (number - 1) + 1) cell.2).filter
        (fun c => inGroupOf id c.cell) =
      if inGroupOf id cell.1 then
        [CellAt.firstCopy options log ⟨number - 1, cell.2.column - 1, cell.1⟩] else [] := by
  by_cases formula : cell.1.hasChild "f" = true
  · have one : placedAt options final log number 0 (log.firstRow (number - 1) + 1) cell.2 =
        [CellAt.firstCopy options log ⟨number - 1, cell.2.column - 1, cell.1⟩] := by
      rw [placedAt, placeCell_formula plan formula (Nat.not_lt.mpr near), place]
      rfl
    rw [one, List.filter_singleton, (group_firstCopy id options log _).1, Bool.cond_eq_ite]
  · have noFormula := Bool.eq_false_of_not_eq_true formula
    have none : inGroupOf id cell.1 = false := by
      rw [inGroupOf, formulas_of_none (Element.child?_of_noChild noFormula)]
      rfl
    rw [none, if_neg Bool.false_ne_true, List.filter_eq_nil_iff]
    intro c mem
    obtain ⟨placed, source, rfl⟩ := List.mem_map.mp mem
    rw [PlacedCell.at, inGroupOf, formulas_of_none (child?_f_placeCell plan noFormula placed source)]
    exact Bool.false_ne_true

theorem cellsIn_planCells (table : StringTable) (data : Value) (number : Nat) (row : Element) :
    cellsIn number row = (planCells table data 0 (numberCells 1 (rowCells row))).map fun cell =>
      ⟨number - 1, cell.2.column - 1, cell.1⟩ := by
  rw [cellsIn]
  conv_lhs => rw [← map_fst_planCells table data 0 (numberCells 1 (rowCells row))]
  rw [List.map_map]
  rfl

theorem filter_inGroupOf_later {number copy placed : Nat} {row : Element} (later : copy ≠ 0)
    (single : ∀ cell ∈ rowCells row, (formulas cell).length ≤ 1) :
    ((planCells table data 0 (numberCells 1 (rowCells row))).flatMap fun cell =>
        placedAt options final log number copy placed cell.2).filter
          (fun c => inGroupOf id c.cell) = [] := by
  rw [List.filter_eq_nil_iff]
  intro c mem group
  obtain ⟨cell, inPlan, mem⟩ := List.mem_flatMap.mp mem
  obtain ⟨placed, source, rfl⟩ := List.mem_map.mp mem
  have group := inAnyGroup_of_inGroupOf group
  obtain ⟨numbered, plan⟩ := of_mem_planCells inPlan
  rw [PlacedCell.at, inAnyGroup_placeCell later plan (single _ (snd_mem_numberCells numbered))
    placed source] at group
  cases group

section Row

variable {offset number : Nat} {row : Element} (stands : StandsAt data table log offset number row)

include stands

/-- The cells of the copies of a row. -/
theorem cellsIn_copies :
    ((rowTrace options data table final log offset number row).copies.flatMap fun copy =>
        cellsIn ((rowNumber? copy.written).getD 0) copy.written) =
      (List.range (TemplateRow.ofRow table data 0 number row).copyCount).flatMap fun k =>
        (planCells table data 0 (numberCells 1 (rowCells row))).flatMap fun cell =>
          placedAt options final log number k (number + offset + k) cell.2 := by
  have positive := stands.positive
  have all : (List.range (TemplateRow.ofRow table data 0 number row).copyCount).filter
      (fun copy => number + offset + copy ≤ maxRows) =
        List.range (TemplateRow.ofRow table data 0 number row).copyCount :=
    List.filter_eq_self.mpr fun k mem =>
      decide_eq_true (stands.copies k (List.mem_range.mp mem))
  rw [rowTrace, all, List.flatMap_map]
  refine List.flatMap_congr fun k mem => ?_
  have inside := stands.copies k (List.mem_range.mp mem)
  rw [rowNumber?_copyTrace (by omega) inside, Option.getD_some]
  exact cellsIn_copyRow (by omega) inside

theorem filter_inGroupOf_first :
    ((planCells table data 0 (numberCells 1 (rowCells row))).flatMap fun cell =>
        placedAt options final log number 0 (number + offset + 0) cell.2).filter
          (fun c => inGroupOf id c.cell) =
      ((cellsIn number row).filter fun c => inGroupOf id c.cell).map
        (CellAt.firstCopy options log) := by
  rw [cellsIn_planCells table data, List.filter_map, List.map_map]
  refine filter_flatMap_eq_map fun cell mem => ?_
  obtain ⟨-, -, place, near⟩ := stands.cells cell mem
  rw [Nat.add_zero, stands.first]
  exact filter_placedAt_first (of_mem_planCells mem).2 near place

/-- The cells of a group in the copies of a row are those of its first copy. -/
theorem filter_inGroupOf_rowTrace (single : ∀ cell ∈ rowCells row, (formulas cell).length ≤ 1) :
    ((rowTrace options data table final log offset number row).copies.flatMap fun copy =>
        cellsIn ((rowNumber? copy.written).getD 0) copy.written).filter
          (fun c => inGroupOf id c.cell) =
      ((cellsIn number row).filter fun c => inGroupOf id c.cell).map
        (CellAt.firstCopy options log) := by
  obtain ⟨more, count⟩ := Nat.exists_eq_add_of_le'
    (TemplateRow.ofRow table data 0 number row).one_le_copyCount
  rw [cellsIn_copies stands, count, List.range_succ_eq_map, List.flatMap_cons, List.filter_append,
    filter_inGroupOf_first stands, List.filter_flatMap]
  have none : (List.map Nat.succ (List.range more)).flatMap (fun k =>
      ((planCells table data 0 (numberCells 1 (rowCells row))).flatMap fun cell =>
        placedAt options final log number k (number + offset + k) cell.2).filter
          fun c => inGroupOf id c.cell) = [] := by
    rw [List.flatMap_eq_nil_iff]
    intro k isLater
    obtain ⟨j, -, rfl⟩ := List.mem_map.mp isLater
    exact filter_inGroupOf_later (Nat.succ_ne_zero j) single
  rw [none, List.append_nil]

end Row

/-- The cells of a group in a filled worksheet are the first copies of those in the template. -/
theorem filter_inGroupOf_fillSheet (ordered : SheetInOrder template)
    (room : HasRoom (fillSheet options data table template).1.log template)
    (single : ∀ row ∈ sheetRows template, ∀ cell ∈ rowCells row, (formulas cell).length ≤ 1)
    (id : String) :
    (cellsAt (fillSheet options data table template).1.document).filter
        (fun c => inGroupOf id c.cell) =
      ((cellsAt template).filter fun c => inGroupOf id c.cell).map
        (CellAt.firstCopy options (fillSheet options data table template).1.log) := by
  have rows : (fillTrace options data table (fillSheet options data table template).2 template).map
      (fun row => (row.number, row.template)) = numberRows 1 (sheetRows template) :=
    map_traceRows 0 _
  rw [cellsAt_fillSheet (.refl _), List.filter_flatMap, cellsAt, ← rows,
    List.flatMap_map, List.filter_flatMap, List.map_flatMap]
  refine List.flatMap_congr fun row mem => ?_
  obtain ⟨offset, number, e, source, rfl, stands⟩ := exists_standsAt ordered room mem
  exact filter_inGroupOf_rowTrace stands (single e (snd_mem_numberRows source))

/-- In the first copy of a row a range follows the first copies of its corners. -/
theorem formulaRange?_firstFormula {cell : Element} {range : CellRange} (options : FillOptions)
    (log : InsertionLog) (found : formulaRange? cell = some range) :
    formulaRange? (firstFormula log (formulaTemplate options cell)) =
      some (log.followRange range) := by
  have found' : formulaRange? (formulaTemplate options cell) = some range :=
    (formulaRange?_formulaTemplate options cell).trans found
  rw [firstFormula, found']
  exact formulaRange?_setFormulaRange (hasChild_f_of_formulaRange? found')
    (CellRange.wellFormed_relocate ..)

theorem filter_leadsGroup (id : String) (cells : List CellAt) :
    cells.filter (fun c => leadsGroup id c.cell) =
      (cells.filter fun c => inGroupOf id c.cell).filter fun c => leadsGroup id c.cell := by
  rw [List.filter_filter]
  refine List.filter_congr fun c _ => ?_
  cases leads : leadsGroup id c.cell with
  | false => rfl
  | true => rw [inGroupOf_of_leadsGroup leads, Bool.and_true]

/-- If the cells of a group are the first copies of those in the template, then its master stays its
master. -/
theorem Led.firstCopy {filled : List CellAt} {master : CellAt} {range : CellRange}
    (led : Led (cellsAt template) id master range) (room : HasRoom log template)
    (group : filled.filter (fun c => inGroupOf id c.cell) =
      ((cellsAt template).filter fun c => inGroupOf id c.cell).map
        (CellAt.firstCopy options log)) (keeps : log.KeepsShape range) :
    Led filled id (master.firstCopy options log) (log.followRange range) := by
  have wellFormed := wellFormed_of_formulaRange? led.own
  obtain ⟨rowInside, colInside⟩ := inside_of_mem_cellsAt room led.mem
  rw [← led.row, ← led.col] at colInside
  rw [← led.row] at rowInside
  obtain ⟨row, col⟩ := keeps.start_followRange wellFormed rowInside colInside
  refine ⟨?one, formulaRange?_firstFormula options log led.own, ?row, ?col, ?covers⟩
  case one =>
    have same : (fun c : CellAt => leadsGroup id c.cell) ∘ CellAt.firstCopy options log =
        fun c => leadsGroup id c.cell := funext fun c => (group_firstCopy id options log c).2
    rw [filter_leadsGroup, group, List.filter_map, same, ← filter_leadsGroup, led.one]
    rfl
  case row => exact row.trans (congrArg log.firstRow led.row)
  case col => exact col.trans (congrArg₂ log.firstColumn led.row led.col)
  case covers =>
    intro c mem inGroup
    have member : c ∈ filled.filter fun c => inGroupOf id c.cell :=
      List.mem_filter.mpr ⟨mem, inGroup⟩
    rw [group] at member
    obtain ⟨source, isSource, rfl⟩ := List.mem_map.mp member
    obtain ⟨inTemplate, inGroup⟩ := List.mem_filter.mp isSource
    obtain ⟨rowInside, colInside⟩ := inside_of_mem_cellsAt room inTemplate
    exact keeps.covers_followRange wellFormed (led.covers source inTemplate inGroup) rowInside
      colInside

/-! ## Ranges of other formulas -/

/-- A range that starts at its cell does so in every copy of the row. -/
theorem rangeStartsAt_placedFormula {offset number copy : Nat} {row : Element}
    (stands : StandsAt data table log offset number row)
    (inside : copy < (TemplateRow.ofRow table data 0 number row).copyCount)
    {cell : Element × TemplateCell}
    (mem : cell ∈ planCells table data 0 (numberCells 1 (rowCells row)))
    (alone : inGroup cell.1 = false) {range : CellRange}
    (own : formulaRange? cell.1 = some range) (isRow : range.start.row = number - 1)
    (isCol : range.start.col = cell.2.column - 1) (keeps : log.KeepsShape range) :
    RangeStartsAt (placedFormula options log number copy (number + offset + copy) cell)
      (number + offset + copy - 1) (cell.2.place - 1) := by
  have wellFormed := wellFormed_of_formulaRange? own
  have room := stands.copies copy inside
  obtain ⟨positive, right, place, near⟩ := stands.cells cell mem
  have first := stands.first
  have one := stands.positive
  rw [placedFormula]
  split
  · refine ⟨_, formulaRange?_firstFormula options log own, ?_⟩
    obtain ⟨startRow, startCol⟩ := keeps.start_followRange wellFormed
      (by rw [isRow]; omega) (by rw [isRow, isCol]; omega)
    rw [startRow, startCol, isRow, isCol]
    exact ⟨by omega, by omega⟩
  · have own' : formulaRange? (formulaTemplate options cell.1) = some range :=
      (formulaRange?_formulaTemplate options cell.1).trans own
    have stays : leaveGroup (formulaTemplate options cell.1) = formulaTemplate options cell.1 :=
      leaveGroup_of_alone ((inGroup_formulaTemplate options cell.1).trans alone)
    rw [laterFormula, stays, own']
    refine ⟨_, formulaRange?_setFormulaRange (hasChild_f_of_formulaRange? own')
      (CellRange.wellFormed_relocate ..), ?_⟩
    rw [CellRange.offsetBy, CellRange.start_relocate range
      (Nat.add_le_add_right wellFormed.rows _) (Nat.add_le_add_right wellFormed.cols _)
      (by omega) (by omega)]
    dsimp only
    exact ⟨by omega, by omega⟩

/-- A cell has the address of a place, and the range of its formula starts there. -/
def RangeStartsHere (cell : Element) : Prop :=
  ∃ address, (cell.attr? "r").map CellAddress.read = some (.ok address) ∧
    RangeStartsAt cell address.row address.col

/-- The copies of a cell have the addresses where the ranges of their formulas start. -/
theorem rangeStartsHere_placeCell {offset number copy : Nat} {row : Element}
    (stands : StandsAt data table log offset number row)
    (inside : copy < (TemplateRow.ofRow table data 0 number row).copyCount)
    {cell : Element × TemplateCell}
    (mem : cell ∈ planCells table data 0 (numberCells 1 (rowCells row)))
    (alone : inGroup cell.1 = false)
    (starts : RangeStartsAt cell.1 (number - 1) (cell.2.column - 1))
    (keeps : ∀ range, formulaRange? cell.1 = some range → log.KeepsShape range) :
    ∀ placed ∈ placeCell options log number copy (number + offset + copy) cell.2,
      RangeStartsHere (placed.xml final (number + offset + copy)) := by
  intro placed source
  obtain ⟨range, own, isRow, isCol⟩ := starts
  obtain ⟨positive, right, -, near⟩ := stands.cells cell mem
  rw [placeCell_formula (of_mem_planCells mem).2 (hasChild_f_of_formulaRange? own)
    (Nat.not_lt.mpr near)] at source
  rw [List.mem_singleton.mp source]
  refine ⟨.relative (number + offset + copy - 1) (cell.2.place - 1), ?address, ?range⟩
  case address =>
    have one := stands.positive
    rw [PlacedCell.attr?_xml, Option.map_some, CellAddress.read_label (by omega)
      (stands.copies copy inside) (Nat.le_trans positive right) near]
  case range =>
    exact rangeStartsAt_placedFormula stands inside mem alone own isRow isCol (keeps range own)

end Sheets

/-- Ranges of formulas agree with where cells stand in a filled worksheet whose cells have one
formula at most. If each group of shared formulas has a master in the template, then it has one in
the filled worksheet, and later copies of rows have no formulas of groups. The range of another
formula that starts at its cell does so in all copies of the row. -/
theorem fillSheet_formulas (options : FillOptions) (data : Value) (table : StringTable)
    (template : Document) (ordered : SheetInOrder template) (led : AllLed (cellsAt template))
    (keeps : ∀ c ∈ cellsAt template, ∀ range, formulaRange? c.cell = some range →
      (fillSheet options data table template).1.log.KeepsShape range)
    (room : HasRoom (fillSheet options data table template).1.log template)
    (single : ∀ row ∈ sheetRows template, ∀ cell ∈ rowCells row, (formulas cell).length ≤ 1) :
    let filled := fillSheet options data table template
    let trace := fillTrace options data table filled.2 template
    IsTrace template filled.1.document trace ∧
      (∀ c ∈ cellsAt template, ∀ id, inGroupOf id c.cell = true →
        ∃ master range, Led (cellsAt filled.1.document) id master range) ∧
      ∀ row ∈ trace, ∀ copy ∈ row.copies,
        (copy.copy ≠ 0 → ∀ cell ∈ rowCells copy.written, inAnyGroup cell = false) ∧
        ∀ cell ∈ copy.cells, inAnyGroup cell.template = false →
          RangeStartsAt cell.template (row.number - 1) (cell.column - 1) →
            ∀ written ∈ cell.written, RangeStartsHere written := by
  intro filled trace
  refine ⟨isTrace_fillTrace (.refl _), fun c mem id group => ?_, fun row mem copy inCopies => ?_⟩
  · obtain ⟨master, range, leads⟩ := led c mem id group
    exact ⟨_, _, leads.firstCopy room (filter_inGroupOf_fillSheet ordered room single id)
      (keeps master leads.mem range leads.own)⟩
  · obtain ⟨offset, number, e, source, rfl, stands⟩ := exists_standsAt ordered room mem
    obtain ⟨k, inside, near, rfl⟩ := mem_copies_rowTrace inCopies
    refine ⟨fun later cell inRow => ?later, fun cell inCopy alone starts written isWritten => ?here⟩
    case later =>
      rw [rowCells_copyTrace] at inRow
      obtain ⟨traced, inCopy, isWritten⟩ := List.mem_flatMap.mp inRow
      obtain ⟨plan, inPlan, rfl⟩ := List.mem_map.mp inCopy
      obtain ⟨placed, made, rfl⟩ := List.mem_map.mp isWritten
      obtain ⟨numbered, plan⟩ := of_mem_planCells inPlan
      exact inAnyGroup_placeCell later plan
        (single e (snd_mem_numberRows source) _ (snd_mem_numberCells numbered)) placed made
    case here =>
      obtain ⟨plan, inPlan, rfl⟩ := List.mem_map.mp inCopy
      obtain ⟨placed, made, rfl⟩ := List.mem_map.mp isWritten
      have inTemplate : (⟨number - 1, plan.2.column - 1, plan.1⟩ : CellAt) ∈ cellsAt template :=
        mem_cellsAt.mpr ⟨_, source, _, (of_mem_planCells inPlan).1, rfl⟩
      exact rangeStartsHere_placeCell stands inside inPlan (inGroup_of_alone alone) starts
        (keeps _ inTemplate) placed made

/-- A sheet with a sequence over columns left of an array formula and of a group in one row, and a
table row with an array formula and the master of a group that goes on below it. -/
def groupedSheet : Document :=
  let text (s : String) : Node :=
    .element ⟨"c", [("t", "inlineStr")], [.element ⟨"is", [], [.element ⟨"t", [], [.text s]⟩]⟩]⟩
  let formula (attributes : List (String × String)) (s : String) : Node :=
    .element ⟨"c", [], [.element ⟨"f", attributes, [.text s]⟩]⟩
  ⟨none, ⟨"worksheet", [], [.element ⟨"sheetData", [],
    [.element ⟨"row", [], [text "${xs}", formula [("t", "array"), ("ref", "B1:C1")] "A2:B2",
        formula [] "B1", formula [("t", "shared"), ("ref", "D1:E1"), ("si", "0")] "A1",
        formula [("t", "shared"), ("si", "0")] ""]⟩,
      .element ⟨"row", [], [text "${table:items.name}",
        formula [("t", "array"), ("ref", "B2:B2")] "A2:A2",
        formula [("t", "shared"), ("ref", "C2:C3"), ("si", "1")] "A2"]⟩,
      .element ⟨"row", [], [formula [] "A2", formula [] "A2",
        formula [("t", "shared"), ("si", "1")] ""]⟩]⟩]⟩⟩

theorem fillSheet_formulas_groupedSheet :
    let filled := fillSheet {} grownData (.ofDocument none grownData) groupedSheet
    filled.1.log.extraRows 1 = 1 ∧ filled.1.log.firstColumn 0 3 = 5 ∧
      AllLed (cellsAt groupedSheet) ∧
      (∀ c ∈ cellsAt groupedSheet, ∀ id, inGroupOf id c.cell = true →
        ∃ master range, Led (cellsAt filled.1.document) id master range) ∧
      ∀ row ∈ fillTrace {} grownData (.ofDocument none grownData) filled.2 groupedSheet,
        ∀ copy ∈ row.copies,
          (copy.copy ≠ 0 → ∀ cell ∈ rowCells copy.written, inAnyGroup cell = false) ∧
          ∀ cell ∈ copy.cells, inAnyGroup cell.template = false →
            RangeStartsAt cell.template (row.number - 1) (cell.column - 1) →
              ∀ written ∈ cell.written, RangeStartsHere written := by
  have grown : (fillSheet {} grownData (.ofDocument none grownData) groupedSheet).1.log.extraRows 1
      = 1 := by decide +kernel
  have moved : (fillSheet {} grownData (.ofDocument none grownData)
      groupedSheet).1.log.firstColumn 0 3 = 5 := by decide +kernel
  have ordered : SheetInOrder groupedSheet := by decide +kernel
  have led : AllLed (cellsAt groupedSheet) := by decide +kernel
  have keeps : ∀ c ∈ cellsAt groupedSheet, ∀ range ∈ formulaRange? c.cell,
      (fillSheet {} grownData (.ofDocument none grownData) groupedSheet).1.log.KeepsShape range := by
    decide +kernel
  have room : HasRoom (fillSheet {} grownData (.ofDocument none grownData) groupedSheet).1.log
      groupedSheet := by decide +kernel
  have single : ∀ row ∈ sheetRows groupedSheet, ∀ cell ∈ rowCells row,
      (formulas cell).length ≤ 1 := by decide +kernel
  exact ⟨grown, moved, led,
    (fillSheet_formulas {} grownData _ groupedSheet ordered led keeps room single).2⟩

/-- A row of a table with a cell that has two formulas of a group, of which the first one is the
master. -/
def doubledSheet : Document :=
  ⟨none, ⟨"worksheet", [], [.element ⟨"sheetData", [], [.element ⟨"row", [("r", "1")],
    [inlineCell "A1" "${table:xs}" [],
      .element ⟨"c", [("r", "B1")],
        [.element ⟨"f", [("t", "shared"), ("ref", "B1:B1"), ("si", "0")], [.text "A1"]⟩,
          .element ⟨"f", [("t", "shared"), ("si", "0")], []⟩]⟩]⟩]⟩]⟩⟩

/-- A later copy takes only the first formula of a cell out of its group. So a cell with two stays in
it, in a sheet that has a master for the group and room for all its cells. -/
theorem inAnyGroup_doubledSheet :
    let table := StringTable.ofDocument none grownData
    let filled := fillSheet {} grownData table doubledSheet
    let trace := fillTrace {} grownData table filled.2 doubledSheet
    fillSheet? {} grownData table doubledSheet = some filled ∧ SheetInOrder doubledSheet ∧
      AllLed (cellsAt doubledSheet) ∧
      (∀ c ∈ cellsAt doubledSheet, ∀ range ∈ formulaRange? c.cell, filled.1.log.KeepsShape range) ∧
      HasRoom filled.1.log doubledSheet ∧
      ∃ row ∈ trace, ∃ copy ∈ row.copies, copy.copy ≠ 0 ∧
        ∃ cell ∈ rowCells copy.written, inAnyGroup cell = true := by
  decide +kernel

end SheetFill
