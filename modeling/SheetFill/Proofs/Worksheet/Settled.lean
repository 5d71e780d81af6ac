import SheetFill.Proofs.Worksheet.Static

/-!
# Filling a filled worksheet

Filling settles a worksheet: its rows and cells have their numbers and addresses, no cell has a
placeholder, and the ranges of its formulas are written as they are read. A settled row is static,
and it is tidy already (`SettledRow.tidy`), so a settled worksheet is filled with nothing and stays
as it is, and filling is idempotent (`fillSheet_fillSheet`).

Two kinds of cells would not settle. A formula that leaves its group of shared formulas leaves its
cell behind, which is then planned by its type; and a text that is filled in where it stands may
come out with a placeholder again.
-/

namespace SheetFill

open Xml

/-! ## Settled cells -/

/-- A cell that filling leaves as it is, but for its address. -/
inductive Settled (options : FillOptions) (table : StringTable) (cell : Element) : Prop where
  /-- It has no formula and no placeholder. -/
  | kept (noFormula : cell.hasChild "f" = false) (noPath : solePath? table cell = none)
      (noText : cell.attr? "t" = some "inlineStr" →
        Placeholder.occursIn (inlineText cell) = false)
  /-- It has a formula, with no stored result if that is dropped, and does not point into the
  table. -/
  | formula (formula : cell.hasChild "f" = true) (notShared : cell.attr? "t" ≠ some "s")
      (range : RangeSettled cell)
      (noResult : options.dropStoredResults = true → cell.child? "v" = none)

/-- A settled cell of a row, with its address. -/
structure SettledIn (options : FillOptions) (table : StringTable) (row : Nat) (cell : Element) :
    Prop where
  /-- It is a cell. -/
  name : cell.name = "c"
  /-- It has the address of a place in the row. -/
  address : ∃ column, 0 < column ∧ column ≤ maxColumns ∧
    cell.attr? "r" = some (CellAddress.label row column)
  /-- It is settled. -/
  settled : Settled options table cell

section Cells

variable {options : FillOptions} {data : Value} {table final : StringTable} {cell : Element}

theorem solePath?_setAttr_r (table : StringTable) (cell : Element) (address : String) :
    solePath? table (cell.setAttr "r" address) = solePath? table cell := by
  rw [solePath?, solePath?, cell.attr?_setAttr_of_ne (by decide)]
  rfl

theorem Settled.setAttr_r (settled : Settled options table cell) (address : String) :
    Settled options table (cell.setAttr "r" address) := by
  cases settled with
  | kept noFormula noPath noText =>
      refine .kept noFormula ((solePath?_setAttr_r table cell address).trans noPath) ?_
      rw [cell.attr?_setAttr_of_ne (by decide)]
      exact noText
  | formula formula notShared range noResult =>
      refine .formula formula ?_ range noResult
      rwa [cell.attr?_setAttr_of_ne (by decide)]

/-- The kinds of entries are all that a plan takes from the table of strings. -/
theorem Settled.of_entries (settled : Settled options table cell) {later : StringTable}
    (same : later.entries = table.entries) : Settled options later cell := by
  cases settled with
  | kept noFormula noPath noText =>
      refine .kept noFormula ?_ noText
      have kinds : later.kind? = table.kind? := funext fun i => by
        rw [StringTable.kind?, same, StringTable.kind?]
      rwa [solePath?, kinds]
  | formula formula notShared range noResult => exact .formula formula notShared range noResult

theorem noText_of_sole {text body : String} (sole : Placeholder.sole? text = some body) :
    Placeholder.occursIn text = true := by
  rw [Placeholder.sole?] at sole
  split at sole
  · rename_i found
    rw [Placeholder.occursIn, found]
    rfl
  · cases sole

/-- A settled cell points to no entry that is one placeholder. -/
theorem Settled.not_sole (settled : Settled options table cell)
    (isShared : cell.attr? "t" = some "s") (path : DataPath) :
    (sharedIndex? cell).bind table.kind? ≠ some (.sole path) := by
  intro points
  cases settled with
  | kept noFormula noPath noText =>
      rw [solePath?, noFormula, if_neg Bool.false_ne_true, if_pos isShared, points] at noPath
      cases noPath
  | formula formula notShared range noResult => exact notShared isShared

/-- A settled cell has no placeholder. -/
theorem Settled.static (settled : Settled options table cell) : Static table cell := by
  cases settled with
  | kept noFormula noPath noText =>
      refine ⟨noPath, fun _ => noText, fun formula => ?_⟩
      exact absurd (noFormula.symm.trans formula) Bool.false_ne_true
  | formula formula notShared range noResult =>
      refine ⟨?_, fun noFormula => ?_, fun _ => range⟩
      · rw [solePath?, if_pos formula]
      · exact absurd (noFormula.symm.trans formula) Bool.false_ne_true

/-- A settled cell has no stored result that would be dropped. -/
theorem Settled.tidy (settled : Settled options table cell) : tidyCell options cell = cell := by
  rw [tidyCell]
  cases settled with
  | kept noFormula noPath noText => rw [noFormula, if_neg Bool.false_ne_true]
  | formula formula notShared range noResult =>
      rw [if_pos formula, formulaTemplate]
      split
      · exact Element.removeChildren_of_none (noResult ‹_›)
      · rfl

end Cells

/-! ## What cells become -/

section Placed

variable {options : FillOptions} {data : Value} {table final : StringTable} {log : InsertionLog}
  {row copy number : Nat} {cell : Element}

theorem child?_f_setFormulaRange (cell : Element) (range : CellRange) :
    (setFormulaRange cell range).child? "f" = (cell.child? "f").map (·.setAttr "ref" range.text) :=
  cell.child?_modifyChild fun _ same => same

theorem rangeSettled_setFormulaRange (cell : Element) {range : CellRange}
    (wellFormed : range.WellFormed) : RangeSettled (setFormulaRange cell range) := by
  intro reference range' own read
  rw [child?_f_setFormulaRange] at own
  obtain ⟨f, isFormula, ref⟩ := Option.bind_eq_some_iff.mp own
  obtain ⟨old, -, rfl⟩ := Option.map_eq_some_iff.mp isFormula
  rw [Element.attr?_setAttr_self] at ref
  cases ref
  rw [CellRange.read_text wellFormed] at read
  cases read
  rfl

theorem rangeSettled_of_none (none : formulaRange? cell = none) : RangeSettled cell := by
  intro reference range own read
  rw [formulaRange?, own, Option.bind_some, read] at none
  cases none

theorem rangeSettled_firstFormula (log : InsertionLog) (cell : Element) :
    RangeSettled (firstFormula log cell) := by
  rw [firstFormula]
  split
  · exact rangeSettled_setFormulaRange cell (CellRange.wellFormed_relocate ..)
  · exact rangeSettled_of_none ‹_›

theorem rangeSettled_laterFormula (down right : Nat) (cell : Element) :
    RangeSettled (laterFormula down right cell) := by
  rw [laterFormula]
  split
  · exact rangeSettled_setFormulaRange _ (CellRange.wellFormed_relocate ..)
  · exact rangeSettled_of_none ‹_›

/-- What a change of formulas leaves alone: the type of the cell and its other children. -/
structure SameButFormula (cell cell' : Element) : Prop where
  /-- The type is the same. -/
  type : cell'.attr? "t" = cell.attr? "t"
  /-- The stored result is the same. -/
  result : cell'.child? "v" = cell.child? "v"

theorem sameButFormula_setFormulaRange (cell : Element) (range : CellRange) :
    SameButFormula cell (setFormulaRange cell range) :=
  ⟨rfl, cell.child?_modifyChild_of_ne (by decide) fun _ same => same⟩

theorem sameButFormula_leaveGroup (cell : Element) : SameButFormula cell (leaveGroup cell) := by
  rw [leaveGroup]
  split
  · exact ⟨rfl, rfl⟩
  · split
    · exact ⟨rfl, cell.child?_modifyChild_of_ne (by decide) fun _ same => same⟩
    · exact ⟨rfl, cell.child?_removeChildren (by decide)⟩

theorem sameButFormula_firstFormula (log : InsertionLog) (cell : Element) :
    SameButFormula cell (firstFormula log cell) := by
  rw [firstFormula]
  split
  · exact sameButFormula_setFormulaRange cell _
  · exact ⟨rfl, rfl⟩

theorem sameButFormula_laterFormula (down right : Nat) (cell : Element) :
    SameButFormula cell (laterFormula down right cell) := by
  have left := sameButFormula_leaveGroup cell
  rw [laterFormula]
  split
  · rename_i range _
    have moved := sameButFormula_setFormulaRange (leaveGroup cell) (range.offsetBy down right)
    exact ⟨moved.type.trans left.type, moved.result.trans left.result⟩
  · exact left

/-- A cell that filling can settle: a formula does not stand in a cell with a text, and a text that
is filled in where it stands comes out without a placeholder. -/
structure Settleable (data : Value) (cell : Element) : Prop where
  /-- A cell with a formula has no text. -/
  formula : cell.hasChild "f" = true → cell.attr? "t" ≠ some "s" ∧ cell.attr? "t" ≠ some "inlineStr"
  /-- An inline text has no placeholder once it is filled in. -/
  inline : cell.attr? "t" = some "inlineStr" → Placeholder.sole? (inlineText cell) = none →
    Placeholder.occursIn (data.fill (inlineText cell)) = false

instance (data : Value) (cell : Element) : Decidable (Settleable data cell) :=
  decidable_of_iff ((cell.hasChild "f" = true →
      cell.attr? "t" ≠ some "s" ∧ cell.attr? "t" ≠ some "inlineStr") ∧
    (cell.attr? "t" = some "inlineStr" → Placeholder.sole? (inlineText cell) = none →
      Placeholder.occursIn (data.fill (inlineText cell)) = false))
    ⟨fun h => ⟨h.1, h.2⟩, fun h => ⟨h.formula, h.inline⟩⟩

/-- A cell without text is settled once its formula is. -/
theorem settled_of_formula (notShared : cell.attr? "t" ≠ some "s")
    (notInline : cell.attr? "t" ≠ some "inlineStr") (range : RangeSettled cell)
    (noResult : options.dropStoredResults = true → cell.child? "v" = none) :
    Settled options table cell := by
  cases formula : cell.hasChild "f" with
  | true => exact .formula formula notShared range noResult
  | false =>
      refine .kept formula ?_ fun isInline => absurd isInline notInline
      rw [solePath?, formula, if_neg Bool.false_ne_true, if_neg notShared, if_neg notInline]

theorem child?_v_formulaTemplate (drop : options.dropStoredResults = true) :
    (formulaTemplate options cell).child? "v" = none := by
  rw [formulaTemplate, if_pos drop]
  exact cell.child?_removeChildren_self "v"

/-- The cell that a formula becomes is settled. -/
theorem settled_formula (settleable : Settleable data cell) (formula : cell.hasChild "f" = true)
    {placed : Element} (same : SameButFormula (formulaTemplate options cell) placed)
    (range : RangeSettled placed) : Settled options table placed := by
  obtain ⟨notShared, notInline⟩ := settleable.formula formula
  have type : placed.attr? "t" = cell.attr? "t" :=
    same.type.trans (attr?_formulaTemplate options cell "t")
  refine settled_of_formula (type ▸ notShared) (type ▸ notInline) range fun drop => ?_
  rw [same.result, child?_v_formulaTemplate drop]

theorem inlineText_setInlineText (occurs : Placeholder.occursIn (inlineText cell) = true)
    (text : String) : inlineText (setInlineText cell text) = text := by
  cases inside : cell.child? "is" with
  | some inline => rw [inlineText, visibleText_setInlineText inside, Option.getD_some]
  | none =>
      rw [inlineText, inside] at occurs
      exact absurd occurs (Bool.eq_false_iff.mp occursIn_empty)

/-- The cell that a kept cell becomes is settled. -/
theorem settled_kept (settleable : Settleable data cell) (noFormula : cell.hasChild "f" = false)
    (noPath : solePath? table cell = none) :
    Settled options table (planCell table data cell).2 := by
  rw [planCell_eq_kept data noFormula noPath]
  split
  · rename_i both
    obtain ⟨isInline, occurs⟩ := both
    have notShared : cell.attr? "t" ≠ some "s" := by
      rw [isInline]
      decide
    have noBody : Placeholder.sole? (inlineText cell) = none := by
      rw [solePath?, noFormula, if_neg Bool.false_ne_true, if_neg notShared, if_pos isInline,
        Option.map_eq_none_iff] at noPath
      exact noPath
    have filled := inlineText_setInlineText occurs (data.fill (inlineText cell))
    have noText : Placeholder.occursIn (data.fill (inlineText cell)) = false :=
      settleable.inline isInline noBody
    have formula : (setInlineText cell (data.fill (inlineText cell))).hasChild "f" = false := by
      have other : (setInlineText cell (data.fill (inlineText cell))).child? "f" =
          cell.child? "f" := cell.child?_modifyChild_of_ne (by decide) fun _ same => same
      rw [← noFormula, Element.hasChild, Element.hasChild, other]
    refine .kept formula ?_ fun _ => by rw [filled, noText]
    have type : (setInlineText cell (data.fill (inlineText cell))).attr? "t" = some "inlineStr" :=
      isInline
    rw [solePath?, formula, if_neg Bool.false_ne_true, type, if_neg (by decide), if_pos rfl,
      Option.map_eq_none_iff]
    cases sole : Placeholder.sole? (inlineText (setInlineText cell _)) with
    | none => exact sole
    | some body =>
        rw [filled] at sole
        rw [noText_of_sole sole] at noText
        cases noText
  · rename_i other
    exact .kept noFormula noPath fun isInline => Bool.eq_false_iff.mpr fun occurs =>
      other ⟨isInline, occurs⟩

/-- A new string has an index after those of the entries. -/
theorem kind?_intern (table : StringTable) (text : String) {index : Nat}
    (spelled : index = (table.intern text).1) : table.kind? index = none := by
  rw [spelled, StringTable.kind?, StringTable.intern, List.getElem?_eq_none (Nat.le_add_right ..)]
  rfl

theorem sharedIndex?_withValue (empty : cell.children = []) {n index : Nat}
    (points : sharedIndex? (withValue cell (Text.Numeral.text n)) = some index) : index = n := by
  have value := value_withValue empty (Text.Numeral.text n)
  obtain ⟨v, isValue, number⟩ := Option.bind_eq_some_iff.mp points
  rw [isValue] at value
  have text : v.text = Text.Numeral.text n := Option.some.inj value
  have read : spelled? (Text.trim v.text.toList) = some index :=
    (Option.filter_eq_some_iff.mp number).1
  rw [text, spelled?_text] at read
  exact (Option.some.inj read).symm

theorem settled_of_noEntry (noFormula : cell.hasChild "f" = false)
    (notInline : cell.attr? "t" ≠ some "inlineStr")
    (noEntry : cell.attr? "t" = some "s" → (sharedIndex? cell).bind table.kind? = none) :
    Settled options table cell := by
  refine .kept noFormula ?_ fun isInline => absurd isInline notInline
  rw [solePath?, noFormula, if_neg Bool.false_ne_true, if_neg notInline]
  split
  · rename_i isShared
    rw [noEntry isShared]
  · rfl

/-- A cell that holds a content is settled: one that points into the table points to a new
string. -/
theorem settled_filled (same : final.entries = table.entries) (template : Element) (row : Nat)
    (column : Nat) (content : Option CellContent) :
    Settled options table (PlacedCell.xml final row ⟨column, .filled template content⟩) := by
  have blank := attr?_t_blankCell template (CellAddress.label row column)
  rcases content with _ | x | b | s
  · show Settled options table (blankCell template (CellAddress.label row column))
    refine settled_of_noEntry rfl ?_ ?_
    · simp [blank]
    · simp [blank]
  · show Settled options table (withValue (blankCell template _) _)
    refine settled_of_noEntry rfl ?_ ?_
    · simp [attr?_withValue, blank]
    · simp [attr?_withValue, blank]
  · show Settled options table (withValue ((blankCell template _).setAttr "t" "b") _)
    refine settled_of_noEntry rfl ?_ ?_
    · simp [attr?_withValue]
    · simp [attr?_withValue]
  · show Settled options table (withValue ((blankCell template _).setAttr "t" "s") _)
    refine settled_of_noEntry rfl ?_ fun _ => ?_
    · simp [attr?_withValue]
    · rw [Option.bind_eq_none_iff]
      intro index points
      have new := kind?_intern final s (sharedIndex?_withValue rfl points)
      rwa [StringTable.kind?, same] at new

/-! ## Placed cells -/

/-- A formula stays the same in all copies but for its range, which is written as it is read. -/
theorem sameButFormula_placedFormula (cell : Element × TemplateCell) :
    SameButFormula (formulaTemplate options cell.1)
      (placedFormula options log row copy number cell) := by
  rw [placedFormula]
  split
  · exact sameButFormula_firstFormula log _
  · exact sameButFormula_laterFormula _ _ _

theorem rangeSettled_placedFormula (cell : Element × TemplateCell) :
    RangeSettled (placedFormula options log row copy number cell) := by
  rw [placedFormula]
  split
  · exact rangeSettled_firstFormula log _
  · exact rangeSettled_laterFormula _ _ _

/-- The cells that a cell becomes are settled. -/
theorem settled_of_mem_placeCell {cell : Element × TemplateCell}
    (settleable : Settleable data cell.1) (same : final.entries = table.entries)
    (plan : (cell.2.outcome, cell.2.template) = planCell table data cell.1) {placed : PlacedCell}
    (mem : placed ∈ placeCell options log row copy number cell.2) :
    Settled options table (placed.xml final number) := by
  rcases placed_cases plan mem with ⟨formula, rfl⟩ | ⟨column, content, rfl⟩ |
    ⟨noFormula, noPath, rfl⟩
  · exact Settled.setAttr_r (settled_formula settleable formula (sameButFormula_placedFormula cell)
      (rangeSettled_placedFormula cell)) _
  · exact settled_filled same cell.1 number column content
  · exact Settled.setAttr_r (settled_kept settleable noFormula noPath) _

end Placed

/-! ## Settled rows -/

/-- A row that filling leaves as it is: its cells are settled in it, and all its nodes are elements,
the cells first. -/
structure SettledRow (options : FillOptions) (table : StringTable) (row : Element) : Prop where
  /-- It is a row. -/
  name : row.name = "row"
  /-- It has the number of a row of a sheet, and its cells are settled there. -/
  number : ∃ number, 0 < number ∧ number ≤ maxRows ∧
    row.attr? "r" = some (Text.Numeral.text number) ∧
    ∀ cell ∈ rowCells row, SettledIn options table number cell
  /-- Its nodes are its cells and the other elements. -/
  children : row.children =
    (rowCells row ++ row.elements.filter fun e => e.name != "c").map Node.element

section Copies

variable {options : FillOptions} {data : Value} {table final : StringTable} {log : InsertionLog}
  {number copy placed : Nat} {row : Element}

theorem settledIn_of_mem_copyRow (settleable : ∀ cell ∈ rowCells row, Settleable data cell)
    (same : final.entries = table.entries) {cell : PlacedCell}
    (mem : cell ∈ ((TemplateRow.ofRow table data 0 number row).copyRow options log copy
      placed).cells) : SettledIn options table placed (cell.xml final placed) := by
  have name : (cell.xml final placed).name = "c" := name_of_mem_copyRow mem
  obtain ⟨positive, inside⟩ := column_of_mem_copyRow mem
  rw [cells_copyRow] at mem
  obtain ⟨planned, source, mem⟩ := List.mem_flatMap.mp mem
  obtain ⟨numbered, plan⟩ := of_mem_planCells source
  have cellOf := snd_mem_numberCells numbered
  exact ⟨name, ⟨cell.column, positive, inside, cell.attr?_xml final placed⟩,
    settled_of_mem_placeCell (settleable _ cellOf) same plan mem⟩

/-- The copies of a row are settled. -/
theorem settledRow_copyRow (settleable : ∀ cell ∈ rowCells row, Settleable data cell)
    (same : final.entries = table.entries) (positive : 0 < placed) (room : placed ≤ maxRows) :
    SettledRow options table
      (((TemplateRow.ofRow table data 0 number row).copyRow options log copy placed).xml
        final) := by
  refine ⟨rfl, ⟨placed, positive, room, PlacedRow.attr?_xml final _, ?_⟩, ?_⟩
  · rw [rowCells_copyRow]
    intro cell mem
    obtain ⟨cell, source, rfl⟩ := List.mem_map.mp mem
    exact settledIn_of_mem_copyRow settleable same source
  · rw [rowCells_copyRow, others_copyRow, ← others_ofRow table data 0 number row]
    rfl

end Copies

/-! ## Filling settled rows -/

section Filling

variable {options : FillOptions} (data : Value) {table : StringTable} {row : Element}

theorem SettledRow.static (settled : SettledRow options table row) : StaticRow table row := by
  obtain ⟨number, positive, room, written, cells⟩ := settled.number
  exact ⟨number, positive, room, written, fun cell mem =>
    ⟨(cells cell mem).address, (cells cell mem).settled.static⟩⟩

/-- A settled row is tidy. -/
theorem SettledRow.tidy (settled : SettledRow options table row) : tidyRow options row = row := by
  obtain ⟨number, -, -, -, cells⟩ := settled.number
  have tidy : (rowCells row).map (tidyCell options) = rowCells row :=
    (List.map_congr_left (g := id) fun cell mem => (cells cell mem).settled.tidy).trans
      (List.map_id _)
  rw [tidyRow, tidy, ← settled.children]
  cases row
  rfl

/-- A settled worksheet is filled with nothing and stays as it is. -/
theorem fillSheet_settled {d : Document}
    (settled : ∀ e ∈ sheetElements d, e.name = "row" → SettledRow options table e)
    (nodes : ∀ sheetData, d.root.child? "sheetData" = some sheetData →
      sheetData.children = sheetData.elements.map Node.element) :
    (fillSheet options data table d).1.log = .empty ∧
      (fillSheet options data table d).1.document = d := by
  obtain ⟨log, -, document⟩ :=
    filled_static data fun e mem isRow => (settled e mem isRow).static
  have tidy : (sheetElements d).map (tidyItem options) = sheetElements d := by
    refine (List.map_congr_left (g := id) fun e mem => ?_).trans (List.map_id _)
    rw [tidyItem]
    split
    · exact (settled e mem ‹_›).tidy
    · rfl
  refine ⟨log, document.trans ?_⟩
  have same : (tidySheet options d).root = d.root := by
    refine Element.modifyChild_of_fixed fun sheetData found => ?_
    rw [sheetElements, found, Option.map_some, Option.getD_some] at tidy
    rw [tidy, ← nodes sheetData found]
    cases sheetData
    rfl
  exact congrArg (Document.mk d.declaration) same

end Filling

/-! ## Filling twice -/

section Twice

variable {options : FillOptions} {data : Value} {table : StringTable} {template : Document}

/-- The rows of a filled worksheet are settled. -/
theorem settledRow_of_mem_fillSheet
    (settleable : ∀ row ∈ sheetRows template, ∀ cell ∈ rowCells row, Settleable data cell)
    {row : Element}
    (mem : row ∈ sheetRows (fillSheet options data table template).1.document) :
    SettledRow options table row := by
  have trace := isTrace_fillTrace (.refl (fillSheet options data table template).2)
  rw [trace.writtenRows] at mem
  obtain ⟨traced, source, mem⟩ := List.mem_flatMap.mp mem
  obtain ⟨copy, inCopies, rfl⟩ := List.mem_map.mp mem
  obtain ⟨before, after, number, e, split, rfl⟩ := mem_traceRows source
  obtain ⟨k, -, room, rfl⟩ := mem_copies_rowTrace inCopies
  have inside : (number, e) ∈ numberRows 1 (sheetRows template) :=
    List.mem_iff_append.mpr ⟨before, after, split⟩
  have positive := numberRows_positive (Nat.le_refl 1) _ _ inside
  exact settledRow_copyRow (settleable e (snd_mem_numberRows inside))
    (growsTo_fillSheet options data table template).entries (by omega) room

/-- The rows of a filled worksheet stand in an element that has nothing but elements. -/
theorem nodes_fillSheet {sheetData : Element}
    (found : (fillSheet options data table template).1.document.root.child? "sheetData" =
      some sheetData) : sheetData.children = sheetData.elements.map Node.element := by
  have adjusted : (fillSheet options data table template).1.document.root.child? "sheetData" =
      (template.root.child? "sheetData").map fun old =>
        { old with children := (writeItems table (SheetItem.layout options
          (fillSheet options data table template).1.log 0
          (planRows table data 1 (sheetElements template)))).1.map Node.element } := by
    refine (child?_sheetData_adjusted options _ _).trans ?_
    exact template.root.child?_modifyChild fun _ same => same
  rw [adjusted] at found
  obtain ⟨old, -, rfl⟩ := Option.map_eq_some_iff.mp found
  rw [Element.elements_children]

/-- Filling is idempotent: a filled worksheet that is filled again, with a table of the same
entries, gets nothing more and stays as it is, and no sum of the second run is too large. None of
its cells points to an entry that is one placeholder. A worksheet whose numbers leave room for all
insertions is filled, so there is a first run. -/
theorem fillSheet_fillSheet (options : FillOptions) (data : Value) (table later : StringTable)
    (template : Document)
    (settleable : ∀ row ∈ sheetRows template, ∀ cell ∈ rowCells row, Settleable data cell)
    (same : later.entries = table.entries) :
    (Room (planned table data (numberRows 1 (sheetRows template))) →
      (fillSheet? options data table template).isSome = true) ∧
    ∀ filled after, fillSheet? options data table template = some (filled, after) →
      (∃ again last, fillSheet? options data later filled.document = some (again, last) ∧
        again.log = .empty ∧ again.document = filled.document) ∧
      ∀ row ∈ sheetRows filled.document, ∀ cell ∈ rowCells row, cell.attr? "t" = some "s" →
        ∀ path, (sharedIndex? cell).bind later.kind? ≠ some (.sole path) := by
  refine ⟨isSome_fillSheet?_of_room, ?_⟩
  intro filled after run
  obtain rfl := fst_fillSheet_of_fillSheet? run
  have settled : ∀ row ∈ sheetRows (fillSheet options data table template).1.document,
      SettledRow options later row := by
    intro row mem
    obtain ⟨name, ⟨number, positive, room, written, cells⟩, children⟩ :=
      settledRow_of_mem_fillSheet settleable mem
    refine ⟨name, ⟨number, positive, room, written, fun cell mem => ?_⟩, children⟩
    obtain ⟨name, address, settled⟩ := cells cell mem
    exact ⟨name, address, settled.of_entries same⟩
  obtain ⟨log, document⟩ := fillSheet_settled data
    (fun e mem isRow => settled e (List.mem_filter.mpr ⟨mem, beq_of_eq isRow⟩))
    fun sheetData => nodes_fillSheet
  have again : fillSheet? options data later (fillSheet options data table template).1.document =
      some (fillSheet options data later (fillSheet options data table template).1.document) :=
    fillSheet?_of_room (room_static data fun row mem => (settled row mem).static)
  refine ⟨⟨_, _, again, log, document⟩, fun row mem cell mem' isShared path => ?_⟩
  obtain ⟨number, -, -, -, cells⟩ := (settled row mem).number
  exact (cells cell mem').settled.not_sole isShared path

end Twice

/-- A row of a table with formulas, one of them shared by a group, below a row that grows. -/
def growingSheet : Document :=
  let formula (attributes : List (String × String)) : Node :=
    .element ⟨"c", [], [.element ⟨"f", attributes, [.text "A1"]⟩, .element ⟨"v", [], [.text "7"]⟩]⟩
  ⟨none, ⟨"worksheet", [], [.element ⟨"dimension", [("ref", "A1:D7")], []⟩,
    .element ⟨"sheetData", [],
      [.element ⟨"row", [("spans", "1:3")],
        [inlineCell "A1" "${xs}" [], sharedCell "B1" "0", sharedCell "C1" "1"]⟩,
      .text " ",
      .element ⟨"row", [("r", "7")],
        [inlineCell "A7" "${table:items.name}" [],
          formula [("t", "shared"), ("ref", "b7:$B$7"), ("si", "0")],
          formula [("t", "array"), ("ref", "C7")], inlineCell "D7" "Total: ${count}" []]⟩]⟩]⟩⟩

theorem fillSheet_fillSheet_growingSheet :
    let start := StringTable.ofDocument (some greetings) grownData
    let filled := fillSheet {} grownData start growingSheet
    (∀ row ∈ sheetRows growingSheet, ∀ cell ∈ rowCells row, Settleable grownData cell) ∧
      Room (planned start grownData (numberRows 1 (sheetRows growingSheet))) ∧
      fillSheet? {} grownData start growingSheet = some filled ∧
      filled.2.entries = start.entries ∧ filled.1.log.isEmpty = false ∧
      ∃ again last, fillSheet? {} grownData filled.2 filled.1.document = some (again, last) ∧
        again.log = .empty ∧ again.document = filled.1.document := by
  intro start filled
  have settleable : ∀ row ∈ sheetRows growingSheet, ∀ cell ∈ rowCells row,
      Settleable grownData cell := by decide +kernel
  have room : Room (planned start grownData (numberRows 1 (sheetRows growingSheet))) := by
    decide +kernel
  have grows : filled.1.log.isEmpty = false := by decide +kernel
  have same : filled.2.entries = start.entries :=
    (growsTo_fillSheet {} grownData start growingSheet).entries
  have run : fillSheet? {} grownData start growingSheet = some filled := fillSheet?_of_room room
  have twice := fillSheet_fillSheet {} grownData start filled.2 growingSheet settleable same
  exact ⟨settleable, room, run, same, grows, (twice.2 filled.1 filled.2 run).1⟩

end SheetFill
