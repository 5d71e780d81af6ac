import Mathlib.Data.List.Forall2
import SheetFill.Proofs.Worksheet.Copies
import SheetFill.Proofs.Worksheet.Shown

/-!
# Where a text is stored

A text of a template stands in the cell itself or in an item of the shared strings. The two are
filled in at different times, the item when the table of strings is made and the cell when its sheet
is planned. A reader of the filled sheets sees no difference (`fillSheets_stored`): two workbooks
that differ only in where the texts of some cells are stored (`SameSheet`) have the same insertions,
and rows and cells that look the same.

The two runs go side by side. Their tables of strings may have different entries, but the texts that
are added are the same after every cell, and so are the bodies of the placed cells as a reader sees
them.
-/

namespace SheetFill

open Xml

/-! ## Templates that differ in where texts are stored -/

/-- A cell without a formula holds a text. If it points to an item, that item is plain. -/
structure HoldsText (items : List Element) (cell : Element) (text : String) : Prop where
  /-- It is a cell. -/
  isCell : cell.name = "c"
  /-- It has no formula. -/
  noFormula : cell.hasChild "f" = false
  /-- The text is that of the item or that of the cell. -/
  text : templateText? items cell = some text
  /-- The item is plain. -/
  plain : cell.attr? "t" = some "s" → ∀ item ∈ (sharedIndex? cell).bind (items[·]?), PlainItem item

instance (items : List Element) (cell : Element) (text : String) :
    Decidable (HoldsText items cell text) :=
  decidable_of_iff (cell.name = "c" ∧ cell.hasChild "f" = false ∧
      templateText? items cell = some text ∧ (cell.attr? "t" = some "s" →
        ∀ item ∈ (sharedIndex? cell).bind (items[·]?), PlainItem item))
    ⟨fun h => ⟨h.1, h.2.1, h.2.2.1, h.2.2.2⟩, fun h => ⟨h.1, h.2, h.3, h.4⟩⟩

/-- The index of a shared string in a cell, as a reader reads it. -/
def pointer? (cell : Element) : Option Nat :=
  (cell.child? "v").bind fun v => spelled? (Text.trim v.text.toList)

/-- A cell points to the same item in both lists of items, if it points to one. -/
def SameItem (items items' : List Element) (cell : Element) : Prop :=
  cell.attr? "t" = some "s" → items = items' ∨
    ∀ index ∈ pointer? cell, ∃ item, items[index]? = some item ∧ items'[index]? = some item

instance (items items' : List Element) (cell : Element) : Decidable (SameItem items items' cell) :=
  inferInstanceAs (Decidable (cell.attr? "t" = some "s" → items = items' ∨
    ∀ index ∈ pointer? cell, ∃ item, item ∈ items[index]? ∧ items'[index]? = some item))

/-- Two elements of a row are the same, but for where the text of a cell is stored. -/
inductive SameCell (items items' : List Element) : Element → Element → Prop where
  /-- Nothing is different. -/
  | unchanged {cell : Element} (pointed : cell.name = "c" → SameItem items items' cell) :
      SameCell items items' cell cell
  /-- Both cells hold one text, each in its way. -/
  | moved {cell cell' : Element} {text : String} (first : HoldsText items cell text)
      (second : HoldsText items' cell' text)
      (attributes : (cell.removeAttr "t").attributes = (cell'.removeAttr "t").attributes) :
      SameCell items items' cell cell'

/-- Two elements between the rows' tags are the same, but for where texts of cells are stored. -/
inductive SameRow (items items' : List Element) : Element → Element → Prop where
  /-- Both are rows with such cells. -/
  | row {row row' : Element} (isRow : row.name = "row") (isRow' : row'.name = "row")
      (attributes : row.attributes = row'.attributes)
      (cells : List.Forall₂ (SameCell items items') row.elements row'.elements) :
      SameRow items items' row row'
  /-- They are one and the same, and no row. -/
  | other {e : Element} (noRow : e.name ≠ "row") : SameRow items items' e e

/-- A worksheet with other nodes between the rows' tags. -/
def withRows (d : Document) (nodes : List Node) : Document :=
  { d with root := d.root.modifyChild "sheetData" fun e => { e with children := nodes } }

theorem withRows_withRows (d : Document) (nodes others : List Node) :
    withRows (withRows d nodes) others = withRows d others :=
  congrArg (Document.mk d.declaration ·)
    (d.root.modifyChild_modifyChild (f := fun e => { e with children := nodes })
      (fun _ same => same) fun e => { e with children := others })

/-- Two worksheets are the same, but for where texts of cells are stored. -/
structure SameSheet (items items' : List Element) (sheet sheet' : Document) : Prop where
  /-- Around the rows they are the same. -/
  frame : ∃ nodes, sheet' = withRows sheet nodes
  /-- And so are the rows. -/
  rows : List.Forall₂ (SameRow items items') (sheetElements sheet) (sheetElements sheet')

/-! ## Filled sheets that look the same -/

/-- A reader sees the same in two cells, which also have the same address and format. -/
structure LooksLike (texts texts' : List String) (cell cell' : Element) : Prop where
  /-- The names are the same. -/
  name : cell.name = cell'.name
  /-- The attributes are, except for the type. -/
  attributes : (cell.removeAttr "t").attributes = (cell'.removeAttr "t").attributes
  /-- A reader sees the same. -/
  shown : shown texts cell = shown texts' cell'

/-- Two elements of the filled sheets are the same, or rows whose cells look the same. -/
inductive RowsLookAlike (texts texts' : List String) : Element → Element → Prop where
  /-- Both have cells that look the same, and the same other elements after them. -/
  | row {row row' : Element} {cells cells' trailing : List Element} (name : row.name = row'.name)
      (attributes : row.attributes = row'.attributes) (elements : row.elements = cells ++ trailing)
      (elements' : row'.elements = cells' ++ trailing)
      (cells : List.Forall₂ (LooksLike texts texts') cells cells')
      (noCell : ∀ e ∈ trailing, e.name ≠ "c") : RowsLookAlike texts texts' row row'
  /-- They are one and the same, and no row. -/
  | other {e : Element} (noRow : e.name ≠ "row") : RowsLookAlike texts texts' e e

/-- Two filled sheets have the same insertions, and their cells look the same. -/
structure SheetsLookAlike (texts texts' : List String) (sheet sheet' : FilledSheet) : Prop where
  /-- The insertions are the same. -/
  log : sheet.log = sheet'.log
  /-- The templates have the same number of rows. -/
  rowsIn : sheet.rowsIn = sheet'.rowsIn
  /-- The filled sheets have, too. -/
  rowsOut : sheet.rowsOut = sheet'.rowsOut
  /-- Around the rows they are the same. -/
  frame : ∃ nodes, sheet'.document = withRows sheet.document nodes
  /-- Their rows look the same. -/
  rows : List.Forall₂ (RowsLookAlike texts texts') (sheetElements sheet.document)
    (sheetElements sheet'.document)

/-! ## Two tables of strings -/

/-- Tables from two lists of items, with the same texts added. -/
structure Paired (items items' : List Element) (data : Value) (table table' : StringTable) :
    Prop where
  /-- The entries of the first table. -/
  entries : table.entries = items.map (Entry.ofItem data)
  /-- The entries of the second table. -/
  entries' : table'.entries = items'.map (Entry.ofItem data)
  /-- The texts that were added. -/
  added : table.added = table'.added

section Cells

variable {items items' : List Element} {data : Value} {table table' final final' : StringTable}
  {cell cell' : Element}

theorem pointer?_of_sharedIndex? {index : Nat} (points : sharedIndex? cell = some index) :
    pointer? cell = some index := by
  obtain ⟨v, value, number⟩ := Option.bind_eq_some_iff.mp points
  rw [pointer?, value]
  exact (Option.filter_eq_some_iff.mp number).1

theorem Paired.kind? (paired : Paired items items' data table table') (pointed : SameItem items items' cell)
    (isShared : cell.attr? "t" = some "s") :
    (sharedIndex? cell).bind table.kind? = (sharedIndex? cell).bind table'.kind? := by
  cases points : sharedIndex? cell with
  | none => rfl
  | some index =>
      show table.kind? index = table'.kind? index
      rw [StringTable.kind?, StringTable.kind?, paired.entries, paired.entries',
        List.getElem?_map, List.getElem?_map]
      rcases pointed isShared with same | inside
      · rw [same]
      · obtain ⟨item, found, found'⟩ := inside index (pointer?_of_sharedIndex? points)
        rw [found, found']

/-- A cell that points to one item in both lists looks the same with both tables. -/
theorem Paired.shown (paired : Paired items items' data table table')
    (pointed : SameItem items items' cell) :
    shown table.texts cell = shown table'.texts cell := by
  rw [SheetFill.shown, SheetFill.shown]
  split
  · rename_i isShared
    have read : pointer? cell = ((cell.child? "v").map Element.text).bind
        fun v => spelled? (Text.trim v.toList) := by
      rw [pointer?]
      cases cell.child? "v" with
      | none => rfl
      | some v => rfl
    rw [← read]
    cases points : pointer? cell with
    | none => rfl
    | some index =>
        have same : table.texts[index]? = table'.texts[index]? := by
          rw [StringTable.texts, StringTable.texts, paired.entries, paired.entries', paired.added]
          rcases pointed isShared with same | inside
          · rw [same]
          · obtain ⟨item, found, found'⟩ := inside index points
            rw [List.getElem?_append_left, List.getElem?_append_left]
            · simp [found, found']
            · simpa using (List.getElem?_eq_some_iff.mp found').1
            · simpa using (List.getElem?_eq_some_iff.mp found).1
        rw [Option.bind_some, Option.bind_some, same]
  · rfl

/-! ## Plans -/

theorem attributes_planCell (table : StringTable) (data : Value) (cell : Element) :
    (planCell table data cell).2.attributes = cell.attributes := by
  rcases template_planCell table data cell with same | ⟨text, same⟩
  · rw [same]
  · rw [same]
    rfl

/-- Two planned cells become the same, as a reader sees them. -/
structure PlannedAlike (items items' : List Element) (texts texts' : List String)
    (cell cell' : TemplateCell) : Prop where
  /-- They have the same column. -/
  column : cell.column = cell'.column
  /-- They go to the same place. -/
  place : cell.place = cell'.place
  /-- They have the same outcome. -/
  outcome : cell.outcome = cell'.outcome
  /-- The names are the same. -/
  name : cell.template.name = cell'.template.name
  /-- The attributes are, except for the type. -/
  attributes : (cell.template.removeAttr "t").attributes = (cell'.template.removeAttr "t").attributes
  /-- If the cells are kept, a reader sees the same in them. -/
  kept : cell.outcome = .kept →
    SheetFill.shown texts cell.template = SheetFill.shown texts' cell'.template
  /-- If they have a formula, they are one and the same. -/
  formula : cell.outcome = .formula →
    cell.template = cell'.template ∧ SameItem items items' cell.template

/-- A cell that is the same in both templates has one plan. -/
theorem Paired.planCell_unchanged (paired : Paired items items' data table table')
    (pointed : SameItem items items' cell) :
    planCell table data cell = planCell table' data cell := by
  rw [planCell, planCell]
  by_cases isShared : cell.attr? "t" = some "s"
  · rw [paired.kind? pointed isShared]
  · rw [if_neg isShared, if_neg isShared]

/-- A text has the same outcome in both storages, and is seen as the same text if it is kept. -/
theorem Paired.planCell_moved (paired : Paired items items' data table table')
    (later : Paired items items' data final final') {text : String}
    (first : HoldsText items cell text) (second : HoldsText items' cell' text) :
    (planCell table data cell).1 = (planCell table' data cell').1 ∧
      (planCell table data cell).1 ≠ .formula ∧
      ((planCell table data cell).1 = .kept →
        SheetFill.shown final.texts (planCell table data cell).2 =
          SheetFill.shown final'.texts (planCell table' data cell').2) := by
  cases sole : Placeholder.sole? text with
  | some body =>
      have path := solePath?_of_sole paired.entries first.noFormula first.text sole
      have path' := solePath?_of_sole paired.entries' second.noFormula second.text sole
      rw [planCell_path table data cell path, planCell_path table' data cell' path']
      refine ⟨rfl, ofPath_ne_formula _, fun kept => ?_⟩
      have contents := contents?_ofPath data (DataPath.read body) 0
      rw [show Outcome.ofPath data (DataPath.read body) = .kept from kept] at contents
      cases contents
  | none =>
      obtain ⟨template, plan, shown⟩ := planCell_text paired.entries first.plain
        (later.entries.trans paired.entries.symm) first.noFormula first.text sole
      obtain ⟨template', plan', shown'⟩ := planCell_text paired.entries' second.plain
        (later.entries'.trans paired.entries'.symm) second.noFormula second.text sole
      rw [plan, plan']
      exact ⟨rfl, fun formula => (by cases formula), fun _ => shown.trans shown'.symm⟩

theorem SameItem.planCell (pointed : SameItem items items' cell) (table : StringTable)
    (data : Value) : SameItem items items' (planCell table data cell).2 := by
  intro isShared
  rw [Element.attr?, attributes_planCell] at isShared
  change cell.attr? "t" = some "s" at isShared
  have same : (SheetFill.planCell table data cell).2 = cell := by
    rw [SheetFill.planCell]
    split
    · rfl
    · split
      · rfl
      · rfl
  rw [same]
  exact pointed isShared

/-- The plans of two cells that differ in their storage, in the same place. -/
theorem SameCell.planned (same : SameCell items items' cell cell') (isCell : cell.name = "c")
    (paired : Paired items items' data table table')
    (later : Paired items items' data final final') (column place : Nat) :
    PlannedAlike items items' final.texts final'.texts
      ⟨column, place, (planCell table data cell).2, (planCell table data cell).1⟩
      ⟨column, place, (planCell table' data cell').2, (planCell table' data cell').1⟩ := by
  cases same with
  | unchanged pointed =>
      have pointed := pointed isCell
      have template := pointed.planCell table data
      rw [← paired.planCell_unchanged pointed]
      exact ⟨rfl, rfl, rfl, rfl, rfl, fun _ => later.shown template, fun _ => ⟨rfl, template⟩⟩
  | moved first second attributes =>
      obtain ⟨outcome, noFormula, kept⟩ := paired.planCell_moved later first second
      refine ⟨rfl, rfl, outcome, ?_, ?_, kept, fun formula => absurd formula noFormula⟩
      · show (planCell table data cell).2.name = (planCell table' data cell').2.name
        rw [name_planCell, name_planCell, first.isCell, second.isCell]
      · show (planCell table data cell).2.attributes.filter _ =
          (planCell table' data cell').2.attributes.filter _
        rw [attributes_planCell, attributes_planCell]
        exact attributes

theorem name_eq_of_sameCell (same : SameCell items items' cell cell') : cell.name = cell'.name := by
  cases same with
  | unchanged => rfl
  | moved first second => rw [first.isCell, second.isCell]

theorem cellColumn?_eq_of_sameCell (same : SameCell items items' cell cell') :
    cellColumn? cell = cellColumn? cell' := by
  cases same with
  | unchanged => rfl
  | moved first second attributes =>
      have address : cell.attr? "r" = cell'.attr? "r" := by
        have different : "r" ≠ "t" := by decide
        rw [← cell.attr?_removeAttr_of_ne different, ← cell'.attr?_removeAttr_of_ne different,
          Element.attr?, attributes]
        rfl
      rw [cellColumn?, address]
      rfl

/-- The cells of two rows, numbered and planned. -/
theorem forall₂_placeCells (paired : Paired items items' data table table')
    (later : Paired items items' data final final') (offset next : Nat) {cells cells' : List Element}
    (same : List.Forall₂ (SameCell items items') cells cells')
    (named : ∀ cell ∈ cells, cell.name = "c") :
    List.Forall₂ (PlannedAlike items items' final.texts final'.texts)
      (placeCells table data offset (numberCells next cells))
      (placeCells table' data offset (numberCells next cells')) := by
  induction same generalizing offset next with
  | nil => exact .nil
  | @cons cell cell' cells cells' first rest ih =>
      have plan := first.planned (named cell (List.mem_cons_self ..)) paired later
      have outcome : (planCell table data cell).1 = (planCell table' data cell').1 :=
        (plan 0 0).outcome
      rw [numberCells, numberCells, cellColumn?_eq_of_sameCell first]
      refine .cons (plan _ _) ?_
      show List.Forall₂ _ (placeCells table data (offset + (planCell table data cell).1.extraColumns) _)
        (placeCells table' data (offset + (planCell table' data cell').1.extraColumns) _)
      rw [outcome]
      exact ih _ _ fun cell mem => named cell (List.mem_cons_of_mem _ mem)

end Cells

/-! ## Placed cells -/

section Formulas

variable {items items' : List Element} {cell changed : Element}

/-- A change that keeps the type of a cell, and drops its value or keeps it. -/
theorem SameItem.of_value (pointed : SameItem items items' cell)
    (type : changed.attr? "t" = cell.attr? "t")
    (value : changed.child? "v" = none ∨ changed.child? "v" = cell.child? "v") :
    SameItem items items' changed := by
  intro isShared
  rcases pointed (type ▸ isShared) with same | inside
  · exact .inl same
  · refine .inr fun index points => ?_
    rw [pointer?] at points
    rcases value with dropped | kept
    · rw [dropped] at points
      cases points
    · rw [kept] at points
      exact inside index points

theorem SameItem.formulaTemplate (pointed : SameItem items items' cell) (options : FillOptions) :
    SameItem items items' (formulaTemplate options cell) := by
  rw [SheetFill.formulaTemplate]
  split
  · exact pointed.of_value rfl (.inl (cell.child?_removeChildren_self "v"))
  · exact pointed

theorem SameItem.setFormulaRange (pointed : SameItem items items' cell) (range : CellRange) :
    SameItem items items' (setFormulaRange cell range) :=
  pointed.of_value rfl (.inr (cell.child?_modifyChild_of_ne (by decide) fun _ same => same))

theorem SameItem.firstFormula (pointed : SameItem items items' cell) (log : InsertionLog) :
    SameItem items items' (firstFormula log cell) := by
  rw [SheetFill.firstFormula]
  split
  · exact pointed.setFormulaRange _
  · exact pointed

theorem SameItem.leaveGroup (pointed : SameItem items items' cell) :
    SameItem items items' (leaveGroup cell) := by
  rw [SheetFill.leaveGroup]
  split
  · exact pointed
  · split
    · exact pointed.of_value rfl
        (.inr (cell.child?_modifyChild_of_ne (by decide) fun _ same => same))
    · exact pointed.of_value rfl (.inr (cell.child?_removeChildren (by decide)))

theorem SameItem.laterFormula (pointed : SameItem items items' cell) (down right : Nat) :
    SameItem items items' (laterFormula down right cell) := by
  simp only [SheetFill.laterFormula]
  split
  · exact pointed.leaveGroup.setFormulaRange _
  · exact pointed.leaveGroup

end Formulas

/-- Two bodies of placed cells look the same. -/
inductive BodyAlike (texts texts' : List String) : CellBody → CellBody → Prop where
  /-- Cells of the templates that look the same. -/
  | copied {template template' : Element} (looks : LooksLike texts texts' template template') :
      BodyAlike texts texts' (.copied template) (.copied template')
  /-- Cells with formulas that look the same. -/
  | formula {template template' : Element} (looks : LooksLike texts texts' template template') :
      BodyAlike texts texts' (.formula template) (.formula template')
  /-- One content in two cells that are the same but for what they hold. -/
  | filled {template template' : Element} (name : template.name = template'.name)
      (attributes : (template.removeAttr "t").attributes = (template'.removeAttr "t").attributes)
      (content : Option CellContent) :
      BodyAlike texts texts' (.filled template content) (.filled template' content)

/-- Two placed cells look the same. -/
structure PlacedAlike (texts texts' : List String) (cell cell' : PlacedCell) : Prop where
  /-- They have the same column. -/
  column : cell.column = cell'.column
  /-- Their bodies look the same. -/
  body : BodyAlike texts texts' cell.body cell'.body

section Placed

variable {items items' : List Element} {data : Value} {final final' : StringTable}
  {options : FillOptions} {log : InsertionLog} {row copy number : Nat} {cell cell' : TemplateCell}

theorem forall₂_spread {texts texts' : List String} {template template' : Element}
    (name : template.name = template'.name)
    (attributes : (template.removeAttr "t").attributes = (template'.removeAttr "t").attributes)
    (column : Nat) (contents : List (Option CellContent)) :
    List.Forall₂ (PlacedAlike texts texts') (spread template column contents)
      (spread template' column contents) := by
  induction contents generalizing column with
  | nil => exact .nil
  | cons content contents ih =>
      rw [spread, spread]
      split
      · exact .nil
      · exact .cons ⟨rfl, .filled name attributes content⟩ (ih _)

/-- Two planned cells with the same outcome are placed the same way. -/
theorem forall₂_placeCell (later : Paired items items' data final final')
    (alike : PlannedAlike items items' final.texts final'.texts cell cell') :
    List.Forall₂ (PlacedAlike final.texts final'.texts)
      (placeCell options log row copy number cell)
      (placeCell options log row copy number cell') := by
  obtain ⟨column, place, template, outcome⟩ := cell
  obtain ⟨column', place', template', outcome'⟩ := cell'
  obtain ⟨rfl, rfl, rfl, name, attributes, kept, formula⟩ := alike
  rw [placeCell, placeCell]
  by_cases far : maxColumns < place
  · rw [if_pos far, if_pos far]
    exact .nil
  · rw [if_neg far, if_neg far]
    cases outcome with
    | kept => exact .cons ⟨rfl, .copied ⟨name, attributes, kept rfl⟩⟩ .nil
    | formula =>
        obtain ⟨rfl, pointed⟩ := formula rfl
        refine .cons ⟨rfl, .formula ⟨rfl, rfl, later.shown ?_⟩⟩ .nil
        dsimp only
        split
        · exact (pointed.formulaTemplate options).firstFormula log
        · exact (pointed.formulaTemplate options).laterFormula _ _
    | one content => exact .cons ⟨rfl, .filled name attributes content⟩ .nil
    | across contents =>
        cases contents with
        | nil => exact .cons ⟨rfl, .filled name attributes none⟩ .nil
        | cons content contents => exact forall₂_spread name attributes _ _
    | down contents => exact .cons ⟨rfl, .filled name attributes _⟩ .nil

end Placed

/-! ## Planned rows -/

/-- Two planned rows become the same, as a reader sees them. -/
structure PlannedRowsAlike (items items' : List Element) (texts texts' : List String)
    (row row' : TemplateRow) : Prop where
  /-- They have the same number. -/
  number : row.number = row'.number
  /-- They have the same attributes. -/
  attributes : row.attributes = row'.attributes
  /-- Their cells become the same. -/
  cells : List.Forall₂ (PlannedAlike items items' texts texts') row.cells row'.cells
  /-- They have the same other elements. -/
  trailing : row.trailing = row'.trailing
  /-- None of which is a cell. -/
  noCell : ∀ e ∈ row.trailing, e.name ≠ "c"

/-- Two planned elements become the same, as a reader sees them. -/
inductive PlannedItemsAlike (items items' : List Element) (texts texts' : List String) :
    SheetItem → SheetItem → Prop where
  /-- Rows that become the same. -/
  | row {row row' : TemplateRow} (alike : PlannedRowsAlike items items' texts texts' row row') :
      PlannedItemsAlike items items' texts texts' (.row row) (.row row')
  /-- One element that is no row. -/
  | other {e : Element} (noRow : e.name ≠ "row") :
      PlannedItemsAlike items items' texts texts' (.other e) (.other e)

section Rows

variable {items items' : List Element} {data : Value} {table table' final final' : StringTable}

theorem forall₂_filter_cells {elements elements' : List Element}
    (same : List.Forall₂ (SameCell items items') elements elements') :
    List.Forall₂ (SameCell items items') (elements.filter fun e => e.name == "c")
        (elements'.filter fun e => e.name == "c") ∧
      elements.filter (fun e => !(e.name == "c")) =
        elements'.filter fun e => !(e.name == "c") := by
  induction same with
  | nil => exact ⟨.nil, rfl⟩
  | @cons e e' elements elements' first rest ih =>
      have name := name_eq_of_sameCell first
      by_cases isCell : e.name = "c"
      · have isCell' : e'.name = "c" := name ▸ isCell
        simp only [List.filter_cons, isCell, isCell', beq_self_eq_true, if_true, Bool.not_true,
          Bool.false_eq_true, if_false]
        exact ⟨.cons first ih.1, ih.2⟩
      · have same : e = e' := by
          cases first with
          | unchanged => rfl
          | moved first => exact absurd first.isCell isCell
        subst same
        have other : (e.name == "c") = false := beq_false_of_ne isCell
        simp only [List.filter_cons, other, Bool.false_eq_true, if_false, Bool.not_false, if_true]
        exact ⟨ih.1, congrArg _ ih.2⟩

theorem forall₂_planRows (paired : Paired items items' data table table')
    (later : Paired items items' data final final') (next : Nat) {rows rows' : List Element}
    (same : List.Forall₂ (SameRow items items') rows rows') :
    List.Forall₂ (PlannedItemsAlike items items' final.texts final'.texts)
      (planRows table data next rows) (planRows table' data next rows') := by
  induction same generalizing next with
  | nil => exact .nil
  | @cons row row' rows rows' first rest ih =>
      cases first with
      | other noRow =>
          rw [planRows, planRows, if_neg noRow, if_neg noRow]
          exact .cons (.other noRow) (ih _)
      | row isRow isRow' attributes cells =>
          obtain ⟨inRow, trailing⟩ := forall₂_filter_cells cells
          have number : rowNumber? row = rowNumber? row' := by
            rw [rowNumber?, Element.attr?, attributes]
            rfl
          rw [planRows, planRows, if_pos isRow, if_pos isRow', number]
          refine .cons (.row ⟨rfl, attributes, ?_, ?_, ?_⟩) (ih _)
          · rw [cells_ofRow, cells_ofRow]
            exact forall₂_placeCells paired later 0 1 inRow fun cell mem =>
              eq_of_beq (List.mem_filter.mp mem).2
          · rw [TemplateRow.ofRow, TemplateRow.ofRow, List.partition_eq_filter_filter,
              List.partition_eq_filter_filter]
            exact trailing
          · intro e mem
            simpa using trailing_ofRow 0 _ row e mem

end Rows

section Logs

variable {items items' : List Element} {texts texts' : List String}

theorem map_eq_of_forall₂ {α β γ : Type} {r : α → β → Prop} {f : α → γ} {g : β → γ}
    (equal : ∀ a b, r a b → f a = g b) {as : List α} {bs : List β} (related : List.Forall₂ r as bs) :
    as.map f = bs.map g := by
  rw [← List.forall₂_eq_eq_eq, List.forall₂_map_left_iff, List.forall₂_map_right_iff]
  exact related.imp equal

variable {row row' : TemplateRow}

theorem PlannedRowsAlike.counts (alike : PlannedRowsAlike items items' texts texts' row row') :
    row.copyCount = row'.copyCount ∧ row.extraColumns = row'.extraColumns := by
  constructor
  · exact congrArg (List.foldr Nat.max 1)
      (map_eq_of_forall₂ (fun cell cell' same => congrArg Outcome.rowCount same.outcome) alike.cells)
  · exact congrArg (List.foldr (· + ·) 0)
      (map_eq_of_forall₂ (fun cell cell' same => congrArg Outcome.extraColumns same.outcome)
        alike.cells)

theorem PlannedRowsAlike.logInsertions
    (alike : PlannedRowsAlike items items' texts texts' row row') (log : InsertionLog) :
    row.logInsertions log = row'.logInsertions log := by
  have columns : row.logColumns log = row'.logColumns log := by
    rw [TemplateRow.logColumns, TemplateRow.logColumns, alike.number]
    have same := alike.cells
    generalize row.cells = cells at same ⊢
    generalize row'.cells = cells' at same ⊢
    induction same generalizing log with
    | nil => rfl
    | cons first rest ih =>
        rw [List.foldl_cons, List.foldl_cons, ih, first.column, first.outcome]
  rw [TemplateRow.logInsertions, TemplateRow.logInsertions, columns, alike.number, alike.counts.1]

variable {planned planned' : List SheetItem}

/-- The plans of two sheets have the same insertions and the same number of rows. -/
theorem log_eq (alike : List.Forall₂ (PlannedItemsAlike items items' texts texts') planned planned') :
    SheetItem.log planned = SheetItem.log planned' ∧
      (planned.filterMap SheetItem.row?).length = (planned'.filterMap SheetItem.row?).length := by
  rw [SheetItem.log, SheetItem.log]
  generalize InsertionLog.empty = start
  induction alike generalizing start with
  | nil => exact ⟨rfl, rfl⟩
  | cons first rest ih =>
      cases first with
      | row alike =>
          simp only [List.filterMap_cons, SheetItem.row?, List.foldl_cons, List.length_cons,
            alike.logInsertions]
          exact ⟨(ih _).1, congrArg (· + 1) (ih start).2⟩
      | other => exact ih start

end Logs

/-! ## Placed rows -/

/-- Two placed rows look the same. -/
structure PlacedRowsAlike (texts texts' : List String) (row row' : PlacedRow) : Prop where
  /-- They have the same number. -/
  number : row.number = row'.number
  /-- They have the same attributes. -/
  attributes : row.attributes = row'.attributes
  /-- Their cells look the same. -/
  cells : List.Forall₂ (PlacedAlike texts texts') row.cells row'.cells
  /-- They have the same other elements. -/
  trailing : row.trailing = row'.trailing
  /-- None of which is a cell. -/
  noCell : ∀ e ∈ row.trailing, e.name ≠ "c"

/-- Two placed elements look the same. -/
inductive PlacedItemsAlike (texts texts' : List String) : PlacedItem → PlacedItem → Prop where
  /-- Rows that look the same. -/
  | row {row row' : PlacedRow} (alike : PlacedRowsAlike texts texts' row row') :
      PlacedItemsAlike texts texts' (.row row) (.row row')
  /-- One element that is no row. -/
  | other {e : Element} (noRow : e.name ≠ "row") :
      PlacedItemsAlike texts texts' (.other e) (.other e)

section Layout

variable {items items' : List Element} {data : Value} {final final' : StringTable}
  {options : FillOptions} {log : InsertionLog}

theorem forall₂_copies (later : Paired items items' data final final') {row row' : TemplateRow}
    (alike : PlannedRowsAlike items items' final.texts final'.texts row row') (offset : Nat) :
    List.Forall₂ (PlacedRowsAlike final.texts final'.texts) (row.copies options log offset)
      (row'.copies options log offset) := by
  rw [TemplateRow.copies, TemplateRow.copies, alike.counts.1, alike.number,
    List.forall₂_map_left_iff, List.forall₂_map_right_iff, List.forall₂_same]
  intro copy _
  refine ⟨rfl, ?_, ?_, alike.trailing, alike.noCell⟩
  · rw [TemplateRow.copyRow, TemplateRow.copyRow, alike.counts.2, alike.attributes]
  · rw [TemplateRow.copyRow, TemplateRow.copyRow, alike.number]
    have same := alike.cells
    generalize row.cells = cells at same ⊢
    generalize row'.cells = cells' at same ⊢
    induction same with
    | nil => exact .nil
    | cons first rest ih =>
        rw [List.flatMap_cons, List.flatMap_cons]
        exact List.rel_append (forall₂_placeCell later first) ih

theorem forall₂_layout (later : Paired items items' data final final') (offset : Nat)
    {planned planned' : List SheetItem}
    (alike : List.Forall₂ (PlannedItemsAlike items items' final.texts final'.texts) planned
      planned') :
    List.Forall₂ (PlacedItemsAlike final.texts final'.texts)
      (SheetItem.layout options log offset planned)
      (SheetItem.layout options log offset planned') := by
  induction alike generalizing offset with
  | nil => exact .nil
  | cons first rest ih =>
      cases first with
      | other noRow => exact .cons (.other noRow) (ih _)
      | row alike =>
          rw [SheetItem.layout, SheetItem.layout, alike.counts.1]
          refine List.rel_append ?_ (ih _)
          rw [List.forall₂_map_left_iff, List.forall₂_map_right_iff]
          exact (forall₂_copies later alike offset).imp fun _ _ same => .row same

end Layout

/-! ## Written rows -/

section Written

variable {texts texts' : List String}

/-- Bodies that look the same add the same text, if they add one. -/
theorem added_writeCell {table table' : StringTable} (added : table.added = table'.added)
    (row : Nat) {cell cell' : PlacedCell} (alike : PlacedAlike texts texts' cell cell') :
    (writeCell table row cell).2.added = (writeCell table' row cell').2.added := by
  have ofCopied : ∀ (table : StringTable) (template : Element),
      (if template.attr? "t" = some "s" then table.countUse else table).added = table.added := by
    intro table template
    split
    · rfl
    · rfl
  obtain ⟨column, body⟩ := cell
  obtain ⟨column', body'⟩ := cell'
  obtain ⟨-, body⟩ := alike
  cases body with
  | copied looks => exact (ofCopied ..).trans (added.trans (ofCopied ..).symm)
  | formula looks => exact added
  | filled name attributes content =>
      rcases content with _ | _ | _ | text
      · exact added
      · exact added
      · exact added
      · show (table.intern text).2.added = (table'.intern text).2.added
        rw [StringTable.intern, StringTable.intern, added]
        dsimp only
        split
        · exact added
        · rfl

theorem added_writeCells {table table' : StringTable} (added : table.added = table'.added)
    (row : Nat) {cells cells' : List PlacedCell}
    (alike : List.Forall₂ (PlacedAlike texts texts') cells cells') :
    (writeCells table row cells).2.added = (writeCells table' row cells').2.added := by
  induction alike generalizing table table' with
  | nil => exact added
  | cons first rest ih => exact ih (added_writeCell added row first)

theorem added_writeItems {table table' : StringTable} (added : table.added = table'.added)
    {placed placed' : List PlacedItem}
    (alike : List.Forall₂ (PlacedItemsAlike texts texts') placed placed') :
    (writeItems table placed).2.added = (writeItems table' placed').2.added := by
  induction alike generalizing table table' with
  | nil => exact added
  | cons first rest ih =>
      cases first with
      | other noRow => exact ih added
      | @row row row' alike =>
          refine ih ?_
          show (writeCells table row.number row.cells).2.added =
            (writeCells table' row'.number row'.cells).2.added
          rw [← alike.number]
          exact added_writeCells added row.number alike.cells

theorem attributes_blankCell {template template' : Element} (address : String)
    (name : template.name = template'.name)
    (attributes : (template.removeAttr "t").attributes = (template'.removeAttr "t").attributes) :
    blankCell template address = blankCell template' address := by
  rw [blankCell, blankCell, Element.removeAttr_setAttr_of_ne _ (by decide),
    Element.removeAttr_setAttr_of_ne _ (by decide), Element.setAttr, Element.setAttr, attributes]
  exact congrArg (Element.mk · _ _) name

/-- Cells that look the same look the same when they are written. -/
theorem looksLike_xml {final final' : StringTable} (row : Nat) {cell cell' : PlacedCell}
    (alike : PlacedAlike final.texts final'.texts cell cell') (stored : cell.Stored final)
    (stored' : cell'.Stored final') :
    LooksLike final.texts final'.texts (cell.xml final row) (cell'.xml final' row) := by
  have moved : ∀ template template' : Element, LooksLike final.texts final'.texts template template' →
      ∀ address, LooksLike final.texts final'.texts (template.setAttr "r" address)
        (template'.setAttr "r" address) := by
    intro template template' looks address
    refine ⟨looks.name, ?_, ?_⟩
    · rw [Element.removeAttr_setAttr_of_ne _ (by decide), Element.removeAttr_setAttr_of_ne _ (by decide)]
      exact congrArg (Element.setIn "r" address) looks.attributes
    · rw [shown_setAttr_r, shown_setAttr_r]
      exact looks.shown
  obtain ⟨column, body⟩ := cell
  obtain ⟨column', body'⟩ := cell'
  obtain ⟨rfl, body⟩ := alike
  cases body with
  | copied looks => exact moved _ _ looks _
  | formula looks => exact moved _ _ looks _
  | filled name attributes content =>
      refine ⟨?_, ?_, ?_⟩
      · rw [PlacedCell.name_xml, PlacedCell.name_xml]
        exact name
      · have blank := attributes_blankCell (CellAddress.label row column) name attributes
        rcases content with _ | x | _ | text
        · exact congrArg (fun cell : Element => (cell.removeAttr "t").attributes) blank
        · exact congrArg (fun cell => ((withValue cell x.cellText).removeAttr "t").attributes) blank
        · exact congrArg (fun cell : Element => ((cell.setAttr "t" "b").removeAttr "t").attributes)
            blank
        · exact congrArg (fun cell : Element => ((cell.setAttr "t" "s").removeAttr "t").attributes)
            blank
      · rw [shown_xml stored, shown_xml stored']
        rfl

theorem forall₂_xml {final final' : StringTable} {placed placed' : List PlacedItem}
    (alike : List.Forall₂ (PlacedItemsAlike final.texts final'.texts) placed placed')
    (stored : ∀ row ∈ placed.filterMap PlacedItem.row?, ∀ cell ∈ row.cells, cell.Stored final)
    (stored' : ∀ row ∈ placed'.filterMap PlacedItem.row?, ∀ cell ∈ row.cells,
      cell.Stored final') :
    List.Forall₂ (RowsLookAlike final.texts final'.texts) (placed.map (PlacedItem.xml final))
        (placed'.map (PlacedItem.xml final')) ∧
      (placed.filterMap PlacedItem.row?).length = (placed'.filterMap PlacedItem.row?).length := by
  induction alike with
  | nil => exact ⟨.nil, rfl⟩
  | cons first rest ih =>
      cases first with
      | other noRow =>
          obtain ⟨rows, count⟩ := ih stored stored'
          exact ⟨.cons (.other noRow) rows, count⟩
      | @row row row' alike =>
          obtain ⟨rows, count⟩ := ih
            (fun row mem => stored row (List.mem_cons_of_mem _ mem))
            (fun row mem => stored' row (List.mem_cons_of_mem _ mem))
          refine ⟨.cons ?_ rows, congrArg (· + 1) count⟩
          have cells : List.Forall₂ (LooksLike final.texts final'.texts)
              (row.cells.map (PlacedCell.xml final row.number))
              (row'.cells.map (PlacedCell.xml final' row'.number)) := by
            have inRow := stored row (List.mem_cons_self ..)
            have inRow' := stored' row' (List.mem_cons_self ..)
            rw [← alike.number, List.forall₂_map_left_iff, List.forall₂_map_right_iff]
            have same := alike.cells
            generalize row.cells = cells at inRow same ⊢
            generalize row'.cells = cells' at inRow' same ⊢
            induction same with
            | nil => exact .nil
            | cons first others ih =>
                refine .cons (looksLike_xml _ first (inRow _ (List.mem_cons_self ..))
                  (inRow' _ (List.mem_cons_self ..))) ?_
                exact ih (fun cell mem => inRow cell (List.mem_cons_of_mem _ mem))
                  (fun cell mem => inRow' cell (List.mem_cons_of_mem _ mem))
          refine .row rfl ?_ (Element.elements_children ..) ?_ cells alike.noCell
          · show Element.setIn _ _ _ = Element.setIn _ _ _
            rw [alike.number, alike.attributes]
          · rw [alike.trailing]
            exact Element.elements_children ..

end Written

/-! ## Sheets -/

/-- A worksheet with its ranges moved. -/
def adjustParts (options : FillOptions) (log : InsertionLog) (d : Document) : Document :=
  { d with root := if log.isEmpty then d.root else d.root.mapElements (adjustPart options log) }

theorem document_fillSheet (options : FillOptions) (data : Value) (table : StringTable)
    (sheet : Document) :
    ∃ nodes, (fillSheet options data table sheet).1.document =
      adjustParts options (fillSheet options data table sheet).1.log (withRows sheet nodes) :=
  ⟨_, rfl⟩

theorem withRows_adjustParts (options : FillOptions) (log : InsertionLog) (d : Document)
    (nodes : List Node) :
    withRows (adjustParts options log d) nodes = adjustParts options log (withRows d nodes) := by
  refine congrArg (Document.mk d.declaration ·) ?_
  show Element.modifyChild (ite _ _ _) "sheetData" _ = ite _ _ _
  split
  · rfl
  · exact d.root.modifyChild_mapElements (name_adjustPart options log)
      (fun _ same => adjustPart_sheetData options log same) fun _ same => same

section Sheets

variable {items items' : List Element} {data : Value} {table table' final final' : StringTable}
  {options : FillOptions} {sheet sheet' : Document}

/-- The layouts of both sheets look the same. -/
theorem forall₂_sheet (options : FillOptions) (paired : Paired items items' data table table')
    (later : Paired items items' data final final')
    (same : SameSheet items items' sheet sheet') :
    let filled := (fillSheet options data table sheet).1
    let filled' := (fillSheet options data table' sheet').1
    filled.log = filled'.log ∧ filled.rowsIn = filled'.rowsIn ∧
      List.Forall₂ (PlacedItemsAlike final.texts final'.texts)
        (SheetItem.layout options filled.log 0 (planRows table data 1 (sheetElements sheet)))
        (SheetItem.layout options filled'.log 0 (planRows table' data 1 (sheetElements sheet'))) := by
  intro filled filled'
  have plans := forall₂_planRows paired later 1 same.rows
  obtain ⟨log, count⟩ := log_eq plans
  change filled.log = filled'.log at log
  refine ⟨log, count, ?_⟩
  rw [← log]
  exact forall₂_layout later 0 plans

variable (options) in
/-- The same texts are added for both sheets. -/
theorem Paired.fillSheet (paired : Paired items items' data table table')
    (same : SameSheet items items' sheet sheet') :
    Paired items items' data (fillSheet options data table sheet).2
      (fillSheet options data table' sheet').2 where
  entries := (growsTo_fillSheet options data table sheet).entries.trans paired.entries
  entries' := (growsTo_fillSheet options data table' sheet').entries.trans paired.entries'
  added := added_writeItems paired.added (forall₂_sheet options paired paired same).2.2

/-- Around its rows a filled sheet depends on those of the template only through the log. -/
theorem frame_fillSheet (same : SameSheet items items' sheet sheet')
    (log : (fillSheet options data table sheet).1.log = (fillSheet options data table' sheet').1.log) :
    ∃ nodes, (fillSheet options data table' sheet').1.document =
      withRows (fillSheet options data table sheet).1.document nodes := by
  obtain ⟨nodes, rfl⟩ := same.frame
  obtain ⟨written, filled⟩ := document_fillSheet options data table sheet
  obtain ⟨written', filled'⟩ := document_fillSheet options data table' (withRows sheet nodes)
  refine ⟨written', ?_⟩
  rw [filled', filled, ← log, withRows_withRows, withRows_adjustParts, withRows_withRows]

/-- Both filled sheets look the same, with any later tables. -/
theorem sheetsLookAlike_fillSheet (paired : Paired items items' data table table')
    (later : Paired items items' data final final') (same : SameSheet items items' sheet sheet')
    (grown : (fillSheet options data table sheet).2.GrowsTo final)
    (grown' : (fillSheet options data table' sheet').2.GrowsTo final') :
    SheetsLookAlike final.texts final'.texts (fillSheet options data table sheet).1
      (fillSheet options data table' sheet').1 := by
  obtain ⟨log, rowsIn, placed⟩ := forall₂_sheet options paired later same
  obtain ⟨rows, rowsOut⟩ := forall₂_xml placed (writeItems_eq grown).2 (writeItems_eq grown').2
  refine ⟨log, rowsIn, rowsOut, frame_fillSheet same log, ?_⟩
  rw [sheetElements_fillSheet grown, sheetElements_fillSheet grown']
  exact rows

variable (options) in
/-- Worksheets that are filled one after another look the same, with the tables that are written in
the end. -/
theorem sheetsLookAlike_fillSheets (paired : Paired items items' data table table')
    {sheets sheets' : List Document} (same : List.Forall₂ (SameSheet items items') sheets sheets') :
    let filled := fillSheets options data table sheets
    let filled' := fillSheets options data table' sheets'
    Paired items items' data filled.2 filled'.2 ∧
      ∀ final final', Paired items items' data final final' → filled.2.GrowsTo final →
        filled'.2.GrowsTo final' →
          List.Forall₂ (SheetsLookAlike final.texts final'.texts) filled.1 filled'.1 := by
  induction same generalizing table table' with
  | nil => exact ⟨paired, fun _ _ _ _ _ => .nil⟩
  | cons first rest ih =>
      obtain ⟨pairedAfter, others⟩ := ih (paired.fillSheet options first)
      refine ⟨pairedAfter, fun final final' later grown grown' => ?_⟩
      exact .cons (sheetsLookAlike_fillSheet paired later first
        ((growsTo_fillSheets ..).trans grown) ((growsTo_fillSheets ..).trans grown'))
        (others final final' later grown grown')

/-- Where the texts of a template are stored makes no difference to a reader: two workbooks that
differ in that only have the same insertions, and all their rows and cells look the same. -/
theorem fillSheets_stored (options : FillOptions) (data : Value)
    (document document' : Option Document) (sheets sheets' : List Document)
    (same : List.Forall₂ (SameSheet ((document.map sharedItems).getD [])
      ((document'.map sharedItems).getD [])) sheets sheets') :
    let filled := fillSheets options data (.ofDocument document data) sheets
    let filled' := fillSheets options data (.ofDocument document' data) sheets'
    List.Forall₂ (SheetsLookAlike filled.2.texts filled'.2.texts) filled.1 filled'.1 := by
  intro filled filled'
  have entries : ∀ document : Option Document, (StringTable.ofDocument document data).entries =
      ((document.map sharedItems).getD []).map (Entry.ofItem data) := by
    intro document
    cases document with
    | none => rfl
    | some d => rfl
  obtain ⟨later, looks⟩ := sheetsLookAlike_fillSheets options
    ⟨entries document, entries document', rfl⟩ same
  exact looks _ _ later (.refl _) (.refl _)

end Sheets

/-- An item with a format, which both workbooks have. -/
def formattedItem : Node :=
  .element ⟨"si", [], [.element ⟨"r", [], [.element ⟨"rPr", [], []⟩,
    .element ⟨"t", [], [.text "${x} or "]⟩]⟩, .element ⟨"r", [], [.element ⟨"t", [], [.text "z"]⟩]⟩]⟩

/-- Texts that are one placeholder for cells or for rows, that mix one with a mark that is not
closed, and that have none. -/
def storedTexts : List String := ["${xs}", "${table:xs}", "say ${x}, $\x7by", "a < b"]

def formattedStrings : Document := ⟨none, ⟨"sst", [], [formattedItem]⟩⟩

def allStrings : Document :=
  ⟨none, ⟨"sst", [], formattedItem :: storedTexts.map fun text => .element (plainItem text)⟩⟩

/-- A number after cells that hold these texts, all of them or all but one. -/
def inlineSheet : Document :=
  rowSheet [sharedCell "A1" "0", inlineCell "B1" "${xs}" [], inlineCell "D1" "${table:xs}" [],
    inlineCell "E1" "say ${x}, $\x7by" [], inlineCell "F1" "a < b" [],
    .element ⟨"c", [("r", "G1")], [.element ⟨"v", [], [.text "7"]⟩]⟩]

def sharedSheet : Document :=
  rowSheet [sharedCell "A1" "0", sharedCell "B1" "1", sharedCell "D1" "2", sharedCell "E1" "3",
    inlineCell "F1" "a < b" [], .element ⟨"c", [("r", "G1")], [.element ⟨"v", [], [.text "7"]⟩]⟩]

theorem sameSheet_rowSheet {items items' : List Element} {cells cells' : List Node}
    (same : List.Forall₂ (SameCell items items') (cells.filterMap Node.element?)
      (cells'.filterMap Node.element?)) :
    SameSheet items items' (rowSheet cells) (rowSheet cells') where
  frame := ⟨_, rfl⟩
  rows := .cons (.row rfl rfl rfl same) .nil

/-- The second sheet is the same in both workbooks, and the first one differs in three cells. -/
theorem fillSheets_stored_moved :
    let filled := fillSheets {} tableData (.ofDocument (some formattedStrings) tableData)
      [inlineSheet, inlineSheet]
    let filled' := fillSheets {} tableData (.ofDocument (some allStrings) tableData)
      [sharedSheet, inlineSheet]
    (filled.1.map fun sheet =>
        (sheetRows sheet.document).map fun row => (rowCells row).map (shown filled.2.texts)) =
      List.replicate 2
        [[.text "v or z", .text "a", .text "b", .text "a", .text "say v, $\x7by", .text "a < b",
            .value "7"],
          [.text "v or z", .text "a", .text "b", .text "b", .text "say v, $\x7by", .text "a < b",
            .value "7"]] ∧
      List.Forall₂ (SheetsLookAlike filled.2.texts filled'.2.texts) filled.1 filled'.1 := by
  intro filled filled'
  have first : SameSheet (sharedItems formattedStrings) (sharedItems allStrings) inlineSheet
      sharedSheet := by
    refine sameSheet_rowSheet (.cons (.unchanged fun _ => by decide +kernel)
      (.cons (.moved (?_ : HoldsText _ _ "${xs}") ?_ rfl)
      (.cons (.moved (?_ : HoldsText _ _ "${table:xs}") ?_ rfl)
      (.cons (.moved (?_ : HoldsText _ _ "say ${x}, $\x7by") ?_ rfl)
      (.cons (.unchanged fun _ => by decide +kernel)
      (.cons (.unchanged fun _ => by decide +kernel) .nil))))))
    all_goals decide +kernel
  have second : SameSheet (sharedItems formattedStrings) (sharedItems allStrings) inlineSheet
      inlineSheet := by
    refine sameSheet_rowSheet (List.forall₂_same.mpr fun cell mem => .unchanged fun _ => ?_)
    revert cell
    decide +kernel
  refine ⟨by decide +kernel, ?_⟩
  exact fillSheets_stored {} tableData (some formattedStrings) (some allStrings) _ _
    (.cons first (.cons second .nil))

end SheetFill
