import SheetFill.Proofs.Value.Resolve
import SheetFill.Proofs.Worksheet.Copies
import SheetFill.Proofs.Worksheet.Shown

/-!
# Rows of a table

Each placeholder of a row is resolved on its own from the root of the data, and the row is copied by
position. If the placeholders with the table mark lead to fields of one sequence, the row has a copy
for each element, and all placeholders of a copy show fields of the same element
(`fillSheet_table_rows`): a field that an element does not have is null in the resolved sequence
(`Value.resolve_fields`), so no later field moves up. What is no such placeholder is the same in
every copy (`same_cellTrace`).
-/

namespace SheetFill

open Xml

/-! ## Rows over one sequence -/

/-- A row with table placeholders, all of them for fields of one sequence. -/
structure TableUnder (table : StringTable) (data : Value) (start : List PathStep)
    (items : List Value) (row : Element) : Prop where
  /-- The paths start at the sequence. -/
  found : data.resolve start = some (.sequence items)
  /-- A cell is a placeholder with the table mark. -/
  marked : ∃ cell ∈ rowCells row, ∃ path ∈ solePath? table cell, path.table = true
  /-- The path of any such cell goes on from there with a key. -/
  under : ∀ cell ∈ rowCells row, ∀ path ∈ solePath? table cell, path.table = true →
    ∃ key rest, path.steps = start ++ .key key :: rest

/-- What became of such a row. -/
structure ShowsTable (options : FillOptions) (table final : StringTable)
    (start : List PathStep) (items : List Value) (row : RowTrace) : Prop where
  /-- There is a copy for each element, and one if there is none, as far as the sheet has room. -/
  copies : row.copies.map (fun copy => (copy.copy, copy.written.attr? "r")) =
    ((List.range (max 1 items.length)).filter fun k => row.first + k ≤ maxRows).map
      fun k => (k, some (Text.Numeral.text (row.first + k)))
  /-- A placeholder shows a field of the element of its copy, and nothing if there is none. -/
  fields : ∀ copy ∈ row.copies, ∀ cell ∈ copy.cells, ∀ key rest,
    solePath? table cell.template = some ⟨true, start ++ .key key :: rest⟩ →
      cell.written.map (shown final.texts) =
        [Shown.ofContent ((items[copy.copy]?.bind (·.resolve (.key key :: rest))).bind
          Value.cellContent?)].take (maxColumns + 1 - cell.place)
  /-- Any other cell is the same in all copies, if its formula is in no group. -/
  others : ∀ a ∈ row.copies, ∀ b ∈ row.copies, ∀ i : Nat, ∀ c ∈ a.cells[i]?, ∀ d ∈ b.cells[i]?,
    c.template = d.template ∧ c.place = d.place ∧
      ((∀ path ∈ solePath? table c.template, path.table = false) →
        inGroup c.template = false → c.written.map withoutPlace = d.written.map withoutPlace)
  /-- A formula of a group is in the first copy, and leaves the group in all others. -/
  groups : ∀ copy ∈ row.copies, ∀ cell ∈ copy.cells, inGroup cell.template = true →
    cell.written.map withoutPlace =
      [withoutPlace (if copy.copy = 0 then formulaTemplate options cell.template
        else leaveGroup (formulaTemplate options cell.template))].take
          (maxColumns + 1 - cell.place)

/-! ## Contents and counts -/

section Fields

variable {data : Value} {start : List PathStep} {items : List Value}

theorem contentsAt_fields (found : data.resolve start = some (.sequence items)) (key : String)
    (rest : List PathStep) (copy : Nat) :
    contentsAt data ⟨true, start ++ .key key :: rest⟩ copy =
      [(items[copy]?.bind (·.resolve (.key key :: rest))).bind Value.cellContent?] := by
  rw [contentsAt, if_pos rfl, Value.resolve_fields key rest found]
  show [((items.map _)[copy]?).bind _] = _
  rw [List.getElem?_map]
  cases items[copy]? with
  | none => rfl
  | some item =>
      show [((item.resolve (.key key :: rest)).getD .null).cellContent?] =
        [(item.resolve (.key key :: rest)).bind Value.cellContent?]
      cases item.resolve (.key key :: rest) with
      | none => rfl
      | some field => rfl

theorem rowCount_fields (found : data.resolve start = some (.sequence items)) (key : String)
    (rest : List PathStep) :
    (Outcome.ofPath data ⟨true, start ++ .key key :: rest⟩).rowCount = items.length := by
  rw [Outcome.ofPath, if_pos rfl, Value.resolve_fields key rest found]
  show (List.map _ (List.map _ items)).length = _
  rw [List.length_map, List.length_map]

end Fields

theorem rowCount_of_ne_down {outcome : Outcome} (noDown : ∀ contents, outcome ≠ .down contents) :
    outcome.rowCount = 0 := by
  cases outcome with
  | down contents => exact absurd rfl (noDown contents)
  | _ => rfl

theorem foldr_max_of_mem {counts : List Nat} {n : Nat} (bound : ∀ count ∈ counts, count ≤ n)
    (mem : n ∈ counts) : counts.foldr Nat.max 1 = max 1 n := by
  have upper : counts.foldr Nat.max 1 ≤ max 1 n :=
    foldr_max_le (Nat.le_max_left ..) fun count mem =>
      Nat.le_trans (bound count mem) (Nat.le_max_right ..)
  exact Nat.le_antisymm upper (Nat.max_le.mpr ⟨start_le_foldr_max 1 counts, le_foldr_max mem⟩)

theorem map_rowCount_placeCells (table : StringTable) (data : Value) (offset next : Nat)
    (cells : List Element) :
    (placeCells table data offset (numberCells next cells)).map
        (fun cell => cell.outcome.rowCount) =
      cells.map fun cell => (planCell table data cell).1.rowCount := by
  induction cells generalizing offset next with
  | nil => rfl
  | cons cell cells ih => exact congrArg (_ :: ·) (ih _ _)

section Rows

variable {options : FillOptions} {data : Value} {table final : StringTable}
  {start : List PathStep} {items : List Value} {template : Document}

/-- A table placeholder of the row asks for a copy for each element. -/
theorem rowCount_sole {row cell : Element} (under : TableUnder table data start items row)
    (mem : cell ∈ rowCells row) {path : DataPath} (sole : solePath? table cell = some path)
    (mark : path.table = true) : (planCell table data cell).1.rowCount = items.length := by
  obtain ⟨key, rest, steps⟩ := under.under cell mem path sole mark
  obtain ⟨_, _⟩ := path
  cases mark
  cases steps
  rw [planCell_path table data cell sole]
  exact rowCount_fields under.found key rest

/-- No cell of the row asks for more. -/
theorem rowCount_le {row cell : Element} (under : TableUnder table data start items row)
    (mem : cell ∈ rowCells row) : (planCell table data cell).1.rowCount ≤ items.length := by
  obtain ⟨-, plan⟩ | ⟨path, sole, plan⟩ | ⟨-, -, kept⟩ := planCell_cases table data cell
  · rw [plan]
    exact Nat.zero_le _
  · cases mark : path.table with
    | true => exact Nat.le_of_eq (rowCount_sole under mem sole mark)
    | false =>
        rw [plan, rowCount_of_ne_down (ofPath_ne_down mark)]
        exact Nat.zero_le _
  · rw [kept]
    exact Nat.zero_le _

/-- The row has a copy for each element of the sequence, and at least one. -/
theorem copyCount_under {row : Element} (under : TableUnder table data start items row)
    (number : Nat) :
    (TemplateRow.ofRow table data 0 number row).copyCount = max 1 items.length := by
  have counts : (TemplateRow.ofRow table data 0 number row).cells.map
      (fun cell => cell.outcome.rowCount) =
      (rowCells row).map fun cell => (planCell table data cell).1.rowCount := by
    rw [cells_ofRow, map_rowCount_placeCells]
  rw [TemplateRow.copyCount, counts]
  refine foldr_max_of_mem ?_ ?_
  · intro count mem
    obtain ⟨cell, inside, rfl⟩ := List.mem_map.mp mem
    exact rowCount_le under inside
  · obtain ⟨cell, inside, path, sole, mark⟩ := under.marked
    exact List.mem_map.mpr ⟨cell, inside, rowCount_sole under inside sole mark⟩

/-- In a filled worksheet a row over a sequence has a copy for each element, and each copy shows the
fields of its own element. -/
theorem fillSheet_table_rows (options : FillOptions) (data : Value) (table final : StringTable)
    (template : Document) (later : (fillSheet options data table template).2.GrowsTo final) :
    let trace := fillTrace options data table final template
    IsTrace template (fillSheet options data table template).1.document trace ∧
      ∀ row ∈ trace, ∀ start items, TableUnder table data start items row.template →
        ShowsTable options table final start items row := by
  intro trace
  refine ⟨isTrace_fillTrace later, fun row mem start items under => ?_⟩
  obtain ⟨before, after, number, e, split, rfl⟩ := mem_traceRows mem
  constructor
  case copies =>
    have count : (TemplateRow.ofRow table data 0 number e).copyCount = max 1 items.length :=
      copyCount_under under number
    show List.map _ (List.map _ (List.filter _ (List.range _))) = _
    rw [count, List.map_map]
    refine List.map_congr_left fun k _ => ?_
    exact congrArg (Prod.mk k) (PlacedRow.attr?_xml final _)
  case fields =>
    intro copy mem cell mem' key rest sole
    obtain ⟨k, inside, room, rfl⟩ := mem_copies_rowTrace mem
    obtain ⟨cell, source, rfl⟩ := List.mem_map.mp mem'
    -- The path was resolved on its own, and its contents are those of the elements by position.
    have stored := stored_placeCell later split inside room source
    have shows := shown_path (of_mem_planCells source).2 stored sole
    rw [contentsAt_fields under.found] at shows
    exact shows
  case others =>
    intro a mem b mem' i c inA d inB
    obtain ⟨_, _, _, rfl⟩ := mem_copies_rowTrace mem
    obtain ⟨_, _, _, rfl⟩ := mem_copies_rowTrace mem'
    obtain ⟨cell, found, rfl⟩ := getElem?_cells_copyTrace inA
    obtain ⟨cell', found', rfl⟩ := getElem?_cells_copyTrace inB
    -- Both copies were made from one plan, and so the cells at one place have one template.
    cases Option.some.inj (found.symm.trans found')
    exact ⟨rfl, rfl, same_cellTrace (of_mem_planCells (List.mem_of_getElem? found)).2⟩
  case groups =>
    intro copy mem cell mem' group
    obtain ⟨_, _, _, rfl⟩ := mem_copies_rowTrace mem
    obtain ⟨cell, source, rfl⟩ := List.mem_map.mp mem'
    exact group_cellTrace (of_mem_planCells source).2 group

end Rows

/-- Elements that do not all have the same fields. -/
def unevenItems : List Value :=
  [.mapping [("name", .text "p"), ("price", .text "1")], .mapping [("price", .text "2")],
    .mapping [("name", .text "r")]]

def itemData : Value :=
  .mapping [("items", .sequence unevenItems), ("xs", .sequence [.text "x", .text "y"])]

/-- Two fields of each element, a number, and a formula of a group. -/
def itemCells : List Node :=
  [inlineCell "A1" "${table:items.name}" [], inlineCell "B1" "${table:items.price}" [],
    .element ⟨"c", [("r", "C1")], [.element ⟨"v", [], [.text "7"]⟩]⟩,
    .element ⟨"c", [("r", "D1")], [.element ⟨"f", [("t", "shared"), ("si", "0")], []⟩,
      .element ⟨"v", [], [.text "8"]⟩]⟩]

/-- A field of each element in the last column, after a sequence over columns. -/
def pushedCells : List Node :=
  [inlineCell "A1" "${xs}" [], inlineCell "XFD1" "${table:items.name}" []]

/-- The table of strings of a workbook that has none. -/
def noStrings : StringTable := .ofDocument none itemData

theorem tableUnder_items {row : Element}
    (marked : ∃ cell ∈ rowCells row, ∃ path ∈ solePath? noStrings cell, path.table = true)
    (under : ∀ cell ∈ rowCells row, ∀ path ∈ solePath? noStrings cell, path.table = true →
      path.steps = [.key "items", .key "name"] ∨ path.steps = [.key "items", .key "price"]) :
    TableUnder noStrings itemData [.key "items"] unevenItems row where
  found := rfl
  marked := marked
  under := by
    intro cell mem path sole mark
    rcases under cell mem path sole mark with steps | steps
    · exact ⟨"name", [], steps⟩
    · exact ⟨"price", [], steps⟩

theorem fillSheet_table_rows_items :
    let sheet := rowSheet itemCells
    let filled := fillSheet {} itemData noStrings sheet
    let trace := fillTrace {} itemData noStrings filled.2 sheet
    (∀ row ∈ trace, TableUnder noStrings itemData [.key "items"] unevenItems row.template) ∧
      (sheetRows filled.1.document).map (fun row => (rowCells row).map (shown filled.2.texts)) =
        [[.text "p", .text "1", .value "7", .nothing], [.nothing, .text "2", .value "7", .nothing],
          [.text "r", .nothing, .value "7", .nothing]] ∧
      ∀ row ∈ trace, ShowsTable {} noStrings filled.2 [.key "items"] unevenItems row := by
  intro sheet filled trace
  obtain ⟨isTrace, shows⟩ := fillSheet_table_rows {} itemData noStrings filled.2 sheet (.refl _)
  have one : sheetRows sheet = [⟨"row", [("r", "1")], itemCells⟩] := by decide +kernel
  have under : ∀ row ∈ trace,
      TableUnder noStrings itemData [.key "items"] unevenItems row.template := by
    intro row mem
    have source : (row.number, row.template) ∈ numberRows 1 (sheetRows sheet) :=
      isTrace.rows ▸ List.mem_map.mpr ⟨row, mem, rfl⟩
    rw [one] at source
    rw [(Prod.mk.inj (List.mem_singleton.mp source)).2]
    exact tableUnder_items (by decide +kernel) (by decide +kernel)
  refine ⟨under, by decide +kernel, fun row mem => shows row mem _ _ (under row mem)⟩

/-- Not every cell is repeated: a formula of a group is in the first copy only, and a cell that is
pushed out of the sheet is in no copy. -/
theorem not_every_cell_repeated :
    TableUnder noStrings itemData [.key "items"] unevenItems ⟨"row", [("r", "1")], itemCells⟩ ∧
      (sheetRows (fillSheet {} itemData noStrings (rowSheet itemCells)).1.document).map
          (fun row => (rowCells row).map (·.hasChild "f")) =
        [[false, false, false, true], [false, false, false, false],
          [false, false, false, false]] ∧
      TableUnder noStrings itemData [.key "items"] unevenItems ⟨"row", [("r", "1")], pushedCells⟩ ∧
      (sheetRows (fillSheet {} itemData noStrings (rowSheet pushedCells)).1.document).map
          (fun row => (rowCells row).map (·.attr? "r")) =
        [[some "A1", some "B1"], [some "A2", some "B2"], [some "A3", some "B3"]] := by
  refine ⟨tableUnder_items ?_ ?_, ?_, tableUnder_items ?_ ?_, ?_⟩
  all_goals decide +kernel

end SheetFill
