import SheetFill.Proofs.InsertionLog.Tiling
import SheetFill.Proofs.Worksheet.Merges
import SheetFill.Proofs.Worksheet.Placement
import SheetFill.Worksheet.Sums

/-!
# When the sums of a worksheet have 32 bits

Every sum that is taken to fill a worksheet is a number of a row or column of the template, or one
of a sheet, with some of the insertions on top. So all of them have 32 bits if those numbers leave
room for all insertions (`Room`), and then the worksheet is filled (`fillSheet?_of_room`). If a
worksheet is filled then its insertions of rows have been added up (`extraCopies_of_fillSheet?`).
-/

namespace SheetFill

open Xml
open Text.Numeral (maxWord32)

/-! ## Lists of sums -/

theorem fitWords_nil : FitWords [] := fun _ mem => nomatch mem

theorem fitWords_cons {n : Nat} {sums : List Nat} :
    FitWords (n :: sums) ↔ n ≤ maxWord32 ∧ FitWords sums := List.forall_mem_cons

theorem fitWords_singleton {n : Nat} : FitWords [n] ↔ n ≤ maxWord32 := List.forall_mem_singleton

theorem fitWords_pair {m n : Nat} : FitWords [m, n] ↔ m ≤ maxWord32 ∧ n ≤ maxWord32 :=
  fitWords_cons.trans (and_congr_right fun _ => fitWords_singleton)

theorem fitWords_triple {k m n : Nat} :
    FitWords [k, m, n] ↔ k ≤ maxWord32 ∧ m ≤ maxWord32 ∧ n ≤ maxWord32 :=
  fitWords_cons.trans (and_congr_right fun _ => fitWords_pair)

theorem fitWords_append {sums others : List Nat} :
    FitWords (sums ++ others) ↔ FitWords sums ∧ FitWords others := List.forall_mem_append

theorem fitWords_flatMap {α : Type} {items : List α} {f : α → List Nat} :
    FitWords (items.flatMap f) ↔ ∀ item ∈ items, FitWords (f item) := List.forall_mem_flatMap

/-! ## Sums of a log -/

/-- Rows and columns of a sheet have 32 bits, also after all insertions of a log. -/
structure InsertionLog.Room (log : InsertionLog) : Prop where
  /-- The rows have. -/
  rows : ∀ p, maxRows + log.rows.sumWhere p ≤ maxWord32
  /-- The columns of each row have. -/
  cells : ∀ row p, maxColumns + log.columnsWhere row p ≤ maxWord32

namespace PositionMap

theorem le_sumWhere {m : PositionMap Nat} {entry : Nat × Nat} (mem : entry ∈ m.entries) :
    entry.2 ≤ m.sumWhere fun _ => true := by
  rw [sumWhere, List.filter_true]
  exact List.le_sum_of_mem (List.mem_map_of_mem mem)

end PositionMap

namespace InsertionLog

variable {log : InsertionLog} {range : CellRange}

theorem Room.counts (room : log.Room) : FitWords log.counts := by
  refine fitWords_append.mpr ⟨?_, fitWords_flatMap.mpr fun entry mem => ?_⟩
  · intro n mem
    obtain ⟨entry, found, rfl⟩ := List.mem_map.mp mem
    have amount := PositionMap.le_sumWhere found
    have all := room.rows fun _ => true
    omega
  · intro n mem'
    obtain ⟨cell, found, rfl⟩ := List.mem_map.mp mem'
    have amount := PositionMap.le_sumWhere found
    have all := room.cells entry.1 fun _ => true
    rw [columnsWhere, (PositionMap.mem_entries_iff _ _ _).mp mem] at all
    have all : maxColumns + entry.2.sumWhere (fun _ => true) ≤ maxWord32 := all
    omega

theorem Room.cellSums (room : log.Room) (top bottom : Nat) (p : Nat → Bool) :
    FitWords (log.cellSums top bottom p) := by
  intro n mem
  obtain ⟨entry, -, rfl⟩ := List.mem_map.mp mem
  have cells := room.cells entry.1 p
  omega

theorem Room.growSums (room : log.Room) (range : CellRange) : FitWords (log.growSums range) := by
  have first := room.rows (· < range.start.row)
  have last := room.rows (· ≤ range.stop.row)
  have sums := fitWords_pair.mpr ⟨Nat.le_of_add_left_le first, Nat.le_of_add_left_le last⟩
  exact fitWords_append.mpr
    ⟨fitWords_append.mpr ⟨sums, room.cellSums _ _ _⟩, room.cellSums _ _ _⟩

theorem Room.followSums (room : log.Room) (range : CellRange) :
    FitWords (log.followSums range) := by
  have first := room.rows (· < range.start.row)
  have last := room.rows (· < range.stop.row)
  have sums := fitWords_pair.mpr ⟨Nat.le_of_add_left_le first, Nat.le_of_add_left_le last⟩
  exact fitWords_append.mpr
    ⟨fitWords_append.mpr ⟨sums, room.cellSums _ _ _⟩, room.cellSums _ _ _⟩

/-- The last row and column of a range that is carried have 32 bits: each is that of the template
with some insertions on top. -/
theorem Room.carrySums (room : log.Room) (wellFormed : range.WellFormed) :
    FitWords (log.carrySums range) := by
  let shift := log.largestShift range.start.row range.stop.row fun row =>
    log.lastColumn row range.start.col - range.start.col
  have rows := room.rows (· ≤ range.start.row)
  have row : log.lastRow range.start.row ≤
      range.start.row + log.rows.sumWhere (· ≤ range.start.row) := bounded_le _
  have shifted : shift ≤ maxWord32 - maxColumns := by
    refine largestShift_le fun row _ _ => ?_
    have col : log.lastColumn row range.start.col ≤
        range.start.col + log.columnsWhere row (· ≤ range.start.col) := bounded_le _
    have cells := room.cells row (· ≤ range.start.col)
    omega
  have small : maxColumns ≤ maxWord32 := by decide
  have ordered := wellFormed.rows
  have inOrder := wellFormed.cols
  have rowInside := wellFormed.stop.row
  have colInside := wellFormed.stop.col
  have bottom : log.lastRow range.start.row + (range.stop.row - range.start.row) ≤ maxWord32 := by
    omega
  have right : range.start.col + shift + (range.stop.col - range.start.col) ≤ maxWord32 := by omega
  have sums := fitWords_triple.mpr ⟨Nat.le_of_add_left_le rows, bottom, right⟩
  exact fitWords_append.mpr ⟨sums, room.cellSums _ _ _⟩

/-- The last copy of a row of a sheet has a number of 32 bits. -/
theorem Room.lastCopy (room : log.Room) {row : Nat} (inside : row < maxRows) :
    log.firstRow row + log.extraRows row ≤ maxWord32 := by
  have rows := room.rows (· ≤ row)
  have sum := log.rows.sumWhere_le_eq row
  have first : log.firstRow row ≤ row + log.rows.sumWhere (· < row) := bounded_le _
  have extra : log.extraRows row = (log.rows.get? row).getD 0 := rfl
  omega

theorem Room.listSums (room : log.Room) (references : String) :
    FitWords (log.listSums references) := by
  refine fitWords_flatMap.mpr fun item _ => ?_
  rw [itemSums]
  split
  · exact room.growSums _
  · exact fitWords_nil

end InsertionLog

/-! ## Sums of parts -/

section Parts

variable {log : InsertionLog}

theorem fit_attrSums (room : log.Room) (key : String) (e : Element) :
    FitWords (attrSums log key e) := by
  rw [attrSums]
  cases e.attr? key with
  | none => exact fitWords_nil
  | some references => exact room.listSums references

theorem fit_mergeSums (room : log.Room) (merge : Element) : FitWords (mergeSums log merge) := by
  rw [mergeSums]
  split
  · rename_i range found
    obtain ⟨reference, -, read⟩ := Option.map_eq_some_iff.mp found
    have wellFormed := CellRange.wellFormed_of_read read
    refine fitWords_append.mpr ⟨room.carrySums wellFormed, ?_⟩
    split
    · exact fitWords_singleton.mpr (room.lastCopy wellFormed.start.row)
    · exact fitWords_nil
  · exact fitWords_nil

theorem fit_partSums (options : FillOptions) (room : log.Room) (e : Element) :
    FitWords (partSums options log e) := by
  rw [partSums]
  split_ifs
  · exact fit_attrSums room "ref" e
  · exact fitWords_flatMap.mpr fun merge _ => fit_mergeSums room merge
  · exact fit_attrSums room "ref" e
  · exact fit_attrSums room "sqref" e
  · exact fitWords_flatMap.mpr fun validation _ => fit_attrSums room "sqref" validation
  · exact fitWords_flatMap.mpr fun link _ => fit_attrSums room "ref" link
  · exact fitWords_nil
  · exact fitWords_nil

end Parts

/-! ## Sums of rows -/

section Rows

variable {data : Value} {table : StringTable} {log : InsertionLog}

theorem extraCells_le_of_sublist {cells others : List TemplateCell} (sub : cells.Sublist others) :
    extraCells cells ≤ extraCells others :=
  (sub.map fun cell : TemplateCell => cell.outcome.extraColumns).sum_le_sum fun _ _ => Nat.zero_le _

theorem extraCopies_le_of_sublist {rows others : List TemplateRow} (sub : rows.Sublist others) :
    extraCopies rows ≤ extraCopies others :=
  (sub.map fun row : TemplateRow => row.copyCount - 1).sum_le_sum fun _ _ => Nat.zero_le _

/-- A planned cell is moved by what the cells before it have grown by. -/
theorem split_of_mem_placeCells {offset : Nat} {cells : List (Nat × Element)} {cell : TemplateCell}
    (mem : cell ∈ placeCells table data offset cells) :
    ∃ left right, placeCells table data offset cells = left ++ cell :: right ∧
      cell.place = cell.column + (offset + extraCells left) := by
  rw [← map_snd_planCells] at mem
  obtain ⟨plan, source, rfl⟩ := List.mem_map.mp mem
  exact split_of_mem_planCells source

/-- The columns of a row have 32 bits, also after all insertions in the row. -/
def CellsFit (row : TemplateRow) : Prop :=
  ∀ cell ∈ row.cells, cell.column + extraCells row.cells < maxWord32

theorem fit_cellSums {number : Nat} {row : Element}
    (fit : CellsFit (.ofRow table data 0 number row)) {cell : TemplateCell}
    (mem : cell ∈ (TemplateRow.ofRow table data 0 number row).cells) : FitWords cell.sums := by
  have small := fit cell mem
  rw [cells_ofRow] at mem small
  obtain ⟨left, right, split, place⟩ := split_of_mem_placeCells mem
  have total : extraCells (placeCells table data 0 (numberCells 1 (rowCells row))) =
      extraCells left + (cell.outcome.extraColumns + extraCells right) := by
    rw [split, extraCells_append]
    rfl
  exact fitWords_triple.mpr ⟨by omega, by omega, by omega⟩

theorem fit_formulaSums (room : log.Room) (cell : TemplateCell) :
    FitWords (cell.formulaSums log) := by
  rw [TemplateCell.formulaSums]
  split
  · split
    · exact fitWords_nil
    · cases formulaRange? cell.template with
      | none => exact fitWords_nil
      | some range => exact room.followSums range
  · exact fitWords_nil

theorem fit_rowSums {offset number : Nat} {row : Element}
    (small : number + (offset + ((TemplateRow.ofRow table data 0 number row).copyCount - 1)) <
      maxWord32)
    (cells : CellsFit (.ofRow table data 0 number row)) (room : log.Room) :
    FitWords ((TemplateRow.ofRow table data 0 number row).sums log offset) := by
  have number' : (TemplateRow.ofRow table data 0 number row).number = number := rfl
  refine fitWords_append.mpr ⟨fitWords_append.mpr ⟨?_, ?_⟩, ?_⟩
  · rw [number']
    exact fitWords_triple.mpr ⟨by omega, by omega, by omega⟩
  · exact fitWords_flatMap.mpr fun cell mem => fit_cellSums cells mem
  · split
    · exact fitWords_nil
    · exact fitWords_flatMap.mpr fun cell _ => fit_formulaSums room cell

theorem extraCopies_cons (row : TemplateRow) (rows : List TemplateRow) :
    extraCopies (row :: rows) = row.copyCount - 1 + extraCopies rows := rfl

theorem planned_numberRows (next : Nat) (e : Element) (rows : List Element) :
    planned table data (numberRows next (e :: rows)) =
      .ofRow table data 0 ((rowNumber? e).getD next) e ::
        planned table data (numberRows ((rowNumber? e).getD next + 1) rows) := rfl

/-- The sums of rows have 32 bits if each row has room for all insertions. -/
theorem fit_itemSums (room : log.Room) {offset next : Nat} {elements : List Element}
    (small : ∀ row ∈ planned table data (numberRows next
        (elements.filter fun e => e.name == "row")),
      row.number + (offset + extraCopies (planned table data (numberRows next
        (elements.filter fun e => e.name == "row")))) < maxWord32)
    (cells : ∀ row ∈ planned table data (numberRows next
      (elements.filter fun e => e.name == "row")), CellsFit row) :
    FitWords (SheetItem.sums log offset (planRows table data next elements)) := by
  induction elements generalizing offset next with
  | nil => exact fitWords_nil
  | cons e rest ih =>
      by_cases isRow : e.name = "row"
      · rw [filter_row isRow, planned_numberRows, List.forall_mem_cons] at small cells
        simp only [extraCopies_cons] at small
        obtain ⟨own, later⟩ := small
        have own : (rowNumber? e).getD next + _ < maxWord32 := own
        rw [planRows, if_pos isRow, SheetItem.sums]
        refine fitWords_append.mpr ⟨fit_rowSums (by omega) cells.1 room,
          ih (fun row mem => ?_) cells.2⟩
        have moved := later row mem
        omega
      · rw [filter_other isRow] at small cells
        rw [planRows, if_neg isRow, SheetItem.sums]
        exact ih small cells

end Rows

/-! ## Sums of a worksheet -/

/-- Numbers of rows and columns have 32 bits, also after all insertions of their sheet or row: those
of the template and those of the whole sheet. Rows of one number share their insertions of cells. -/
structure Room (plans : List TemplateRow) : Prop where
  /-- The rows of the template have. -/
  numbers : ∀ row ∈ plans, row.number + extraCopies plans < maxWord32
  /-- The rows of a sheet have. -/
  rows : maxRows + extraCopies plans ≤ maxWord32
  /-- The cells of the template have. -/
  columns : ∀ row ∈ plans, CellsFit row
  /-- The columns of a sheet have. -/
  cells : ∀ row ∈ plans, maxColumns + extraCells
    ((plans.filter fun other => other.number - 1 = row.number - 1).flatMap (·.cells)) ≤ maxWord32

instance (plans : List TemplateRow) : Decidable (Room plans) :=
  decidable_of_iff ((∀ row ∈ plans, row.number + extraCopies plans < maxWord32) ∧
      maxRows + extraCopies plans ≤ maxWord32 ∧
      (∀ row ∈ plans, ∀ cell ∈ row.cells, cell.column + extraCells row.cells < maxWord32) ∧
      ∀ row ∈ plans, maxColumns + extraCells
        ((plans.filter fun other => other.number - 1 = row.number - 1).flatMap (·.cells)) ≤
          maxWord32)
    ⟨fun h => ⟨h.1, h.2.1, h.2.2.1, h.2.2.2⟩,
      fun h => ⟨h.numbers, h.rows, h.columns, h.cells⟩⟩

/-- The log of rows with room has room. -/
theorem Room.log {plans : List TemplateRow} (room : Room plans) :
    (logRows .empty plans).Room where
  rows p := by
    have some := extraCopies_le_of_sublist (List.filter_sublist (l := plans)
      (p := fun row => p (row.number - 1)))
    have all := room.rows
    have start : InsertionLog.empty.rows.sumWhere p = 0 := rfl
    rw [sumWhere_logRows, start]
    omega
  cells r p := by
    have start : InsertionLog.empty.columnsWhere r p = 0 := rfl
    rw [columnsWhere_logRows, start, Nat.zero_add]
    have some := extraCells_le_of_sublist (List.filter_sublist
      (l := (plans.filter fun row => row.number - 1 = r).flatMap (·.cells))
      (p := fun cell => p (cell.column - 1)))
    by_cases found : ∃ row ∈ plans, row.number - 1 = r
    · obtain ⟨row, mem, rfl⟩ := found
      have all := room.cells row mem
      omega
    · have none : plans.filter (fun row => row.number - 1 = r) = [] :=
        List.filter_eq_nil_iff.mpr fun row mem here =>
          found ⟨row, mem, of_decide_eq_true here⟩
      have small : maxColumns ≤ maxWord32 := by decide
      rw [none] at some ⊢
      exact Nat.le_trans (Nat.add_le_add_left some _) small

section Sheets

variable {options : FillOptions} {data : Value} {table : StringTable} {template : Document}

/-- A worksheet with room for all insertions is filled. -/
theorem fillSheet?_of_room
    (room : Room (planned table data (numberRows 1 (sheetRows template)))) :
    fillSheet? options data table template = some (fillSheet options data table template) := by
  refine if_pos (fitWords_append.mpr ⟨fitWords_append.mpr ⟨?_, ?_⟩, ?_⟩)
  all_goals
    have finished : SheetItem.log (planRows table data 1 (sheetElements template)) =
        logRows .empty (planned table data (numberRows 1 (sheetRows template))) :=
      congrArg (logRows .empty) (rows_planRows 1 _)
    have logged := finished ▸ room.log
  · refine fit_itemSums logged (fun row mem => ?_) room.columns
    rw [Nat.zero_add]
    exact room.numbers row mem
  · exact logged.counts
  · split
    · exact fitWords_nil
    · exact fitWords_flatMap.mpr fun e _ => fit_partSums options logged e

theorem isSome_fillSheet?_of_room
    (room : Room (planned table data (numberRows 1 (sheetRows template)))) :
    (fillSheet? options data table template).isSome := by
  rw [fillSheet?_of_room room, Option.isSome_some]

/-- What comes of a worksheet is the worksheet filled without a limit to the sums. -/
theorem fst_fillSheet_of_fillSheet? {filled : FilledSheet} {after : StringTable}
    (run : fillSheet? options data table template = some (filled, after)) :
    (fillSheet options data table template).1 = filled := by
  rw [fillSheet?] at run
  split at run
  · exact congrArg Prod.fst (Option.some.inj run)
  · cases run

theorem extraCopies_of_fit {log : InsertionLog} {offset : Nat} (small : offset ≤ maxWord32)
    {items : List SheetItem} (fit : FitWords (SheetItem.sums log offset items)) :
    offset + extraCopies (items.filterMap SheetItem.row?) ≤ maxWord32 := by
  induction items generalizing offset with
  | nil => exact small
  | cons item items ih =>
      cases item with
      | row r =>
          obtain ⟨here, later⟩ := fitWords_append.mp fit
          have moved : offset + (r.copyCount - 1) ≤ maxWord32 :=
            here _ (by simp [TemplateRow.sums])
          have all := ih moved later
          show offset + extraCopies (r :: items.filterMap SheetItem.row?) ≤ maxWord32
          rw [extraCopies_cons]
          omega
      | other e => exact ih small fit

/-- If a worksheet is filled, then the number of all rows that are inserted has 32 bits. -/
theorem extraCopies_of_fillSheet? {result : FilledSheet × StringTable}
    (run : fillSheet? options data table template = some result) :
    extraCopies (planned table data (numberRows 1 (sheetRows template))) ≤ maxWord32 := by
  have fit : FitWords (sheetSums options data table template) := by
    by_contra unfit
    rw [fillSheet?, if_neg unfit] at run
    cases run
  have rows := (fitWords_append.mp (fitWords_append.mp fit).1).1
  have all := extraCopies_of_fit (Nat.zero_le _) rows
  rw [rows_planRows, Nat.zero_add] at all
  exact all

end Sheets

end SheetFill
