import SheetFill.Proofs.Worksheet.Dimension

/-!
# How far a range grows

A range grows to the smallest range that has every copy of its cells (`growRange_isHull`), if its
rows move its first column by the same amount and it does not grow beyond a sheet. The rows of the
copies reach from the first copy of the first row to the last copy of the last row. The left side is
where every row has its first copy. The right side is where the row that moved its last column
furthest has the last copy; a row without insertions of cells moves nothing, so the largest of the
shifts in the log is the largest of all.
-/

namespace SheetFill

/-! ## Smallest ranges -/

/-- A range is the smallest one that has all cells of a set. -/
structure CellRange.IsHull (r : CellRange) (cells : Nat → Nat → Prop) : Prop where
  /-- It has the cells. -/
  covers : ∀ row col, cells row col → r.Covers row col
  /-- Any range that has them has its corners. -/
  least : ∀ other : CellRange, (∀ row col, cells row col → other.Covers row col) →
    other.Covers r.start.row r.start.col ∧ other.Covers r.stop.row r.stop.col

namespace InsertionLog

variable {log : InsertionLog} {range : CellRange}

/-- A copy of a cell of a range is in a row and a column. -/
def Renders (log : InsertionLog) (range : CellRange) (row' col' : Nat) : Prop :=
  ∃ row col, range.Covers row col ∧ log.firstRow row ≤ row' ∧ row' ≤ log.lastRow row ∧
    log.firstColumn row col ≤ col' ∧ col' ≤ log.lastColumn row col

/-- The rows of a range have as many insertions of cells left of it. -/
def EvenLeft (log : InsertionLog) (range : CellRange) : Prop :=
  ∀ row, range.start.row ≤ row → row ≤ range.stop.row →
    log.columnsWhere row (· < range.start.col) =
      log.columnsWhere range.start.row (· < range.start.col)

theorem evenLeft_of_inOneRow (one : range.inOneRow = true) : log.EvenLeft range := by
  intro row top bottom
  have same : range.start.row = range.stop.row := eq_of_beq one
  rw [Nat.le_antisymm (same ▸ bottom) top]

/-! ## Copies of one cell -/

/-- A cell of a range has its first copy. -/
theorem Renders.first {row col : Nat} (covers : range.Covers row col) :
    log.Renders range (log.firstRow row) (log.firstColumn row col) :=
  ⟨row, col, covers, Nat.le_refl _, log.firstRow_le_lastRow row, Nat.le_refl _,
    log.firstColumn_le_lastColumn row col⟩

/-- A cell of a range has its last copy. -/
theorem Renders.last {row col : Nat} (covers : range.Covers row col) :
    log.Renders range (log.lastRow row) (log.lastColumn row col) :=
  ⟨row, col, covers, log.firstRow_le_lastRow row, Nat.le_refl _,
    log.firstColumn_le_lastColumn row col, Nat.le_refl _⟩

/-! ## The right side -/

/-- The largest shift is that of a row between the bounds, or nothing moves. -/
theorem exists_largestShift (top bottom : Nat) (shift : Nat → Nat) :
    log.largestShift top bottom shift = 0 ∨
      ∃ row, top ≤ row ∧ row ≤ bottom ∧ log.largestShift top bottom shift = shift row := by
  rw [largestShift]
  refine (foldr_max_eq_or_mem 0 _).imp_right fun mem => ?_
  obtain ⟨entry, found, same⟩ := List.mem_map.mp mem
  have inside := (List.mem_filter.mp found).2
  rw [Bool.and_eq_true, decide_eq_true_eq, decide_eq_true_eq] at inside
  exact ⟨entry.1, inside.1, inside.2, same.symm⟩

/-- A column that no row moves to the left goes, by the largest shift, no further than some row
moves it. -/
theorem exists_grown {top bottom col : Nat} {place : Nat → Nat} (within : top ≤ bottom)
    (right : ∀ row, col ≤ place row) :
    ∃ row, top ≤ row ∧ row ≤ bottom ∧
      (col + log.largestShift top bottom fun row => place row - col) ≤ place row := by
  rcases log.exists_largestShift top bottom (fun row => place row - col) with
    still | ⟨row, upper, lower, largest⟩
  · refine ⟨top, Nat.le_refl _, within, ?_⟩
    rw [still]
    exact right _
  · refine ⟨row, upper, lower, ?_⟩
    rw [largest]
    exact Nat.le_of_eq (Nat.add_sub_cancel' (right row))

/-- Some row of a range has its last copies where the range grows to. -/
theorem exists_grownRight (wellFormed : range.WellFormed) :
    ∃ row, range.start.row ≤ row ∧ row ≤ range.stop.row ∧
      log.grownRight range ≤ log.lastColumn row range.stop.col :=
  exists_grown wellFormed.rows fun _ => le_lastColumn wellFormed.stop.col

/-! ## The left side -/

/-- The rows of a range have the first copies of its first column at one place, where the range
starts after it grew. -/
theorem firstColumn_eq_grownLeft (wellFormed : range.WellFormed) (even : log.EvenLeft range)
    {row : Nat} (top : range.start.row ≤ row) (bottom : row ≤ range.stop.row) :
    log.firstColumn row range.start.col =
      range.start.col + log.largestShift range.start.row range.stop.row fun row =>
        log.firstColumn row range.start.col - range.start.col := by
  have same (row : Nat) (top : range.start.row ≤ row) (bottom : row ≤ range.stop.row) :
      log.firstColumn row range.start.col = log.firstColumn range.start.row range.start.col := by
    rw [firstColumn, even row top bottom]
    rfl
  have small : range.start.col ≤ Text.Numeral.maxWord32 :=
    Nat.le_trans (Nat.le_of_lt wellFormed.start.col) (by decide)
  have right : range.start.col ≤ log.firstColumn range.start.row range.start.col :=
    le_bounded (Nat.le_add_right ..) small
  have shift : (log.largestShift range.start.row range.stop.row fun row =>
      log.firstColumn row range.start.col - range.start.col) =
        log.firstColumn range.start.row range.start.col - range.start.col := by
    refine largestShift_eq wellFormed.rows (fun row top bottom => by rw [same row top bottom])
      fun found => ?_
    have stays : log.firstColumn range.start.row range.start.col ≤ range.start.col := by
      rw [firstColumn, columnsWhere, found]
      exact bounded_le _
    exact Nat.sub_eq_zero_of_le stays
  rw [same row top bottom, shift, Nat.add_sub_cancel' right]

/-! ## All sides -/

/-- The corners of a range that grows, if that is on the sheet. -/
theorem corners_growRange (wellFormed : range.WellFormed) (even : log.EvenLeft range)
    (rowInside : log.lastRow range.stop.row < maxRows)
    (colInside : log.grownRight range < maxColumns) :
    (log.growRange range).start.row = log.firstRow range.start.row ∧
      (log.growRange range).start.col = log.firstColumn range.start.row range.start.col ∧
      (log.growRange range).stop.row = log.lastRow range.stop.row ∧
      (log.growRange range).stop.col = log.grownRight range := by
  have rows : log.firstRow range.start.row ≤ log.lastRow range.stop.row :=
    Nat.le_trans (firstRow_mono wellFormed.rows) (log.firstRow_le_lastRow _)
  have left := firstColumn_eq_grownLeft wellFormed even (Nat.le_refl _) wellFormed.rows
  have cols : log.firstColumn range.start.row range.start.col ≤ log.grownRight range :=
    Nat.le_trans (log.firstColumn_le_lastColumn ..) (lastColumn_le_grownRight wellFormed.stop.col
      ⟨Nat.le_refl _, wellFormed.rows, Nat.le_refl _, wellFormed.cols⟩)
  rw [left] at cols ⊢
  exact range.relocate_of_onSheet rows cols rowInside colInside

theorem covers_growRange_of_evenLeft (wellFormed : range.WellFormed) (even : log.EvenLeft range)
    (rowInside : log.lastRow range.stop.row < maxRows)
    (colInside : log.grownRight range < maxColumns) {row' col' : Nat}
    (renders : log.Renders range row' col') : (log.growRange range).Covers row' col' := by
  obtain ⟨row, col, covers, above, below, before, after⟩ := renders
  obtain ⟨startRow, startCol, stopRow, stopCol⟩ :=
    corners_growRange wellFormed even rowInside colInside
  have left : log.firstColumn range.start.row range.start.col =
      log.firstColumn row range.start.col :=
    (firstColumn_eq_grownLeft wellFormed even (Nat.le_refl _) wellFormed.rows).trans
      (firstColumn_eq_grownLeft wellFormed even covers.top covers.bottom).symm
  constructor
  · rw [startRow]
    exact Nat.le_trans (firstRow_mono covers.top) above
  · rw [stopRow]
    exact Nat.le_trans below (lastRow_mono covers.bottom)
  · rw [startCol, left]
    exact Nat.le_trans (firstColumn_mono covers.left) before
  · rw [stopCol]
    exact Nat.le_trans after (lastColumn_le_grownRight wellFormed.stop.col covers)

theorem growRange_least (wellFormed : range.WellFormed) (even : log.EvenLeft range)
    (rowInside : log.lastRow range.stop.row < maxRows)
    (colInside : log.grownRight range < maxColumns) {other : CellRange}
    (all : ∀ row col, log.Renders range row col → other.Covers row col) :
    other.Covers (log.growRange range).start.row (log.growRange range).start.col ∧
      other.Covers (log.growRange range).stop.row (log.growRange range).stop.col := by
  obtain ⟨startRow, startCol, stopRow, stopCol⟩ :=
    corners_growRange wellFormed even rowInside colInside
  -- The first copy of the first cell is the first corner.
  have first := all _ _ (Renders.first
    ⟨Nat.le_refl _, wellFormed.rows, Nat.le_refl _, wellFormed.cols⟩)
  rw [← startRow, ← startCol] at first
  -- The last row and the last column are those of two copies that need not be the same.
  have lowest := all _ _ (Renders.last
    ⟨wellFormed.rows, Nat.le_refl _, wellFormed.cols, Nat.le_refl _⟩)
  rw [← stopRow] at lowest
  obtain ⟨row, top, bottom, furthest⟩ := log.exists_grownRight wellFormed
  have rightmost := all _ _ (Renders.last ⟨top, bottom, wellFormed.cols, Nat.le_refl _⟩)
  rw [← stopCol] at furthest
  have ordered : (log.growRange range).WellFormed := CellRange.wellFormed_relocate ..
  refine ⟨first, Nat.le_trans first.top ordered.rows, lowest.bottom, ?_, ?_⟩
  · exact Nat.le_trans first.left ordered.cols
  · exact Nat.le_trans furthest rightmost.right

/-- A range keeps each `$` at its corner. -/
theorem marks_growRange (log : InsertionLog) (range : CellRange) :
    (log.growRange range).start.rowAbsolute = range.start.rowAbsolute ∧
      (log.growRange range).start.colAbsolute = range.start.colAbsolute ∧
      (log.growRange range).stop.rowAbsolute = range.stop.rowAbsolute ∧
      (log.growRange range).stop.colAbsolute = range.stop.colAbsolute :=
  ⟨rfl, rfl, rfl, rfl⟩

/-- A range grows to the smallest one that has all copies of its cells, if its rows have as many
insertions left of it and the smallest one is on the sheet. A range in one row has so. -/
theorem growRange_isHull (log : InsertionLog) (range : CellRange) (wellFormed : range.WellFormed) :
    (range.inOneRow = true → log.EvenLeft range) ∧
      (log.EvenLeft range → log.lastRow range.stop.row < maxRows →
        log.grownRight range < maxColumns →
        (log.growRange range).IsHull (log.Renders range) ∧
          (log.growRange range).start.rowAbsolute = range.start.rowAbsolute ∧
          (log.growRange range).start.colAbsolute = range.start.colAbsolute ∧
          (log.growRange range).stop.rowAbsolute = range.stop.rowAbsolute ∧
          (log.growRange range).stop.colAbsolute = range.stop.colAbsolute) := by
  refine ⟨evenLeft_of_inOneRow, fun even rowInside colInside => ⟨?_, log.marks_growRange range⟩⟩
  exact ⟨fun row col => covers_growRange_of_evenLeft wellFormed even rowInside colInside,
    fun other => growRange_least wellFormed even rowInside colInside⟩

/-- A log of two rows with one more cell each in the first column, while they differ behind it. -/
def evenLog : InsertionLog :=
  ((((empty.addRows 0 2).addCells 0 0 1).addCells 0 2 3).addCells 1 0 1).addCells 1 1 1

theorem growRange_isHull_evenLog :
    let range : CellRange := ⟨⟨0, 1, true, false⟩, ⟨1, 2, false, true⟩, false⟩
    range.WellFormed ∧ evenLog.EvenLeft range ∧ evenLog.lastRow 1 < maxRows ∧
      evenLog.grownRight range < maxColumns ∧
      evenLog.growRange range = ⟨⟨0, 2, true, false⟩, ⟨3, 6, false, true⟩, false⟩ ∧
      (evenLog.growRange range).IsHull (evenLog.Renders range) := by
  intro range
  have wellFormed : range.WellFormed :=
    ⟨by decide, by decide, by decide, by decide, fun single => by cases single⟩
  have even : evenLog.EvenLeft range := by
    intro row top bottom
    have either : row = 0 ∨ row = 1 := by
      have last : row ≤ 1 := bottom
      omega
    rcases either with rfl | rfl
    · rfl
    · decide
  have rowInside : evenLog.lastRow range.stop.row < maxRows := by decide
  have colInside : evenLog.grownRight range < maxColumns := by decide
  have hull := ((growRange_isHull evenLog range wellFormed).2 even rowInside colInside).1
  exact ⟨wellFormed, even, rowInside, colInside, by decide, hull⟩

end InsertionLog

end SheetFill
