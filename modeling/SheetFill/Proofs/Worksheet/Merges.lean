import Mathlib.Data.List.Forall2
import SheetFill.Proofs.InsertionLog.Positions
import SheetFill.Proofs.Reference.RoundTrip
import SheetFill.Proofs.Worksheet.TableRows
import SheetFill.Worksheet.Ranges

/-!
# Merged cells stay apart

A merge keeps its size and is carried to the last copy of its first cell; one within a row is
repeated in every copy of the row (`InsertionLog.Carries`). Merges that have no cell in common still
have none afterwards (`adjustMerges_apart`). Two merges without a row in common stay above each
other, since all copies of a row come before those of a later one. In a row that both have, the left
one moves right by no more than the other one: if both lie within this row, what is inserted up to a
cell grows from left to right; if one of them is taller, nothing is inserted in its rows.
-/

namespace SheetFill

open Xml

/-! ## Ranges without a common cell -/

namespace CellRange

/-- Whether a range has a cell. -/
structure Covers (r : CellRange) (row col : Nat) : Prop where
  /-- The row of the cell is not above the range. -/
  top : r.start.row ≤ row
  /-- The row is not below it. -/
  bottom : row ≤ r.stop.row
  /-- The column is not left of it. -/
  left : r.start.col ≤ col
  /-- The column is not right of it. -/
  right : col ≤ r.stop.col

/-- Two ranges have no cell in common. -/
def Apart (a b : CellRange) : Prop := ∀ row col, a.Covers row col → ¬b.Covers row col

theorem apart_iff (a b : CellRange) : a.Apart b ↔
    ¬(max a.start.row b.start.row ≤ min a.stop.row b.stop.row ∧
      max a.start.col b.start.col ≤ min a.stop.col b.stop.col) := by
  constructor
  · rintro apart ⟨rows, cols⟩
    exact apart (max a.start.row b.start.row) (max a.start.col b.start.col)
      ⟨by omega, by omega, by omega, by omega⟩ ⟨by omega, by omega, by omega, by omega⟩
  · rintro separate row col ⟨_, _, _, _⟩ ⟨_, _, _, _⟩
    exact separate ⟨by omega, by omega⟩

instance (a b : CellRange) : Decidable (a.Apart b) := decidable_of_iff _ (apart_iff a b).symm

theorem Apart.symm {a b : CellRange} (apart : a.Apart b) : b.Apart a :=
  fun row col first second => apart row col second first

/-- How many rows a range has. -/
def height (r : CellRange) : Nat := r.stop.row + 1 - r.start.row

/-- How many columns a range has. -/
def width (r : CellRange) : Nat := r.stop.col + 1 - r.start.col

end CellRange

/-! ## Where a merge goes -/

namespace InsertionLog

/-- The column of the first cell of a merge after it is carried, if the sheet is wide enough. -/
def carriedColumn (log : InsertionLog) (r : CellRange) : Nat :=
  r.start.col + log.largestShift r.start.row r.stop.row fun row =>
    log.lastColumn row r.start.col - r.start.col

/-- No cells are inserted in the rows of a range. -/
def KeepsColumns (log : InsertionLog) (r : CellRange) : Prop :=
  ∀ row, r.start.row ≤ row → row ≤ r.stop.row → log.columnsWhere row (fun _ => true) = 0

instance (log : InsertionLog) (r : CellRange) : Decidable (log.KeepsColumns r) :=
  decidable_of_iff (∀ row < r.stop.row + 1, r.start.row ≤ row →
      log.columnsWhere row (fun _ => true) = 0)
    ⟨fun none row top bottom => none row (Nat.lt_succ_of_le bottom) top,
      fun none row bottom top => none row top (Nat.le_of_lt_succ bottom)⟩

/-- The sheet has room for a merge where it is carried. -/
structure HasRoomFor (log : InsertionLog) (r : CellRange) : Prop where
  /-- The last row is one of the sheet. -/
  rows : log.lastRow r.start.row + (r.stop.row - r.start.row) < maxRows
  /-- The last column is one of the sheet. -/
  cols : log.carriedColumn r + (r.stop.col - r.start.col) < maxColumns

instance (log : InsertionLog) (r : CellRange) : Decidable (log.HasRoomFor r) :=
  decidable_of_iff (log.lastRow r.start.row + (r.stop.row - r.start.row) < maxRows ∧
      log.carriedColumn r + (r.stop.col - r.start.col) < maxColumns)
    ⟨fun h => ⟨h.1, h.2⟩, fun h => ⟨h.1, h.2⟩⟩

/-- What becomes of a merge: one of the same size in each copy of its row, or one at the last copy
of its first row if it has several rows. -/
structure Carries (log : InsertionLog) (r : CellRange) (copies : List CellRange) : Prop where
  /-- The rows that the copies start in, each once. -/
  rows : copies.map (·.start.row) =
    if r.inOneRow then
      List.range' (log.firstRow r.start.row)
        (log.lastRow r.start.row + 1 - log.firstRow r.start.row)
    else [log.lastRow r.start.row]
  /-- They start in the column of the last cell that the first cell became. -/
  cols : ∀ copy ∈ copies, copy.start.col = log.lastColumn r.start.row r.start.col
  /-- They have as many rows. -/
  height : ∀ copy ∈ copies, copy.height = r.height
  /-- They have as many columns. -/
  width : ∀ copy ∈ copies, copy.width = r.width

/-- The ranges that a merge becomes. -/
def carriedCopies (log : InsertionLog) (r : CellRange) : List CellRange :=
  let moved := log.carryRange r
  if r.inOneRow ∧ log.extraRows r.start.row ≠ 0 then
    (List.range (log.extraRows r.start.row + 1)).map fun copy =>
      let row := log.firstRow r.start.row + copy
      moved.relocate row moved.start.col row moved.stop.col
  else [moved]

section Shifts

variable {log : InsertionLog}

theorem largestShift_le {top bottom n : Nat} {shift : Nat → Nat}
    (le : ∀ row, top ≤ row → row ≤ bottom → shift row ≤ n) :
    log.largestShift top bottom shift ≤ n := by
  rw [largestShift]
  refine foldr_max_le (Nat.zero_le n) fun m mem => ?_
  obtain ⟨entry, found, rfl⟩ := List.mem_map.mp mem
  have inside := (List.mem_filter.mp found).2
  rw [Bool.and_eq_true, decide_eq_true_eq, decide_eq_true_eq] at inside
  exact le entry.1 inside.1 inside.2

theorem shift_le_largestShift {top bottom row : Nat} {cells : PositionMap Nat} (shift : Nat → Nat)
    (upper : top ≤ row) (lower : row ≤ bottom) (found : log.columns.get? row = some cells) :
    shift row ≤ log.largestShift top bottom shift := by
  rw [PositionMap.get?, Option.map_eq_some_iff] at found
  obtain ⟨entry, found, -⟩ := found
  have here : entry.1 = row := by simpa using List.find?_some found
  have inside : (top ≤ entry.1 && entry.1 ≤ bottom) = true := by
    rw [here, decide_eq_true upper, decide_eq_true lower]
    rfl
  rw [largestShift, ← here]
  refine le_foldr_max (List.mem_map.mpr ⟨entry, ?_, rfl⟩)
  exact List.mem_filter.mpr ⟨List.mem_of_find?_eq_some found, inside⟩

/-- If all rows have one shift, then it is the largest one. -/
theorem largestShift_eq {top bottom n : Nat} {shift : Nat → Nat} (within : top ≤ bottom)
    (same : ∀ row, top ≤ row → row ≤ bottom → shift row = n)
    (still : log.columns.get? top = none → n = 0) : log.largestShift top bottom shift = n := by
  have upper : log.largestShift top bottom shift ≤ n :=
    largestShift_le fun row upper lower => Nat.le_of_eq (same row upper lower)
  have lower : n ≤ log.largestShift top bottom shift := by
    cases found : log.columns.get? top with
    | some cells =>
        have first := shift_le_largestShift shift (Nat.le_refl _) within found
        rwa [same top (Nat.le_refl _) within] at first
    | none =>
        rw [still found]
        exact Nat.zero_le _
  exact Nat.le_antisymm upper lower

/-- If the rows of a merge all move its first column to one place, then it is carried there. -/
theorem carriedColumn_eq {r : CellRange} (wellFormed : r.WellFormed)
    (same : ∀ row, r.start.row ≤ row → row ≤ r.stop.row →
      log.lastColumn row r.start.col = log.lastColumn r.start.row r.start.col) :
    log.carriedColumn r = log.lastColumn r.start.row r.start.col := by
  have small : r.start.col ≤ Text.Numeral.maxWord32 :=
    Nat.le_trans (Nat.le_of_lt wellFormed.start.col) (by decide)
  have right : r.start.col ≤ log.lastColumn r.start.row r.start.col :=
    le_bounded (Nat.le_add_right ..) small
  have largest : log.largestShift r.start.row r.stop.row
      (fun row => log.lastColumn row r.start.col - r.start.col) =
        log.lastColumn r.start.row r.start.col - r.start.col := by
    refine largestShift_eq wellFormed.rows (fun row top bottom => by rw [same row top bottom])
      fun found => ?_
    have stays : log.lastColumn r.start.row r.start.col = r.start.col := by
      rw [lastColumn, columnsWhere, found]
      exact if_pos small
    rw [stays, Nat.sub_self]
  rw [carriedColumn, largest]
  omega

/-- Rows without insertions of cells do not move a column. -/
theorem KeepsColumns.lastColumn_eq {r : CellRange} (keeps : log.KeepsColumns r) {row col : Nat}
    (top : r.start.row ≤ row) (bottom : row ≤ r.stop.row) (small : col < maxColumns) :
    log.lastColumn row col = col := by
  rw [lastColumn, columnsWhere_eq_zero (keeps row top bottom)]
  exact if_pos (Nat.le_trans (Nat.le_of_lt small) (by decide))

end Shifts

/-! ## One merge -/

section Carried

variable {log : InsertionLog} {r : CellRange}

theorem carriedColumn_eq_lastColumn (wellFormed : r.WellFormed)
    (tall : r.inOneRow = false → log.KeepsColumns r) :
    log.carriedColumn r = log.lastColumn r.start.row r.start.col := by
  refine carriedColumn_eq wellFormed fun row top bottom => ?_
  cases one : r.inOneRow with
  | true =>
      have within : r.start.row = r.stop.row := eq_of_beq one
      rw [Nat.le_antisymm (within ▸ bottom) top]
  | false =>
      have keeps := tall one
      rw [keeps.lastColumn_eq top bottom wellFormed.start.col,
        keeps.lastColumn_eq (Nat.le_refl _) wellFormed.rows wellFormed.start.col]

/-- Where the corners of a merge are carried. -/
theorem corners_carryRange (room : log.HasRoomFor r) :
    (log.carryRange r).start.row = log.lastRow r.start.row ∧
      (log.carryRange r).start.col = log.carriedColumn r ∧
      (log.carryRange r).stop.row = log.lastRow r.start.row + (r.stop.row - r.start.row) ∧
      (log.carryRange r).stop.col = log.carriedColumn r + (r.stop.col - r.start.col) :=
  r.relocate_of_onSheet (Nat.le_add_right ..) (Nat.le_add_right ..) room.rows room.cols

theorem lastRow_of_hasRoomFor (room : log.HasRoomFor r) :
    log.lastRow r.start.row = log.firstRow r.start.row + log.extraRows r.start.row := by
  refine (lastRow_eq (Nat.lt_of_le_of_lt (Nat.le_add_right ..) (Nat.lt_trans room.rows ?_))).2
  decide

/-- The corners of a copy of a merge within one row. -/
theorem corners_copy (room : log.HasRoomFor r) {copy : Nat}
    (inside : copy < log.extraRows r.start.row + 1) :
    let row := log.firstRow r.start.row + copy
    let moved := (log.carryRange r).relocate row (log.carryRange r).start.col row
      (log.carryRange r).stop.col
    moved.start.row = row ∧ moved.start.col = log.carriedColumn r ∧ moved.stop.row = row ∧
      moved.stop.col = log.carriedColumn r + (r.stop.col - r.start.col) := by
  obtain ⟨-, left, -, right⟩ := corners_carryRange room
  have rows := room.rows
  rw [lastRow_of_hasRoomFor room] at rows
  intro row moved
  have ordered : (log.carryRange r).start.col ≤ (log.carryRange r).stop.col := by
    rw [left, right]
    exact Nat.le_add_right ..
  have place := (log.carryRange r).relocate_of_onSheet (Nat.le_refl row) ordered (by omega)
    (right ▸ room.cols)
  exact ⟨place.1, place.2.1.trans left, place.2.2.1, place.2.2.2.trans right⟩

/-- A copy has the size of the merge and starts in the column where that is carried. -/
theorem corners_of_mem_carriedCopies (room : log.HasRoomFor r) {copy : CellRange}
    (mem : copy ∈ log.carriedCopies r) : copy.start.col = log.carriedColumn r ∧
      copy.stop.row = copy.start.row + (r.stop.row - r.start.row) ∧
      copy.stop.col = copy.start.col + (r.stop.col - r.start.col) := by
  obtain ⟨top, left, bottom, right⟩ := corners_carryRange room
  rw [carriedCopies] at mem
  dsimp only at mem
  split at mem
  · rename_i repeated
    obtain ⟨k, inside, rfl⟩ := List.mem_map.mp mem
    obtain ⟨top, left, bottom, right⟩ := corners_copy room (List.mem_range.mp inside)
    have within : r.start.row = r.stop.row := eq_of_beq repeated.1
    rw [top, left, bottom, right, within, Nat.sub_self]
    exact ⟨rfl, rfl, rfl⟩
  · rw [List.mem_singleton.mp mem, top, left, bottom, right]
    exact ⟨rfl, rfl, rfl⟩

/-- The copies of a merge within a row start in the copies of the row. -/
theorem map_row_carriedCopies (room : log.HasRoomFor r) :
    (log.carriedCopies r).map (·.start.row) =
      if r.inOneRow then
        List.range' (log.firstRow r.start.row)
          (log.lastRow r.start.row + 1 - log.firstRow r.start.row)
      else [log.lastRow r.start.row] := by
  obtain ⟨top, -⟩ := corners_carryRange room
  have last := lastRow_of_hasRoomFor room
  rw [carriedCopies]
  cases one : r.inOneRow with
  | false =>
      rw [if_neg fun repeated => Bool.false_ne_true repeated.1, if_neg Bool.false_ne_true]
      exact congrArg (fun row => [row]) top
  | true =>
      rw [if_pos rfl, last, Nat.add_assoc, Nat.add_sub_cancel_left]
      split
      · rw [List.map_map, List.range'_eq_map_range]
        refine List.map_congr_left fun k inside => ?_
        exact (corners_copy room (List.mem_range.mp inside)).1
      · rename_i once
        have alone : log.extraRows r.start.row = 0 := by simpa using once
        rw [alone] at last ⊢
        exact congrArg (fun row => [row]) (top.trans last)

/-- A merge is carried with its size. -/
theorem carries_carriedCopies (wellFormed : r.WellFormed) (room : log.HasRoomFor r)
    (tall : r.inOneRow = false → log.KeepsColumns r) : log.Carries r (log.carriedCopies r) where
  rows := map_row_carriedCopies room
  cols := fun copy mem => by
    rw [(corners_of_mem_carriedCopies room mem).1]
    exact carriedColumn_eq_lastColumn wellFormed tall
  height := fun copy mem => by
    have bottom := (corners_of_mem_carriedCopies room mem).2.1
    have ordered := wellFormed.rows
    rw [CellRange.height, CellRange.height]
    omega
  width := fun copy mem => by
    have right := (corners_of_mem_carriedCopies room mem).2.2
    have ordered := wellFormed.cols
    rw [CellRange.width, CellRange.width]
    omega

end Carried

/-! ## Two merges -/

section Pairs

variable {log : InsertionLog} {a b x y : CellRange}

theorem row_of_mem_carriedCopies (room : log.HasRoomFor a) (mem : x ∈ log.carriedCopies a) :
    log.firstRow a.start.row ≤ x.start.row ∧ x.start.row ≤ log.lastRow a.start.row := by
  have starts := List.mem_map_of_mem (f := fun r : CellRange => r.start.row) mem
  have last := lastRow_of_hasRoomFor room
  rw [map_row_carriedCopies room] at starts
  split at starts
  · rw [List.mem_range'_1] at starts
    omega
  · rw [List.mem_singleton] at starts
    omega

/-- The copies of a merge above another one are above the copies of that. -/
theorem above_of_mem_carriedCopies (wellFormed : a.WellFormed) (roomA : log.HasRoomFor a)
    (roomB : log.HasRoomFor b) (above : a.stop.row < b.start.row) (memA : x ∈ log.carriedCopies a)
    (memB : y ∈ log.carriedCopies b) : x.stop.row < y.start.row := by
  obtain ⟨-, bottom, -⟩ := corners_of_mem_carriedCopies roomA memA
  obtain ⟨-, notBelow⟩ := row_of_mem_carriedCopies roomA memA
  obtain ⟨notAbove, -⟩ := row_of_mem_carriedCopies roomB memB
  have ordered := wellFormed.rows
  have last : log.lastRow a.start.row = a.start.row + log.rows.sumWhere (· ≤ a.start.row) := by
    refine bounded_eq (Nat.lt_of_le_of_lt (Nat.le_add_right ..) (Nat.lt_trans roomA.rows ?_))
    decide
  have first : log.firstRow b.start.row = b.start.row + log.rows.sumWhere (· < b.start.row) := by
    refine (lastRow_eq (Nat.lt_of_le_of_lt (Nat.le_add_right ..)
      (Nat.lt_trans roomB.rows ?_))).1
    decide
  have grown := log.sumWhere_rows_le (Nat.lt_of_le_of_lt ordered above)
  omega

/-- If two merges have a row in common, the left one is carried to the left of the other one. -/
theorem left_of_mem_carriedCopies (wellA : a.WellFormed) (wellB : b.WellFormed)
    (roomA : log.HasRoomFor a) (roomB : log.HasRoomFor b)
    (tallA : a.inOneRow = false → log.KeepsColumns a)
    (tallB : b.inOneRow = false → log.KeepsColumns b)
    (common : b.start.row ≤ a.stop.row ∧ a.start.row ≤ b.stop.row)
    (left : a.stop.col < b.start.col) (memA : x ∈ log.carriedCopies a)
    (memB : y ∈ log.carriedCopies b) : x.stop.col < y.start.col := by
  obtain ⟨startA, -, stopA⟩ := corners_of_mem_carriedCopies roomA memA
  obtain ⟨startB, -, -⟩ := corners_of_mem_carriedCopies roomB memB
  rw [carriedColumn_eq_lastColumn wellA tallA] at startA
  rw [carriedColumn_eq_lastColumn wellB tallB] at startB
  have orderedA := wellA.cols
  have right : b.start.col ≤ log.lastColumn b.start.row b.start.col :=
    le_bounded (Nat.le_add_right ..) (Nat.le_trans (Nat.le_of_lt wellB.start.col) (by decide))
  -- The left one stays in its column unless both lie within one row.
  cases oneA : a.inOneRow with
  | false =>
      rw [(tallA oneA).lastColumn_eq (Nat.le_refl _) wellA.rows wellA.start.col] at startA
      omega
  | true =>
      have withinA : a.start.row = a.stop.row := eq_of_beq oneA
      cases oneB : b.inOneRow with
      | false =>
          rw [(tallB oneB).lastColumn_eq (withinA ▸ common.1) common.2 wellA.start.col] at startA
          omega
      | true =>
          have withinB : b.start.row = b.stop.row := eq_of_beq oneB
          have sameRow : a.start.row = b.start.row := by omega
          have inside := roomB.cols
          rw [carriedColumn_eq_lastColumn wellB tallB] at inside
          have placeB : log.lastColumn b.start.row b.start.col =
              b.start.col + log.columnsWhere b.start.row (· ≤ b.start.col) := by
            refine bounded_eq (Nat.lt_of_le_of_lt (Nat.le_add_right ..) (Nat.lt_trans inside ?_))
            decide
          have placeA : log.lastColumn a.start.row a.start.col ≤
              a.start.col + log.columnsWhere a.start.row (· ≤ a.start.col) := bounded_le _
          have grown : log.columnsWhere b.start.row (· ≤ a.start.col) ≤
              log.columnsWhere b.start.row (· ≤ b.start.col) :=
            log.columnsWhere_le (Nat.le_of_lt (Nat.lt_of_le_of_lt orderedA left))
          rw [sameRow] at placeA startA
          omega

/-- Merges without a common cell become merges without one. -/
theorem apart_of_mem_carriedCopies (wellA : a.WellFormed) (wellB : b.WellFormed)
    (roomA : log.HasRoomFor a) (roomB : log.HasRoomFor b)
    (tallA : a.inOneRow = false → log.KeepsColumns a)
    (tallB : b.inOneRow = false → log.KeepsColumns b) (apart : a.Apart b)
    (memA : x ∈ log.carriedCopies a) (memB : y ∈ log.carriedCopies b) : x.Apart y := by
  rintro row col ⟨topA, bottomA, leftA, rightA⟩ ⟨topB, bottomB, leftB, rightB⟩
  have common : b.start.row ≤ a.stop.row ∧ a.start.row ≤ b.stop.row := by
    constructor
    · refine Nat.le_of_not_lt fun above => ?_
      have := above_of_mem_carriedCopies wellA roomA roomB above memA memB
      omega
    · refine Nat.le_of_not_lt fun above => ?_
      have := above_of_mem_carriedCopies wellB roomB roomA above memB memA
      omega
  have sides : a.stop.col < b.start.col ∨ b.stop.col < a.start.col := by
    rw [CellRange.apart_iff] at apart
    obtain ⟨_, _, rowsA, colsA, _⟩ := wellA
    obtain ⟨_, _, rowsB, colsB, _⟩ := wellB
    omega
  rcases sides with left | left
  · have := left_of_mem_carriedCopies wellA wellB roomA roomB tallA tallB common left memA memB
    omega
  · have := left_of_mem_carriedCopies wellB wellA roomB roomA tallB tallA
      ⟨common.2, common.1⟩ left memB memA
    omega

/-- The copies of one merge have no cell in common. -/
theorem pairwise_carriedCopies (room : log.HasRoomFor a) :
    (log.carriedCopies a).Pairwise CellRange.Apart := by
  by_cases repeated : a.inOneRow = true ∧ log.extraRows a.start.row ≠ 0
  · have rows := map_row_carriedCopies room
    rw [if_pos repeated.1] at rows
    have increasing : (log.carriedCopies a).Pairwise fun x y => x.start.row < y.start.row := by
      rw [← List.pairwise_map (f := fun copy : CellRange => copy.start.row), rows]
      exact List.pairwise_lt_range'
    refine increasing.imp_of_mem fun {x y} memX _ before => ?_
    obtain ⟨-, bottom, -⟩ := corners_of_mem_carriedCopies room memX
    have within : a.start.row = a.stop.row := eq_of_beq repeated.1
    rintro row col ⟨_, _, _, _⟩ ⟨_, _, _, _⟩
    omega
  · have once : log.carriedCopies a = [log.carryRange a] := if_neg repeated
    rw [once]
    exact List.pairwise_singleton ..

end Pairs

end InsertionLog

/-! ## The list of merges -/

/-- The range of an entry, if it has one that can be read. -/
def mergedRange? (merge : Element) : Option CellRange :=
  (merge.attr? "ref").bind fun reference => (CellRange.read reference).toOption

/-- The ranges of a list of merged cells. -/
def mergedRanges (merges : Element) : List CellRange := merges.elements.filterMap mergedRange?

theorem wellFormed_of_mem_mergedRanges {merges : Element} {r : CellRange}
    (mem : r ∈ mergedRanges merges) : r.WellFormed := by
  obtain ⟨merge, -, found⟩ := List.mem_filterMap.mp mem
  obtain ⟨reference, -, read⟩ := Option.bind_eq_some_iff.mp found
  cases result : CellRange.read reference with
  | ok range =>
      rw [result] at read
      cases Option.some.inj read
      exact CellRange.wellFormed_of_read result
  | error fault =>
      rw [result] at read
      cases read

namespace InsertionLog

theorem wellFormed_of_mem_carriedCopies {log : InsertionLog} {r copy : CellRange}
    (mem : copy ∈ log.carriedCopies r) : copy.WellFormed := by
  rw [carriedCopies] at mem
  dsimp only at mem
  split at mem
  · obtain ⟨k, -, rfl⟩ := List.mem_map.mp mem
    exact CellRange.wellFormed_relocate ..
  · rw [List.mem_singleton.mp mem]
    exact CellRange.wellFormed_relocate ..

end InsertionLog

theorem adjustMerge_eq (log : InsertionLog) (merge : Element) (range : CellRange) :
    adjustMerge log merge range =
      (log.carriedCopies range).map fun copy => merge.setAttr "ref" copy.text := by
  rw [adjustMerge, InsertionLog.carriedCopies]
  dsimp only
  cases range.inOneRow with
  | false => rfl
  | true =>
      rw [if_pos rfl]
      split
      · rename_i alone
        rw [if_neg fun repeated => repeated.2 alone]
        rfl
      · rename_i several
        rw [if_pos ⟨rfl, several⟩, List.map_map]
        rfl

/-- An entry has the range that it is given. -/
theorem mergedRange?_setAttr (merge : Element) {r : CellRange} (wellFormed : r.WellFormed) :
    mergedRange? (merge.setAttr "ref" r.text) = some r := by
  rw [mergedRange?, Element.attr?_setAttr_self, Option.bind_some, CellRange.read_text wellFormed]
  rfl

theorem filterMap_adjustMergeEntry (log : InsertionLog) (merge : Element) :
    (adjustMergeEntry log merge).filterMap mergedRange? =
      (mergedRange? merge).toList.flatMap log.carriedCopies := by
  rw [adjustMergeEntry, mergedRange?]
  cases found : merge.attr? "ref" with
  | none => rfl
  | some reference =>
      rw [Option.map_some, Option.bind_some]
      cases read : CellRange.read reference with
      | error fault =>
          have unread : mergedRange? merge = none := by
            rw [mergedRange?, found, Option.bind_some, read]
            rfl
          simp [unread, Except.toOption]
      | ok range =>
          show (adjustMerge log merge range).filterMap mergedRange? =
            [range].flatMap log.carriedCopies
          rw [adjustMerge_eq, List.filterMap_map, List.flatMap_singleton]
          refine (List.filterMap_congr fun copy mem => ?_).trans List.filterMap_some
          exact mergedRange?_setAttr merge (InsertionLog.wellFormed_of_mem_carriedCopies mem)

theorem elements_adjustMerges (log : InsertionLog) (merges : Element) :
    (adjustMerges log merges).elements = merges.elements.flatMap (adjustMergeEntry log) :=
  Element.elements_children ..

/-- The merges that are written are the copies of those of the template. -/
theorem mergedRanges_adjustMerges (log : InsertionLog) (merges : Element) :
    mergedRanges (adjustMerges log merges) = (mergedRanges merges).flatMap log.carriedCopies := by
  rw [mergedRanges, mergedRanges, elements_adjustMerges, List.filterMap_flatMap,
    List.filterMap_eq_flatMap_toList mergedRange?, List.flatMap_assoc]
  exact congrArg (merges.elements.flatMap ·)
    (funext fun merge => filterMap_adjustMergeEntry log merge)

/-- Merges without a common cell, none of them with several rows where cells were inserted, become
merges without a common cell. Each one keeps its size, one within a row is in each copy of the row
once, and the count that is written is that of the entries. -/
theorem adjustMerges_apart (log : InsertionLog) (merges : Element)
    (apart : (mergedRanges merges).Pairwise CellRange.Apart)
    (tall : ∀ r ∈ mergedRanges merges, r.inOneRow = false → log.KeepsColumns r)
    (room : ∀ r ∈ mergedRanges merges, log.HasRoomFor r) :
    (mergedRanges (adjustMerges log merges)).Pairwise CellRange.Apart ∧
      (∃ copies : List (List CellRange),
        mergedRanges (adjustMerges log merges) = copies.flatten ∧
          List.Forall₂ log.Carries (mergedRanges merges) copies) ∧
      (adjustMerges log merges).attr? "count" =
        some (Text.Numeral.text (adjustMerges log merges).elements.length) := by
  refine ⟨?_, ⟨(mergedRanges merges).map log.carriedCopies, ?_, ?_⟩, ?_⟩
  · rw [mergedRanges_adjustMerges, List.pairwise_flatMap]
    refine ⟨fun r mem => InsertionLog.pairwise_carriedCopies (room r mem), ?_⟩
    exact apart.imp_of_mem fun {a b} memA memB apart x memX y memY =>
      InsertionLog.apart_of_mem_carriedCopies (wellFormed_of_mem_mergedRanges memA)
        (wellFormed_of_mem_mergedRanges memB) (room a memA) (room b memB) (tall a memA)
        (tall b memB) apart memX memY
  · rw [mergedRanges_adjustMerges, List.flatMap_def]
  · rw [List.forall₂_map_right_iff, List.forall₂_same]
    exact fun r mem => InsertionLog.carries_carriedCopies (wellFormed_of_mem_mergedRanges mem)
      (room r mem) (tall r mem)
  · rw [adjustMerges, Element.elements_children]
    exact Element.attr?_setAttr_self ..

/-! ## Merges side by side, in a repeated row and below it -/

/-- Two rows are inserted after the second row, and cells into the first and the third one. -/
def mergedSheetLog : InsertionLog :=
  ((InsertionLog.empty.addRows 1 2).addCells 0 0 1).addCells 2 1 3

/-- Merges within these rows, a range of whole columns, which is no merge, and a merge of two
rows. -/
def mixedMerges : Element :=
  ⟨"mergeCells", [("count", "6")],
    ["C1:D1", "B2:C2", "A:B", "A3:B3", "C3", "A4:C5"].map fun reference =>
      .element ⟨"mergeCell", [("ref", reference)], []⟩⟩

theorem adjustMerges_apart_mixed :
    (adjustMerges mergedSheetLog mixedMerges).elements.map (·.attr? "ref") =
        ["D1:E1", "B2:C2", "B3:C3", "B4:C4", "A:B", "A5:B5", "F5", "A6:C7"].map some ∧
      (mergedRanges (adjustMerges mergedSheetLog mixedMerges)).Pairwise CellRange.Apart ∧
      (∃ copies : List (List CellRange),
        mergedRanges (adjustMerges mergedSheetLog mixedMerges) = copies.flatten ∧
          List.Forall₂ mergedSheetLog.Carries (mergedRanges mixedMerges) copies) ∧
      (adjustMerges mergedSheetLog mixedMerges).attr? "count" =
        some (Text.Numeral.text (adjustMerges mergedSheetLog mixedMerges).elements.length) :=
  ⟨by decide +kernel, adjustMerges_apart mergedSheetLog mixedMerges (by decide +kernel)
    (by decide +kernel) (by decide +kernel)⟩

end SheetFill
