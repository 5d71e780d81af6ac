import Mathlib
import SheetFill.Proofs.Folds
import SheetFill.Proofs.InsertionLog.Sums
import SheetFill.Worksheet.Plan

/-!
# The log of a planned sheet

The log of a sheet is written before anything is placed. Its sums are read off the plan: the rows
that come on top of the planned rows, and the cells that come on top of the planned cells of a row.
In a sheet whose rows and cells stand in order, the sum before a row or a cell is what the rows and
cells before it have grown by.
-/

namespace SheetFill

/-- How many cells come on top of some planned cells. -/
def extraCells (cells : List TemplateCell) : Nat :=
  (cells.map fun cell => cell.outcome.extraColumns).sum

/-- How many rows come on top of some planned rows. -/
def extraCopies (rows : List TemplateRow) : Nat := (rows.map fun row => row.copyCount - 1).sum

theorem extraCells_append (before after : List TemplateCell) :
    extraCells (before ++ after) = extraCells before + extraCells after := by
  rw [extraCells, List.map_append, List.sum_append]
  rfl

namespace TemplateRow

theorem one_le_copyCount (row : TemplateRow) : 1 ≤ row.copyCount := start_le_foldr_max 1 _

/-! ## Sums over the log of one row -/

theorem rows_logColumns (row : TemplateRow) (log : InsertionLog) :
    (row.logColumns log).rows = log.rows := by
  rw [logColumns]
  induction row.cells generalizing log with
  | nil => rfl
  | cons cell cells ih =>
      rw [List.foldl_cons, ih, InsertionLog.rows_addCells]

theorem columnsWhere_logColumns (row : TemplateRow) (log : InsertionLog) (r : Nat)
    (p : Nat → Bool) :
    (row.logColumns log).columnsWhere r p = log.columnsWhere r p +
      if row.number - 1 = r then extraCells (row.cells.filter fun cell => p (cell.column - 1))
      else 0 := by
  rw [logColumns]
  induction row.cells generalizing log with
  | nil => simp [extraCells]
  | cons cell cells ih =>
      rw [List.foldl_cons, ih, InsertionLog.columnsWhere_addCells, Nat.add_assoc]
      congr 1
      by_cases here : row.number - 1 = r
      · cases counted : p (cell.column - 1)
        · simp [here, counted]
        · simp [here, counted, extraCells]
      · simp [here]

theorem sumWhere_logInsertions (row : TemplateRow) (log : InsertionLog) (p : Nat → Bool) :
    (row.logInsertions log).rows.sumWhere p = log.rows.sumWhere p +
      if p (row.number - 1) then row.copyCount - 1 else 0 := by
  rw [logInsertions, InsertionLog.sumWhere_addRows, rows_logColumns]

theorem extraRows_logInsertions (row : TemplateRow) (log : InsertionLog) (r : Nat) :
    (row.logInsertions log).extraRows r = log.extraRows r +
      if row.number - 1 = r then row.copyCount - 1 else 0 := by
  rw [logInsertions, InsertionLog.extraRows_addRows, InsertionLog.extraRows, rows_logColumns]
  rfl

theorem columnsWhere_logInsertions (row : TemplateRow) (log : InsertionLog) (r : Nat)
    (p : Nat → Bool) :
    (row.logInsertions log).columnsWhere r p = log.columnsWhere r p +
      if row.number - 1 = r then extraCells (row.cells.filter fun cell => p (cell.column - 1))
      else 0 := by
  rw [logInsertions, InsertionLog.columnsWhere_addRows, columnsWhere_logColumns]

end TemplateRow

/-! ## Sums over the log of some rows -/

/-- The log of planned rows that come after what is logged already. -/
def logRows (log : InsertionLog) (rows : List TemplateRow) : InsertionLog :=
  rows.foldl (fun log row => row.logInsertions log) log

theorem sumWhere_logRows (log : InsertionLog) (rows : List TemplateRow) (p : Nat → Bool) :
    (logRows log rows).rows.sumWhere p =
      log.rows.sumWhere p + extraCopies (rows.filter fun row => p (row.number - 1)) := by
  induction rows generalizing log with
  | nil => rfl
  | cons row rows ih =>
      rw [logRows, List.foldl_cons]
      refine (ih (row.logInsertions log)).trans ?_
      rw [TemplateRow.sumWhere_logInsertions, Nat.add_assoc]
      cases counted : p (row.number - 1)
      · simp [counted]
      · simp [counted, extraCopies]

theorem extraRows_logRows (log : InsertionLog) (rows : List TemplateRow) (r : Nat) :
    (logRows log rows).extraRows r =
      log.extraRows r + extraCopies (rows.filter fun row => row.number - 1 = r) := by
  induction rows generalizing log with
  | nil => rfl
  | cons row rows ih =>
      rw [logRows, List.foldl_cons]
      refine (ih (row.logInsertions log)).trans ?_
      rw [TemplateRow.extraRows_logInsertions, Nat.add_assoc]
      by_cases here : row.number - 1 = r
      · simp [here, extraCopies]
      · simp [here]

theorem columnsWhere_logRows (log : InsertionLog) (rows : List TemplateRow) (r : Nat)
    (p : Nat → Bool) :
    (logRows log rows).columnsWhere r p = log.columnsWhere r p +
      extraCells (((rows.filter fun row => row.number - 1 = r).flatMap (·.cells)).filter
        fun cell => p (cell.column - 1)) := by
  induction rows generalizing log with
  | nil => rfl
  | cons row rows ih =>
      rw [logRows, List.foldl_cons]
      refine (ih (row.logInsertions log)).trans ?_
      rw [TemplateRow.columnsWhere_logInsertions, Nat.add_assoc]
      by_cases here : row.number - 1 = r
      · simp [here, extraCells_append]
      · simp [here]

/-! ## Positions in order -/

section Ordered

variable {α : Type} {position : α → Nat} {before after : List α} {x : α}

/-- The positions of a list increase, and none of them is zero. -/
structure InOrder (position : α → Nat) (xs : List α) : Prop where
  /-- They increase. -/
  increasing : xs.Pairwise fun a b => position a < position b
  /-- They are counted from one. -/
  positive : ∀ a ∈ xs, 1 ≤ position a

theorem InOrder.before_lt (h : InOrder position (before ++ x :: after)) :
    ∀ a ∈ before, position a - 1 < position x - 1 := by
  intro a mem
  have below := (List.pairwise_append.mp h.increasing).2.2 a mem x (List.mem_cons_self ..)
  have least := h.positive a (List.mem_append_left _ mem)
  omega

theorem InOrder.lt_after (h : InOrder position (before ++ x :: after)) :
    ∀ a ∈ after, position x - 1 < position a - 1 := by
  intro a mem
  have above := (List.pairwise_cons.mp (List.pairwise_append.mp h.increasing).2.1).1 a mem
  have least := h.positive x (List.mem_append_right _ (List.mem_cons_self ..))
  omega

theorem InOrder.filter_lt (h : InOrder position (before ++ x :: after)) :
    (before ++ x :: after).filter (fun a => position a - 1 < position x - 1) = before := by
  have all : before.filter (fun a => position a - 1 < position x - 1) = before :=
    List.filter_eq_self.mpr fun a mem => decide_eq_true (h.before_lt a mem)
  have none : (x :: after).filter (fun a => position a - 1 < position x - 1) = [] := by
    rw [List.filter_eq_nil_iff]
    intro a mem
    rw [decide_eq_true_iff]
    rcases List.mem_cons.mp mem with rfl | mem
    · exact Nat.lt_irrefl _
    · exact Nat.lt_asymm (h.lt_after a mem)
  rw [List.filter_append, all, none, List.append_nil]

theorem InOrder.filter_eq (h : InOrder position (before ++ x :: after)) :
    (before ++ x :: after).filter (fun a => position a - 1 = position x - 1) = [x] := by
  have left : before.filter (fun a => position a - 1 = position x - 1) = [] := by
    rw [List.filter_eq_nil_iff]
    intro a mem
    rw [decide_eq_true_iff]
    exact Nat.ne_of_lt (h.before_lt a mem)
  have right : after.filter (fun a => position a - 1 = position x - 1) = [] := by
    rw [List.filter_eq_nil_iff]
    intro a mem
    rw [decide_eq_true_iff]
    exact Nat.ne_of_gt (h.lt_after a mem)
  rw [List.filter_append, left, List.filter_cons, right, List.nil_append]
  exact if_pos (decide_eq_true rfl)

theorem InOrder.filter_le (h : InOrder position (before ++ x :: after)) :
    (before ++ x :: after).filter (fun a => position a - 1 ≤ position x - 1) = before ++ [x] := by
  have all : before.filter (fun a => position a - 1 ≤ position x - 1) = before :=
    List.filter_eq_self.mpr fun a mem => decide_eq_true (Nat.le_of_lt (h.before_lt a mem))
  have right : after.filter (fun a => position a - 1 ≤ position x - 1) = [] := by
    rw [List.filter_eq_nil_iff]
    intro a mem
    rw [decide_eq_true_iff]
    exact Nat.not_le_of_gt (h.lt_after a mem)
  rw [List.filter_append, all, List.filter_cons, right]
  exact congrArg _ (if_pos (decide_eq_true (Nat.le_refl _)))

end Ordered

section Rows

variable {before after : List TemplateRow} {row : TemplateRow}

theorem firstRow_logRows (h : InOrder TemplateRow.number (before ++ row :: after)) :
    (logRows .empty (before ++ row :: after)).firstRow (row.number - 1) =
      InsertionLog.bounded (row.number - 1 + extraCopies before) := by
  rw [InsertionLog.firstRow, sumWhere_logRows, h.filter_lt]
  exact congrArg (fun n => InsertionLog.bounded (row.number - 1 + n)) (Nat.zero_add _)

theorem extraRows_logRows_self (h : InOrder TemplateRow.number (before ++ row :: after)) :
    (logRows .empty (before ++ row :: after)).extraRows (row.number - 1) = row.copyCount - 1 := by
  rw [extraRows_logRows, h.filter_eq, extraCopies]
  exact (Nat.zero_add _).trans (Nat.add_zero _)

theorem columnsWhere_logRows_self (h : InOrder TemplateRow.number (before ++ row :: after))
    (p : Nat → Bool) :
    (logRows .empty (before ++ row :: after)).columnsWhere (row.number - 1) p =
      extraCells (row.cells.filter fun cell => p (cell.column - 1)) := by
  rw [columnsWhere_logRows, h.filter_eq, List.flatMap_singleton]
  exact Nat.zero_add _

variable {left right : List TemplateCell} {cell : TemplateCell}

theorem firstColumn_logRows (h : InOrder TemplateRow.number (before ++ row :: after))
    (split : row.cells = left ++ cell :: right)
    (cells : InOrder TemplateCell.column (left ++ cell :: right)) :
    (logRows .empty (before ++ row :: after)).firstColumn (row.number - 1) (cell.column - 1) =
      InsertionLog.bounded (cell.column - 1 + extraCells left) := by
  rw [InsertionLog.firstColumn, columnsWhere_logRows_self h, split, cells.filter_lt]

theorem lastColumn_logRows (h : InOrder TemplateRow.number (before ++ row :: after))
    (split : row.cells = left ++ cell :: right)
    (cells : InOrder TemplateCell.column (left ++ cell :: right)) :
    (logRows .empty (before ++ row :: after)).lastColumn (row.number - 1) (cell.column - 1) =
      InsertionLog.bounded (cell.column - 1 + extraCells left + cell.outcome.extraColumns) := by
  rw [InsertionLog.lastColumn, columnsWhere_logRows_self h, split, cells.filter_le,
    extraCells_append, Nat.add_assoc]
  rfl

end Rows

end SheetFill
