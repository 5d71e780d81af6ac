import Mathlib
import SheetFill.Proofs.InsertionLog.Positions
import SheetFill.Proofs.InsertionLog.Sums

/-!
# What a log says about an axis

A log of some insertions records the total of what was inserted at each position and nothing else
(`records_ofInsertions`). A map from positions has one form for its contents, so logs with the same
totals are equal. In particular the order of the insertions does not matter.

What the rows or the columns of a template become are blocks of positions, one after another from
zero on, each as long as the insertions at its position say (`tiles_firstRow`,
`tiles_firstColumn`). The blocks leave no position out and share none. Positions end at the largest
one of 32 bits, where they are cut off.
-/

namespace SheetFill

open Text.Numeral (maxWord32)

/-! ## Maps with the same contents -/

namespace PositionMap

variable {α : Type}

theorem mem_entries_iff (m : PositionMap α) (k : Nat) (a : α) :
    (k, a) ∈ m.entries ↔ m.get? k = some a := by
  obtain ⟨entries, increasing⟩ := m
  rw [get?]
  dsimp only
  induction entries with
  | nil => simp
  | cons entry rest ih =>
      obtain ⟨j, b⟩ := entry
      obtain ⟨above, later⟩ := List.pairwise_cons.mp increasing
      rw [List.mem_cons, ih later, List.find?_cons]
      by_cases here : j = k
      · subst here
        have absent : rest.find? (fun entry => entry.1 == j) = none := by
          rw [List.find?_eq_none]
          intro entry mem
          simpa using Nat.ne_of_gt (above entry mem)
        simp [absent, eq_comm]
      · have skip : (j == k) = false := beq_false_of_ne here
        simp [skip, Ne.symm here]

/-- Maps with the same contents are equal. -/
theorem ext_get? {m m' : PositionMap α} (same : ∀ k, m.get? k = m'.get? k) : m = m' := by
  have distinct (m : PositionMap α) : m.entries.Nodup :=
    m.increasing.imp fun {a b} before equal => Nat.ne_of_lt before (congrArg Prod.fst equal)
  have perm : m.entries.Perm m'.entries := by
    refine (List.perm_ext_iff_of_nodup (distinct m) (distinct m')).mpr fun entry => ?_
    rw [mem_entries_iff, mem_entries_iff, same]
  have equal : m.entries = m'.entries :=
    perm.eq_of_pairwise (fun a b _ _ before after => absurd before (Nat.lt_asymm after))
      m.increasing m'.increasing
  cases m
  cases m'
  cases equal
  rfl

@[simp] theorem get?_empty (k : Nat) : (empty : PositionMap α).get? k = none := rfl

theorem isEmpty_iff (m : PositionMap α) : m.isEmpty = true ↔ m = empty := by
  obtain ⟨entries, increasing⟩ := m
  simp [isEmpty, empty]

end PositionMap

/-! ## Insertions -/

/-- One insertion, at a position of the template. -/
inductive Insertion where
  /-- Rows after a row. -/
  | rows (row extra : Nat)
  /-- Cells after a cell. -/
  | cells (row col extra : Nat)
deriving DecidableEq

namespace Insertion

/-- How much is inserted. -/
def extra : Insertion → Nat
  | .rows _ extra => extra
  | .cells _ _ extra => extra

/-- How many rows are inserted at the rows that satisfy `p`. -/
def rowsWhere (p : Nat → Bool) : Insertion → Nat
  | .rows row extra => if p row then extra else 0
  | .cells .. => 0

/-- How many cells are inserted in a row at the columns that satisfy `p`. -/
def cellsWhere (row : Nat) (p : Nat → Bool) : Insertion → Nat
  | .rows .. => 0
  | .cells row' col extra => if row' = row ∧ p col then extra else 0

theorem rowsWhere_le (insertion : Insertion) (p : Nat → Bool) :
    insertion.rowsWhere p ≤ insertion.extra := by
  cases insertion with
  | rows row extra =>
      rw [rowsWhere]
      split
      · exact Nat.le_refl _
      · exact Nat.zero_le _
  | cells row col extra => exact Nat.zero_le _

theorem cellsWhere_le (insertion : Insertion) (row : Nat) (p : Nat → Bool) :
    insertion.cellsWhere row p ≤ insertion.extra := by
  cases insertion with
  | rows row extra => exact Nat.zero_le _
  | cells row col extra =>
      rw [cellsWhere]
      split
      · exact Nat.le_refl _
      · exact Nat.zero_le _

end Insertion

/-- How many rows some insertions put after a row. -/
def rowTotal (insertions : List Insertion) (row : Nat) : Nat :=
  (insertions.map (Insertion.rowsWhere (· == row))).sum

/-- How many cells some insertions put after a cell. -/
def cellTotal (insertions : List Insertion) (row col : Nat) : Nat :=
  (insertions.map (Insertion.cellsWhere row (· == col))).sum

namespace InsertionLog

/-- The log with one more insertion. -/
def insert (log : InsertionLog) : Insertion → InsertionLog
  | .rows row extra => log.addRows row extra
  | .cells row col extra => log.addCells row col extra

/-- The log of some insertions. -/
def ofInsertions (insertions : List Insertion) : InsertionLog := insertions.foldl insert empty

/-- How many cells were inserted after a cell. -/
def extraCellsAt (log : InsertionLog) (row col : Nat) : Nat :=
  ((log.columns.get? row).bind (·.get? col)).getD 0

/-! ## Totals -/

/-- An amount that is recorded, unless it is nothing. -/
def amount? (n : Nat) : Option Nat := if n = 0 then none else some n

/-- A log records some amounts of rows and cells and nothing else. -/
structure Records (log : InsertionLog) (rows : Nat → Nat) (cells : Nat → Nat → Nat) : Prop where
  /-- The amounts of rows. -/
  rows : ∀ row, log.rows.get? row = amount? (rows row)
  /-- The amounts of cells. -/
  cells : ∀ row col, (log.columns.get? row).bind (·.get? col) = amount? (cells row col)
  /-- No row is there without an amount. -/
  inhabited : ∀ row, log.columns.get? row ≠ some .empty

variable {log log' : InsertionLog} {rows rows' : Nat → Nat} {cells cells' : Nat → Nat → Nat}

theorem amount?_inj {m n : Nat} : amount? m = amount? n ↔ m = n := by
  rw [amount?, amount?]
  split
  · split
    · simp [*]
    · simp only [reduceCtorEq, false_iff]
      omega
  · split
    · simp only [reduceCtorEq, false_iff]
      omega
    · exact Option.some_inj

theorem getD_amount? (n : Nat) : (amount? n).getD 0 = n := by
  rw [amount?]
  split
  · rename_i none
    exact none.symm
  · rfl

theorem some_more {extra : Nat} (something : extra ≠ 0) (n : Nat) :
    some (more extra (amount? n)) = amount? (n + extra) := by
  rw [more, getD_amount?]
  exact (if_neg (by omega)).symm

theorem records_empty : empty.Records (fun _ => 0) (fun _ _ => 0) :=
  ⟨fun _ => rfl, fun _ _ => rfl, fun _ => nofun⟩

theorem Records.addRows (records : log.Records rows cells) (row extra : Nat) :
    (log.addRows row extra).Records (fun r => rows r + if row == r then extra else 0) cells := by
  rw [InsertionLog.addRows]
  split
  · rename_i nothing
    simpa [nothing] using records
  · rename_i something
    refine ⟨fun r => ?_, records.cells, records.inhabited⟩
    by_cases here : row = r
    · subst here
      rw [PositionMap.get?_update_self, records.rows, some_more something,
        if_pos (beq_self_eq_true _)]
    · rw [PositionMap.get?_update_of_ne _ (Ne.symm here), records.rows,
        if_neg fun same => here (eq_of_beq same), Nat.add_zero]

theorem Records.addCells (records : log.Records rows cells) (row col extra : Nat) :
    (log.addCells row col extra).Records rows
      (fun r c => cells r c + if row = r ∧ col == c then extra else 0) := by
  rw [InsertionLog.addCells]
  split
  · rename_i nothing
    simpa [nothing] using records
  · rename_i something
    have bound (c : Nat) : ((log.columns.get? row).getD .empty).get? c = amount? (cells row c) := by
      rw [← records.cells row c]
      cases log.columns.get? row with
      | none => rfl
      | some m => rfl
    refine ⟨records.rows, fun r c => ?_, fun r => ?_⟩
    · by_cases here : row = r
      · subst here
        rw [PositionMap.get?_update_self, Option.bind_some]
        by_cases there : col = c
        · subst there
          rw [PositionMap.get?_update_self, bound, some_more something,
            if_pos ⟨rfl, beq_self_eq_true _⟩]
        · rw [PositionMap.get?_update_of_ne _ (Ne.symm there), bound,
            if_neg fun both => there (eq_of_beq both.2), Nat.add_zero]
      · rw [PositionMap.get?_update_of_ne _ (Ne.symm here), records.cells,
          if_neg fun both => here both.1, Nat.add_zero]
    · by_cases here : row = r
      · subst here
        rw [PositionMap.get?_update_self]
        intro none
        have absent := congrArg (PositionMap.get? · col) (Option.some.inj none)
        rw [PositionMap.get?_update_self, PositionMap.get?_empty] at absent
        cases absent
      · rw [PositionMap.get?_update_of_ne _ (Ne.symm here)]
        exact records.inhabited r

/-- An insertion adds to the amount at its position. -/
theorem Records.insert (records : log.Records rows cells) (insertion : Insertion) :
    (log.insert insertion).Records (fun r => rows r + insertion.rowsWhere (· == r))
      (fun r c => cells r c + insertion.cellsWhere r (· == c)) := by
  cases insertion with
  | rows row extra => exact records.addRows row extra
  | cells row col extra => exact records.addCells row col extra

theorem Records.foldl_insert (records : log.Records rows cells) (insertions : List Insertion) :
    (insertions.foldl InsertionLog.insert log).Records (fun r => rows r + rowTotal insertions r)
      (fun r c => cells r c + cellTotal insertions r c) := by
  induction insertions generalizing log rows cells with
  | nil => exact records
  | cons insertion insertions ih =>
      simpa only [rowTotal, cellTotal, List.map_cons, List.sum_cons, List.foldl_cons,
        Nat.add_assoc] using ih (records.insert insertion)

/-- The log of some insertions records their totals. -/
theorem records_ofInsertions (insertions : List Insertion) :
    (ofInsertions insertions).Records (rowTotal insertions) (cellTotal insertions) := by
  have records := records_empty.foldl_insert insertions
  simp only [Nat.zero_add] at records
  exact records

theorem Records.of_none (records : log.Records rows cells) {row : Nat}
    (none : log.columns.get? row = none) (col : Nat) : cells row col = 0 := by
  have nothing := records.cells row col
  rw [none] at nothing
  exact (amount?_inj (n := 0).mp nothing.symm)

theorem Records.of_some (records : log.Records rows cells) {row : Nat} {m : PositionMap Nat}
    (found : log.columns.get? row = some m) :
    (∀ col, m.get? col = amount? (cells row col)) ∧ ∃ col, cells row col ≠ 0 := by
  have amounts (col : Nat) : m.get? col = amount? (cells row col) := by
    rw [← records.cells, found, Option.bind_some]
  refine ⟨amounts, ?_⟩
  by_contra nothing
  have none (col : Nat) : m.get? col = PositionMap.empty.get? col := by
    rw [amounts, Classical.not_not.mp fun some_ => nothing ⟨col, some_⟩]
    rfl
  exact records.inhabited row (found.trans (congrArg some (PositionMap.ext_get? none)))

/-- A log is determined by the amounts that it records. -/
theorem Records.unique (records : log.Records rows cells) (records' : log'.Records rows cells) :
    log = log' := by
  have sameRows : log.rows = log'.rows :=
    PositionMap.ext_get? fun row => (records.rows row).trans (records'.rows row).symm
  have sameColumns : log.columns = log'.columns := by
    refine PositionMap.ext_get? fun row => ?_
    cases here : log.columns.get? row with
    | none =>
        cases there : log'.columns.get? row with
        | none => rfl
        | some m =>
            obtain ⟨col, something⟩ := (records'.of_some there).2
            exact absurd (records.of_none here col) something
    | some m =>
        obtain ⟨amounts, col, something⟩ := records.of_some here
        cases there : log'.columns.get? row with
        | none => exact absurd (records'.of_none there col) something
        | some m' =>
            have amounts' := (records'.of_some there).1
            exact congrArg some (PositionMap.ext_get? fun col =>
              (amounts col).trans (amounts' col).symm)
  cases log
  cases log'
  cases sameRows
  cases sameColumns
  rfl

/-- Logs of insertions are equal if the totals are, and only then. -/
theorem ofInsertions_eq_iff (insertions others : List Insertion) :
    ofInsertions insertions = ofInsertions others ↔
      (∀ row, rowTotal insertions row = rowTotal others row) ∧
        ∀ row col, cellTotal insertions row col = cellTotal others row col := by
  have records := records_ofInsertions insertions
  have records' := records_ofInsertions others
  refine ⟨fun same => ?_, fun ⟨rows, cells⟩ => ?_⟩
  · rw [← same] at records'
    exact ⟨fun row => amount?_inj.mp ((records.rows row).symm.trans (records'.rows row)),
      fun row col => amount?_inj.mp ((records.cells row col).symm.trans (records'.cells row col))⟩
  · rw [funext rows, funext fun row => funext (cells row)] at records
    exact records.unique records'

/-- The order of insertions does not matter. -/
theorem ofInsertions_perm {insertions others : List Insertion} (perm : insertions.Perm others) :
    ofInsertions insertions = ofInsertions others :=
  (ofInsertions_eq_iff insertions others).mpr
    ⟨fun _ => (perm.map _).sum_eq, fun _ _ => (perm.map _).sum_eq⟩

theorem isEmpty_iff_eq_empty (log : InsertionLog) : log.isEmpty = true ↔ log = empty := by
  obtain ⟨rows, columns⟩ := log
  rw [isEmpty, Bool.and_eq_true, PositionMap.isEmpty_iff, PositionMap.isEmpty_iff, empty,
    InsertionLog.mk.injEq]

/-- Nothing was inserted exactly if each insertion is of nothing. -/
theorem isEmpty_ofInsertions (insertions : List Insertion) :
    (ofInsertions insertions).isEmpty = true ↔ ∀ insertion ∈ insertions, insertion.extra = 0 := by
  have totals := ofInsertions_eq_iff insertions []
  rw [isEmpty_iff_eq_empty]
  refine totals.trans ⟨fun ⟨rows, cells⟩ insertion mem => ?_, fun nothing => ⟨fun row => ?_,
    fun row col => ?_⟩⟩
  · cases insertion with
    | rows row extra =>
        have zero := List.sum_eq_zero_iff.mp (rows row) _ (List.mem_map_of_mem mem)
        rw [Insertion.rowsWhere, if_pos (beq_self_eq_true row)] at zero
        exact zero
    | cells row col extra =>
        have zero := List.sum_eq_zero_iff.mp (cells row col) _ (List.mem_map_of_mem mem)
        rw [Insertion.cellsWhere, if_pos ⟨rfl, beq_self_eq_true col⟩] at zero
        exact zero
  · refine List.sum_eq_zero_iff.mpr fun n mem => ?_
    obtain ⟨insertion, source, rfl⟩ := List.mem_map.mp mem
    exact Nat.eq_zero_of_le_zero ((insertion.rowsWhere_le _).trans_eq (nothing _ source))
  · refine List.sum_eq_zero_iff.mpr fun n mem => ?_
    obtain ⟨insertion, source, rfl⟩ := List.mem_map.mp mem
    exact Nat.eq_zero_of_le_zero ((insertion.cellsWhere_le row _).trans_eq (nothing _ source))

/-! ## Sums -/

theorem sumWhere_insert (log : InsertionLog) (insertion : Insertion) (p : Nat → Bool) :
    (log.insert insertion).rows.sumWhere p = log.rows.sumWhere p + insertion.rowsWhere p := by
  cases insertion with
  | rows row extra => exact log.sumWhere_addRows p row extra
  | cells row col extra => exact congrArg (·.sumWhere p) (log.rows_addCells row col extra)

theorem columnsWhere_insert (log : InsertionLog) (insertion : Insertion) (row : Nat)
    (p : Nat → Bool) :
    (log.insert insertion).columnsWhere row p =
      log.columnsWhere row p + insertion.cellsWhere row p := by
  cases insertion with
  | rows row' extra => exact log.columnsWhere_addRows row p row' extra
  | cells row' col extra => exact log.columnsWhere_addCells row p row' col extra

/-- A sum to which an insertion adds no more than it inserts is no larger than all insertions
together. -/
theorem ofInsertions_le {F : InsertionLog → Nat} {amount : Insertion → Nat}
    (zero : F empty = 0)
    (step : ∀ log insertion, F (log.insert insertion) = F log + amount insertion)
    (small : ∀ insertion, amount insertion ≤ insertion.extra) (insertions : List Insertion) :
    F (ofInsertions insertions) ≤ (insertions.map Insertion.extra).sum := by
  have run (log : InsertionLog) : F (insertions.foldl insert log) ≤
      F log + (insertions.map Insertion.extra).sum := by
    induction insertions generalizing log with
    | nil => exact Nat.le_refl _
    | cons insertion insertions ih =>
        have first := step log insertion
        have rest := ih (log.insert insertion)
        have here := small insertion
        rw [List.foldl_cons, List.map_cons, List.sum_cons]
        omega
  have whole := run empty
  rwa [zero, Nat.zero_add] at whole

theorem sumWhere_ofInsertions_le (insertions : List Insertion) (p : Nat → Bool) :
    (ofInsertions insertions).rows.sumWhere p ≤ (insertions.map Insertion.extra).sum :=
  ofInsertions_le (F := fun log => log.rows.sumWhere p) rfl
    (fun log insertion => log.sumWhere_insert insertion p)
    (fun insertion => insertion.rowsWhere_le p) insertions

theorem columnsWhere_ofInsertions_le (insertions : List Insertion) (row : Nat)
    (p : Nat → Bool) :
    (ofInsertions insertions).columnsWhere row p ≤ (insertions.map Insertion.extra).sum :=
  ofInsertions_le (F := fun log => log.columnsWhere row p) rfl
    (fun log insertion => log.columnsWhere_insert insertion row p)
    (fun insertion => insertion.cellsWhere_le row p) insertions

/-! ## Blocks of positions -/

/-- Blocks of positions stand one after another from zero on, each as long as an amount says, and
are cut off at the largest position. -/
structure Blocks (first last extra : Nat → Nat) : Prop where
  /-- The first block starts at zero. -/
  zero : first 0 = 0
  /-- A block starts behind the one before it. -/
  next : ∀ n, first (n + 1) = bounded (last n + 1)
  /-- A block is longer than one position by its amount. -/
  length : ∀ n, last n = bounded (first n + extra n)

/-- Blocks tile the axis: below the largest position nothing is cut off, and each position is in one
block and no other. -/
structure Tiles (first last extra : Nat → Nat) : Prop extends Blocks first last extra where
  /-- The next block starts right behind a block, and a block is longer by its amount. -/
  exact : ∀ n, last n < maxWord32 → first (n + 1) = last n + 1 ∧ last n = first n + extra n
  /-- Each position is in one block. -/
  covers : ∀ place < maxWord32, ∃! n, first n ≤ place ∧ place ≤ last n

namespace Blocks

variable {first last extra : Nat → Nat}

theorem exact (blocks : Blocks first last extra) {n : Nat} (small : last n < maxWord32) :
    first (n + 1) = last n + 1 ∧ last n = first n + extra n := by
  have length := blocks.length n
  rw [length] at small
  rw [bounded_eq small] at length
  exact ⟨(blocks.next n).trans (if_pos (by rwa [length, ← bounded_eq small])), length⟩

theorem first_le_last (blocks : Blocks first last extra) (n : Nat) : first n ≤ last n := by
  have small : first n ≤ maxWord32 := by
    cases n with
    | zero => exact blocks.zero.trans_le (Nat.zero_le _)
    | succ n => exact (blocks.next n).trans_le (bounded_le_maxWord32 _)
  rw [blocks.length]
  exact le_bounded (Nat.le_add_right ..) small

theorem first_mono (blocks : Blocks first last extra) : Monotone first := by
  refine monotone_nat_of_le_succ fun n => ?_
  rw [blocks.next]
  have here := blocks.first_le_last n
  exact le_bounded (by omega) (here.trans ((blocks.length n).trans_le (bounded_le_maxWord32 _)))

theorem le_last (blocks : Blocks first last extra) {n : Nat} (small : n ≤ maxWord32) :
    n ≤ last n := by
  induction n with
  | zero => exact Nat.zero_le _
  | succ n ih =>
      refine le_trans ?_ (blocks.first_le_last (n + 1))
      rw [blocks.next]
      exact le_bounded (Nat.succ_le_succ (ih (by omega))) small

/-- Each position but the largest one is in one block and no other. -/
theorem existsUnique (blocks : Blocks first last extra) {place : Nat} (small : place < maxWord32) :
    ∃! n, first n ≤ place ∧ place ≤ last n := by
  have reached : ∃ n, place ≤ last n := ⟨place, blocks.le_last (Nat.le_of_lt small)⟩
  refine ⟨Nat.find reached, ⟨?_, Nat.find_spec reached⟩, fun n ⟨start, reaches⟩ => ?_⟩
  · -- All blocks before the first one that reaches the position end before it.
    cases found : Nat.find reached with
    | zero => exact blocks.zero.trans_le (Nat.zero_le _)
    | succ n =>
        have before : ¬ place ≤ last n := Nat.find_min reached (found ▸ Nat.lt_succ_self n)
        rw [blocks.next]
        exact (bounded_le _).trans (by omega)
  · -- A later block starts behind the end of that one.
    refine Nat.le_antisymm (Nat.le_of_not_lt fun later => ?_) (Nat.find_min' reached reaches)
    have behind := blocks.first_mono (Nat.succ_le_of_lt later)
    have past : place < first (Nat.find reached + 1) := by
      rw [blocks.next]
      exact le_bounded (Nat.succ_le_succ (Nat.find_spec reached)) small
    exact absurd (past.trans_le behind) (Nat.not_lt_of_le start)

/-- Blocks that are cut off at the largest position tile the axis up to there. -/
theorem tiles (blocks : Blocks first last extra) : Tiles first last extra where
  toBlocks := blocks
  exact _ small := blocks.exact small
  covers _ small := blocks.existsUnique small

end Blocks

/-- Positions that are moved by the sums of the amounts before them stand in blocks. -/
theorem blocks_of_sums {before upTo extra : Nat → Nat} (zero : before 0 = 0)
    (next : ∀ n, before (n + 1) = upTo n) (sum : ∀ n, upTo n = before n + extra n) :
    Blocks (fun n => bounded (n + before n)) (fun n => bounded (n + upTo n)) extra where
  zero := by
    rw [zero]
    exact if_pos (Nat.zero_le _)
  next n := by
    rw [next, bounded_add, Nat.add_right_comm]
  length n := by
    rw [sum, bounded_add, Nat.add_assoc]

theorem sumWhere_lt_zero (m : PositionMap Nat) : m.sumWhere (· < 0) = 0 := by
  simp [PositionMap.sumWhere]

theorem lt_succ_eq_le (n : Nat) : (fun k => decide (k < n + 1)) = fun k => decide (k ≤ n) :=
  funext fun _ => decide_eq_decide.mpr Nat.lt_succ_iff

/-- What the rows of a template become tiles the rows. -/
theorem tiles_firstRow (log : InsertionLog) : Tiles log.firstRow log.lastRow log.extraRows :=
  (blocks_of_sums (sumWhere_lt_zero log.rows) (fun n => by rw [lt_succ_eq_le])
    fun n => log.rows.sumWhere_le_eq n).tiles

/-- What the cells of a row become tiles the columns. -/
theorem tiles_firstColumn (log : InsertionLog) (row : Nat) :
    Tiles (log.firstColumn row) (log.lastColumn row) (log.extraCellsAt row) := by
  refine (blocks_of_sums ?_ (fun n => by rw [lt_succ_eq_le]) fun n => ?_).tiles
  · rw [columnsWhere]
    cases log.columns.get? row with
    | none => rfl
    | some cells => exact sumWhere_lt_zero cells
  · rw [columnsWhere, columnsWhere, extraCellsAt]
    cases log.columns.get? row with
    | none => rfl
    | some cells => exact cells.sumWhere_le_eq n

/-- The log of some insertions depends on their totals only, and not on their order; it is empty if
each of them is of nothing. What the rows become tiles the rows, and what the cells of a row become
tiles the columns, each block longer by the total at its position. No sum of the log is larger than
all insertions together. -/
theorem ofInsertions_tiles (insertions : List Insertion) :
    let log := ofInsertions insertions
    (∀ others, ofInsertions others = log ↔
        (∀ row, rowTotal others row = rowTotal insertions row) ∧
          ∀ row col, cellTotal others row col = cellTotal insertions row col) ∧
      (∀ others, others.Perm insertions → ofInsertions others = log) ∧
      (log.isEmpty = true ↔ ∀ insertion ∈ insertions, insertion.extra = 0) ∧
      (∀ row, log.extraRows row = rowTotal insertions row) ∧
      Tiles log.firstRow log.lastRow (rowTotal insertions) ∧
      (∀ row, Tiles (log.firstColumn row) (log.lastColumn row) (cellTotal insertions row)) ∧
      (∀ p, log.rows.sumWhere p ≤ (insertions.map Insertion.extra).sum) ∧
      ∀ row p, log.columnsWhere row p ≤ (insertions.map Insertion.extra).sum := by
  intro log
  have records := records_ofInsertions insertions
  have rows (row : Nat) : log.extraRows row = rowTotal insertions row := by
    rw [extraRows, records.rows, getD_amount?]
  have cells (row col : Nat) : log.extraCellsAt row col = cellTotal insertions row col := by
    rw [extraCellsAt, records.cells, getD_amount?]
  refine ⟨fun others => ofInsertions_eq_iff others insertions, fun _ => ofInsertions_perm,
    isEmpty_ofInsertions insertions, rows, ?_, fun row => ?_,
    sumWhere_ofInsertions_le insertions, columnsWhere_ofInsertions_le insertions⟩
  · rw [← funext rows]
    exact tiles_firstRow log
  · rw [← funext (cells row)]
    exact tiles_firstColumn log row

/-- Two rows after the first one: the last copy of the third row from the end is the largest
position of 32 bits, and the row after it does not start behind that. -/
theorem ofInsertions_cutOff :
    let log := ofInsertions [.rows 0 2]
    log.lastRow 4294967293 = maxWord32 ∧ log.firstRow (4294967293 + 1) = maxWord32 ∧
      log.firstRow (4294967293 + 1) ≠ log.lastRow 4294967293 + 1 := by
  decide +kernel

end InsertionLog

end SheetFill
