import SheetFill.InsertionLog.Basic

/-!
# Where rows and cells go

The sums of a log grow with the position up to which they are taken. So rows and cells keep their
order, and the copies of a row or of a cell come after all copies of those before it. On a sheet,
where no position comes near the largest one, the copies of a row are the rows from `firstRow` to
`lastRow` (`lastRow_eq`).
-/

namespace SheetFill

namespace PositionMap

theorem sumWhere_le_sumWhere (m : PositionMap Nat) {p q : Nat → Bool}
    (wider : ∀ k, p k = true → q k = true) : m.sumWhere p ≤ m.sumWhere q := by
  rw [sumWhere, sumWhere]
  induction m.entries with
  | nil => exact Nat.le_refl _
  | cons entry rest ih =>
      cases here : p entry.1 with
      | true =>
          simp only [List.filter_cons, here, wider entry.1 here, if_true, List.map_cons,
            List.foldr_cons]
          omega
      | false =>
          simp only [List.filter_cons, here, Bool.false_eq_true, if_false]
          split
          · simp only [List.map_cons, List.foldr_cons]
            omega
          · exact ih

theorem filter_above {α : Type} {k : Nat} {entries : List (Nat × α)} {p : Nat → Bool}
    (above : ∀ entry ∈ entries, k < entry.1) (upTo : ∀ j, p j = true → j ≤ k) :
    entries.filter (fun entry => p entry.1) = [] := by
  rw [List.filter_eq_nil_iff]
  intro entry mem counted
  exact absurd (upTo entry.1 counted) (Nat.not_le_of_lt (above entry mem))

/-- The sum up to a position is the sum before it and the amount there. -/
theorem sumWhere_le_eq (m : PositionMap Nat) (k : Nat) :
    m.sumWhere (· ≤ k) = m.sumWhere (· < k) + (m.get? k).getD 0 := by
  rw [sumWhere, sumWhere, get?]
  obtain ⟨entries, increasing⟩ := m
  dsimp only
  induction entries with
  | nil => rfl
  | cons entry rest ih =>
      obtain ⟨j, amount⟩ := entry
      obtain ⟨above, later⟩ := List.pairwise_cons.mp increasing
      rcases Nat.lt_trichotomy j k with before | rfl | after
      · have other : (j == k) = false := beq_false_of_ne (Nat.ne_of_lt before)
        simp only [List.filter_cons, before, Nat.le_of_lt before, decide_true, if_true,
          List.map_cons, List.foldr_cons, List.find?_cons, other, ih later, Nat.add_assoc]
      · have upTo := filter_above (p := (· ≤ j)) above fun i le => of_decide_eq_true le
        have below := filter_above (p := (· < j)) above
          fun i lt => Nat.le_of_lt (of_decide_eq_true lt)
        simp [upTo, below]
      · have other : (j == k) = false := beq_false_of_ne (Nat.ne_of_gt after)
        have far : ∀ entry ∈ rest, k < entry.1 :=
          fun entry mem => Nat.lt_trans after (above entry mem)
        have upTo := filter_above (p := (· ≤ k)) far fun i le => of_decide_eq_true le
        have below := filter_above (p := (· < k)) far
          fun i lt => Nat.le_of_lt (of_decide_eq_true lt)
        have absent : rest.find? (fun entry => entry.1 == k) = none := by
          rw [List.find?_eq_none]
          intro entry mem
          simpa using Nat.ne_of_gt (far entry mem)
        simp [upTo, below, Nat.not_le_of_lt after, Nat.not_lt_of_gt after, other, absent]

end PositionMap

namespace InsertionLog

variable {log : InsertionLog}

/-! ## Rows -/

theorem bounded_eq {n : Nat} (small : bounded n < Text.Numeral.maxWord32) : bounded n = n := by
  rw [bounded] at small ⊢
  split
  · rfl
  · rename_i large
    rw [if_neg large] at small
    exact absurd small (Nat.lt_irrefl _)

theorem bounded_le (n : Nat) : bounded n ≤ n := by
  rw [bounded]
  split
  · exact Nat.le_refl _
  · omega

theorem le_bounded {m n : Nat} (le : m ≤ n) (small : m ≤ Text.Numeral.maxWord32) :
    m ≤ bounded n := by
  rw [bounded]
  split
  · exact le
  · exact small

theorem bounded_mono {m n : Nat} (le : m ≤ n) : bounded m ≤ bounded n := by
  rw [bounded, bounded]
  split
  · split
    · exact le
    · assumption
  · exact Nat.le_of_eq (if_neg (by omega)).symm

theorem bounded_le_maxWord32 (n : Nat) : bounded n ≤ Text.Numeral.maxWord32 := by
  rw [bounded]
  split
  · assumption
  · exact Nat.le_refl _

theorem bounded_add (n k : Nat) : bounded (bounded n + k) = bounded (n + k) := by
  by_cases small : n ≤ Text.Numeral.maxWord32
  · rw [show bounded n = n from if_pos small]
  · have cut : bounded n = Text.Numeral.maxWord32 := if_neg small
    refine Nat.le_antisymm (bounded_mono ?_) ?_
    · exact Nat.add_le_add_right (bounded_le n) k
    · refine Nat.le_trans (bounded_le_maxWord32 _) (le_bounded ?_ (Nat.le_refl _))
      omega

/-- With nothing inserted a row of a sheet stays where it is. -/
theorem firstRow_empty {row : Nat} (inside : row < maxRows) : empty.firstRow row = row :=
  if_pos (Nat.le_trans (Nat.le_of_lt inside) (by decide))

theorem lastRow_empty {row : Nat} (inside : row < maxRows) : empty.lastRow row = row :=
  if_pos (Nat.le_trans (Nat.le_of_lt inside) (by decide))

theorem firstRow_mono {row later : Nat} (before : row ≤ later) :
    log.firstRow row ≤ log.firstRow later := by
  have sums : log.rows.sumWhere (· < row) ≤ log.rows.sumWhere (· < later) :=
    log.rows.sumWhere_le_sumWhere fun _ lt =>
      decide_eq_true (Nat.lt_of_lt_of_le (of_decide_eq_true lt) before)
  exact bounded_mono (Nat.add_le_add before sums)

theorem lastRow_mono {row later : Nat} (before : row ≤ later) :
    log.lastRow row ≤ log.lastRow later := by
  have sums : log.rows.sumWhere (· ≤ row) ≤ log.rows.sumWhere (· ≤ later) :=
    log.rows.sumWhere_le_sumWhere fun _ le =>
      decide_eq_true (Nat.le_trans (of_decide_eq_true le) before)
  exact bounded_mono (Nat.add_le_add before sums)

theorem firstRow_le_lastRow (log : InsertionLog) (row : Nat) : log.firstRow row ≤ log.lastRow row :=
  bounded_mono (Nat.add_le_add_left (log.rows.sumWhere_le_sumWhere fun _ lt =>
    decide_eq_true (Nat.le_of_lt (of_decide_eq_true lt))) row)

/-- The rows before a row have grown by no less than those before an earlier row, with its
copies. -/
theorem sumWhere_rows_le {row later : Nat} (before : row < later) :
    log.rows.sumWhere (· ≤ row) ≤ log.rows.sumWhere (· < later) :=
  log.rows.sumWhere_le_sumWhere fun _ le =>
    decide_eq_true (Nat.lt_of_le_of_lt (of_decide_eq_true le) before)

/-- The copies of a row up to its last one, if that is not cut off. -/
theorem lastRow_eq {row : Nat} (small : log.lastRow row < Text.Numeral.maxWord32) :
    log.firstRow row = row + log.rows.sumWhere (· < row) ∧
      log.lastRow row = log.firstRow row + log.extraRows row := by
  have whole : log.lastRow row = row + log.rows.sumWhere (· ≤ row) := bounded_eq small
  have sum := log.rows.sumWhere_le_eq row
  have first : log.firstRow row = row + log.rows.sumWhere (· < row) := by
    refine bounded_eq (Nat.lt_of_le_of_lt (bounded_mono ?_) small)
    omega
  refine ⟨first, ?_⟩
  rw [whole, first, sum, Nat.add_assoc]
  rfl

/-! ## Columns -/

theorem columnsWhere_mono {row : Nat} {p q : Nat → Bool} (wider : ∀ k, p k = true → q k = true) :
    log.columnsWhere row p ≤ log.columnsWhere row q := by
  rw [columnsWhere, columnsWhere]
  cases log.columns.get? row with
  | none => exact Nat.le_refl _
  | some cells =>
      simp only [Option.map_some, Option.getD_some]
      exact cells.sumWhere_le_sumWhere wider

theorem columnsWhere_le {row col later : Nat} (before : col ≤ later) :
    log.columnsWhere row (· ≤ col) ≤ log.columnsWhere row (· ≤ later) :=
  columnsWhere_mono fun _ le => decide_eq_true (Nat.le_trans (of_decide_eq_true le) before)

theorem firstColumn_mono {row col later : Nat} (before : col ≤ later) :
    log.firstColumn row col ≤ log.firstColumn row later :=
  bounded_mono (Nat.add_le_add before
    (columnsWhere_mono fun _ lt =>
      decide_eq_true (Nat.lt_of_lt_of_le (of_decide_eq_true lt) before)))

theorem lastColumn_mono {row col later : Nat} (before : col ≤ later) :
    log.lastColumn row col ≤ log.lastColumn row later :=
  bounded_mono (Nat.add_le_add before (columnsWhere_le before))

theorem firstColumn_le_lastColumn (log : InsertionLog) (row col : Nat) :
    log.firstColumn row col ≤ log.lastColumn row col :=
  bounded_mono (Nat.add_le_add_left (columnsWhere_mono fun _ lt =>
    decide_eq_true (Nat.le_of_lt (of_decide_eq_true lt))) col)

/-- A column of a sheet is not right of its first copy. -/
theorem le_firstColumn {row col : Nat} (inside : col < maxColumns) : col ≤ log.firstColumn row col :=
  le_bounded (Nat.le_add_right ..) (Nat.le_trans (Nat.le_of_lt inside) (by decide))

/-- A column of a sheet is not right of its last copy. -/
theorem le_lastColumn {row col : Nat} (inside : col < maxColumns) : col ≤ log.lastColumn row col :=
  le_bounded (Nat.le_add_right ..) (Nat.le_trans (Nat.le_of_lt inside) (by decide))

theorem columnsWhere_eq_zero {row : Nat} (none : log.columnsWhere row (fun _ => true) = 0)
    (p : Nat → Bool) : log.columnsWhere row p = 0 := by
  rw [columnsWhere] at none ⊢
  cases found : log.columns.get? row with
  | none => rfl
  | some cells =>
      rw [found] at none
      exact Nat.eq_zero_of_le_zero
        (Nat.le_trans (cells.sumWhere_le_sumWhere fun _ _ => rfl) (Nat.le_of_eq none))

end InsertionLog

end SheetFill
