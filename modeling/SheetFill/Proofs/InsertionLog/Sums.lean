import SheetFill.InsertionLog.Basic

/-!
# What a log adds up to

A log is written one insertion at a time and read through sums over the positions before a row or a
cell. Each insertion adds its amount to the sums that count its position, and to nothing else. So
the order of the insertions does not matter, and a sum over the finished log is the sum of the
amounts that were recorded.
-/

namespace SheetFill

namespace PositionMap

/-! ## Updates -/

variable {α : Type}

theorem find?_updateEntries_self (k : Nat) (f : Option α → α) {entries : List (Nat × α)}
    (increasing : entries.Pairwise (fun a b => a.1 < b.1)) :
    ((updateEntries k f entries).find? fun entry => entry.1 == k).map (·.2) =
      some (f ((entries.find? fun entry => entry.1 == k).map (·.2))) := by
  induction entries with
  | nil => simp [updateEntries]
  | cons head rest ih =>
      obtain ⟨j, a⟩ := head
      obtain ⟨above, later⟩ := List.pairwise_cons.mp increasing
      rcases Nat.lt_trichotomy k j with before | same | after
      · have absent : rest.find? (fun entry => entry.1 == k) = none := by
          rw [List.find?_eq_none]
          intro entry mem
          have further := above entry mem
          simp only [beq_iff_eq]
          omega
        simp [updateEntries, before, absent, Nat.ne_of_gt before]
      · subst same
        simp [updateEntries]
      · have other : (j == k) = false := beq_false_of_ne (Nat.ne_of_lt after)
        simp [updateEntries, Nat.not_lt_of_gt after, Nat.ne_of_gt after, other, ih later]

theorem find?_updateEntries_of_ne {j k : Nat} (different : j ≠ k) (f : Option α → α)
    (entries : List (Nat × α)) :
    ((updateEntries k f entries).find? fun entry => entry.1 == j) =
      entries.find? fun entry => entry.1 == j := by
  have skip : (k == j) = false := beq_false_of_ne different.symm
  induction entries with
  | nil => simp [updateEntries, skip]
  | cons head rest ih =>
      obtain ⟨i, a⟩ := head
      rw [updateEntries]
      split
      · rw [List.find?_cons, skip]
      · split
        · rename_i same
          subst same
          rw [List.find?_cons, List.find?_cons, skip]
        · rw [List.find?_cons, List.find?_cons, ih]

theorem get?_update_self (m : PositionMap α) (k : Nat) (f : Option α → α) :
    (m.update k f).get? k = some (f (m.get? k)) :=
  find?_updateEntries_self k f m.increasing

theorem get?_update_of_ne (m : PositionMap α) {j k : Nat} (different : j ≠ k)
    (f : Option α → α) : (m.update k f).get? j = m.get? j :=
  congrArg _ (find?_updateEntries_of_ne different f m.entries)

/-- The amounts of entries that satisfy `p`, added up. -/
theorem sumWhere_updateEntries (p : Nat → Bool) (k extra : Nat) (entries : List (Nat × Nat)) :
    (((updateEntries k (InsertionLog.more extra) entries).filter fun entry => p entry.1).map
        (·.2)).foldr (· + ·) 0 =
      ((entries.filter fun entry => p entry.1).map (·.2)).foldr (· + ·) 0 +
        if p k then extra else 0 := by
  induction entries with
  | nil => cases counted : p k <;> simp [updateEntries, InsertionLog.more, counted]
  | cons head rest ih =>
      obtain ⟨j, amount⟩ := head
      rw [updateEntries]
      split
      · cases counted : p k <;> simp [InsertionLog.more, counted, Nat.add_comm]
      · split
        · rename_i same
          subst same
          cases counted : p k
          · simp [counted]
          · simp only [InsertionLog.more, counted, List.filter_cons, List.map_cons,
              List.foldr_cons, Option.getD_some, if_true]
            omega
        · cases counted : p j <;> simp [counted, ih, Nat.add_assoc]

/-- An insertion counts where its position counts. -/
theorem sumWhere_update (m : PositionMap Nat) (p : Nat → Bool) (k extra : Nat) :
    (m.update k (InsertionLog.more extra)).sumWhere p =
      m.sumWhere p + if p k then extra else 0 :=
  sumWhere_updateEntries p k extra m.entries

end PositionMap

namespace InsertionLog

/-! ## One insertion -/

theorem sumWhere_addRows (log : InsertionLog) (p : Nat → Bool) (row extra : Nat) :
    (log.addRows row extra).rows.sumWhere p = log.rows.sumWhere p + if p row then extra else 0 := by
  rw [addRows]
  split
  · rename_i none
    subst none
    simp
  · exact log.rows.sumWhere_update p row extra

theorem extraRows_addRows (log : InsertionLog) (r row extra : Nat) :
    (log.addRows row extra).extraRows r = log.extraRows r + if row = r then extra else 0 := by
  rw [addRows]
  split
  · rename_i none
    subst none
    simp
  · by_cases same : row = r
    · subst same
      rw [extraRows, PositionMap.get?_update_self, if_pos rfl]
      rfl
    · rw [extraRows, PositionMap.get?_update_of_ne _ (Ne.symm same), if_neg same]
      rfl

theorem columnsWhere_addRows (log : InsertionLog) (r : Nat) (p : Nat → Bool) (row extra : Nat) :
    (log.addRows row extra).columnsWhere r p = log.columnsWhere r p := by
  rw [addRows]
  split
  · rfl
  · rfl

theorem rows_addCells (log : InsertionLog) (row col extra : Nat) :
    (log.addCells row col extra).rows = log.rows := by
  rw [addCells]
  split
  · rfl
  · rfl

theorem columnsWhere_addCells (log : InsertionLog) (r : Nat) (p : Nat → Bool)
    (row col extra : Nat) :
    (log.addCells row col extra).columnsWhere r p =
      log.columnsWhere r p + if row = r ∧ p col then extra else 0 := by
  rw [addCells]
  split
  · rename_i none
    subst none
    simp
  · by_cases same : row = r
    · subst same
      simp only [columnsWhere, PositionMap.get?_update_self, Option.map_some, Option.getD_some,
        PositionMap.sumWhere_update, true_and]
      cases log.columns.get? row with
      | none => rfl
      | some cells => rfl
    · rw [columnsWhere, PositionMap.get?_update_of_ne _ (Ne.symm same),
        if_neg fun both => same both.1]
      rfl

end InsertionLog

end SheetFill
