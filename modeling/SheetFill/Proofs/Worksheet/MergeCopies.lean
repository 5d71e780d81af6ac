import SheetFill.Proofs.Worksheet.Dimension

/-!
# Merges in copies beyond the sheet

A merge within one row is repeated in every copy of that row that the log counts. The log counts the
copies that the sheet has no room for, too, and a range that is sent beyond the sheet stops in its
last row. So a merge is written once for every copy that is written, and then once more in the last
row for every copy that is left out (`mergedRows_fillSheet`). The ranges that are written for one
merge repeat unless the sheet has room for all copies.
-/

namespace SheetFill

open Xml

/-! ## Numbers that are cut off -/

theorem filter_range_le (limit first count : Nat) :
    (List.range count).filter (fun k => first + k + 1 ≤ limit) =
      List.range (min count (limit - first)) := by
  induction count with
  | zero => simp
  | succ count ih =>
      rw [List.range_succ, List.filter_append, ih]
      by_cases room : first + count < limit
      · have all : min count (limit - first) = count := by omega
        have all' : min (count + 1) (limit - first) = count + 1 := by omega
        simp [all, all', List.range_succ, room]
      · have none : min (count + 1) (limit - first) = min count (limit - first) := by omega
        simp [none, room]

/-- Numbers that are cut off at a last one end in repetitions of it. -/
theorem map_clamp_range (last first count : Nat) :
    (List.range count).map (fun k => CellAddress.clamp last (first + k)) =
      (List.range (min count (last + 1 - first))).map (first + ·) ++
        List.replicate (count - (last + 1 - first)) last := by
  have split : count = min count (last + 1 - first) + (count - (last + 1 - first)) := by omega
  conv_lhs => rw [split]
  rw [List.range_add, List.map_append, List.map_map]
  congr 1
  · refine List.map_congr_left fun k mem => CellAddress.clamp_of_le ?_
    have inside := List.mem_range.mp mem
    omega
  · rw [List.eq_replicate_iff]
    refine ⟨by rw [List.length_map, List.length_range], fun n mem => ?_⟩
    obtain ⟨k, inside, rfl⟩ := List.mem_map.mp mem
    have more := List.mem_range.mp inside
    exact Nat.le_antisymm (CellAddress.clamp_le ..)
      (CellAddress.le_clamp (Nat.le_refl _) (by dsimp only; omega))

/-! ## The copies of one merge -/

namespace InsertionLog

variable {log : InsertionLog} {r : CellRange}

/-- A merge within one row in a copy of its row. -/
def rowCopy (log : InsertionLog) (r : CellRange) (copy : Nat) : CellRange :=
  (log.carryRange r).relocate (log.firstRow r.start.row + copy) (log.carryRange r).start.col
    (log.firstRow r.start.row + copy) (log.carryRange r).stop.col

theorem carriedCopies_of_inOneRow (one : r.inOneRow = true)
    (several : log.extraRows r.start.row ≠ 0) :
    log.carriedCopies r = (List.range (log.extraRows r.start.row + 1)).map (log.rowCopy r) :=
  if_pos ⟨one, several⟩

theorem wellFormed_rowCopy (log : InsertionLog) (r : CellRange) (copy : Nat) :
    (log.rowCopy r copy).WellFormed := CellRange.wellFormed_relocate ..

/-- A copy lies in the copy of the row, or in the last row of the sheet if that is beyond it. -/
theorem rows_rowCopy (log : InsertionLog) (r : CellRange) (copy : Nat) :
    (log.rowCopy r copy).start.row =
        CellAddress.clamp (maxRows - 1) (log.firstRow r.start.row + copy) ∧
      (log.rowCopy r copy).stop.row =
        CellAddress.clamp (maxRows - 1) (log.firstRow r.start.row + copy) := by
  have carried : (log.carryRange r).WellFormed := CellRange.wellFormed_relocate ..
  obtain ⟨first, last⟩ := (log.carryRange r).corners_relocate
    (Nat.le_refl (log.firstRow r.start.row + copy)) carried.cols
  rw [rowCopy, first, last]
  exact ⟨rfl, rfl⟩

/-- Two copies beyond the last row but one are the same. -/
theorem rowCopy_eq {copy copy' : Nat} (last : maxRows - 1 ≤ log.firstRow r.start.row + copy)
    (last' : maxRows - 1 ≤ log.firstRow r.start.row + copy') :
    log.rowCopy r copy = log.rowCopy r copy' := by
  have cut {n : Nat} (far : maxRows - 1 ≤ n) : CellAddress.clamp (maxRows - 1) n = maxRows - 1 :=
    Nat.le_antisymm (CellAddress.clamp_le ..) (CellAddress.le_clamp (Nat.le_refl _) far)
  simp only [rowCopy, CellRange.relocate, CellAddress.relocate, cut last, cut last']

/-- The copies of a merge are written in different ways exactly if the sheet has room for all of
them. -/
theorem nodup_carriedCopies (one : r.inOneRow = true) (several : log.extraRows r.start.row ≠ 0) :
    ((log.carriedCopies r).map CellRange.text).Nodup ↔
      log.firstRow r.start.row + log.extraRows r.start.row < maxRows := by
  rw [carriedCopies_of_inOneRow one several, List.map_map,
    List.nodup_map_iff_inj_on List.nodup_range]
  constructor
  · -- Otherwise the last two copies are the same.
    intro injective
    refine Nat.lt_of_not_le fun beyond => ?_
    have same : log.rowCopy r (log.extraRows r.start.row - 1) =
        log.rowCopy r (log.extraRows r.start.row) := rowCopy_eq (by omega) (by omega)
    have equal := injective _ (List.mem_range.mpr (by omega)) _
      (List.mem_range.mpr (Nat.lt_succ_self _)) (congrArg CellRange.text same)
    omega
  · intro room copy inside copy' inside' same
    have read := CellRange.read_text (log.wellFormed_rowCopy r copy)
    rw [show (log.rowCopy r copy).text = (log.rowCopy r copy').text from same,
      CellRange.read_text (log.wellFormed_rowCopy r copy')] at read
    have row := (log.rows_rowCopy r copy).1
    have row' := (log.rows_rowCopy r copy').1
    have small := List.mem_range.mp inside
    have small' := List.mem_range.mp inside'
    rw [CellAddress.clamp_of_le (by omega)] at row row'
    rw [Except.ok.inj read, row] at row'
    omega

end InsertionLog

/-! ## The entries of one merge -/

/-- The number of the row that an entry of the merged cells lies in, as it is written. -/
def mergedRow? (merge : Element) : Option String :=
  (mergedRange? merge).bind fun r =>
    if r.inOneRow then some (Text.Numeral.text (r.start.row + 1)) else none

section Entry

variable {log : InsertionLog} {merge : Element} {range : CellRange}

theorem adjustMergeEntry_eq (read : mergedRange? merge = some range) :
    adjustMergeEntry log merge =
      (log.carriedCopies range).map fun copy => merge.setAttr "ref" copy.text := by
  obtain ⟨reference, own, read⟩ := Option.bind_eq_some_iff.mp read
  rw [adjustMergeEntry, own, Option.map_some]
  cases result : CellRange.read reference with
  | error fault =>
      rw [result] at read
      cases read
  | ok found =>
      rw [result] at read
      cases read
      exact adjustMerge_eq log merge range

theorem mergedRow?_rowCopy (log : InsertionLog) (merge : Element) (range : CellRange)
    (copy : Nat) :
    mergedRow? (merge.setAttr "ref" (log.rowCopy range copy).text) =
      some (Text.Numeral.text (CellAddress.clamp (maxRows - 1)
        (log.firstRow range.start.row + copy) + 1)) := by
  obtain ⟨first, last⟩ := log.rows_rowCopy range copy
  have one : (log.rowCopy range copy).inOneRow = true := by
    rw [CellRange.inOneRow, first, last]
    exact beq_self_eq_true _
  rw [mergedRow?, mergedRange?_setAttr merge (log.wellFormed_rowCopy range copy), Option.bind_some,
    if_pos one, first]

/-- The rows of the entries of a merge within one row. -/
theorem mergedRows_adjustMergeEntry (read : mergedRange? merge = some range)
    (one : range.inOneRow = true) (several : log.extraRows range.start.row ≠ 0) :
    (adjustMergeEntry log merge).map mergedRow? =
      ((List.range (min (log.extraRows range.start.row + 1)
          (maxRows - log.firstRow range.start.row))).map fun copy =>
        some (Text.Numeral.text (log.firstRow range.start.row + copy + 1))) ++
      List.replicate (log.extraRows range.start.row + 1 -
        (maxRows - log.firstRow range.start.row)) (some (Text.Numeral.text maxRows)) := by
  have cut := map_clamp_range (maxRows - 1) (log.firstRow range.start.row)
    (log.extraRows range.start.row + 1)
  replace cut := congrArg (List.map fun row => some (Text.Numeral.text (row + 1))) cut
  rw [List.map_map, List.map_append, List.map_map, List.map_replicate] at cut
  rw [adjustMergeEntry_eq read, InsertionLog.carriedCopies_of_inOneRow one several, List.map_map,
    List.map_map]
  refine (List.map_congr_left fun copy _ => ?_).trans cut
  exact mergedRow?_rowCopy log merge range copy

/-- The entries of a merge lie in the copies of its row that are written, and then in the last
row. -/
theorem mergedRows_of_copies (read : mergedRange? merge = some range)
    (one : range.inOneRow = true) (several : log.extraRows range.start.row ≠ 0)
    {copies : List (Option String)}
    (placed : copies = (List.range (min (log.extraRows range.start.row + 1)
        (maxRows - log.firstRow range.start.row))).map fun copy =>
      some (Text.Numeral.text (log.firstRow range.start.row + copy + 1))) :
    (adjustMergeEntry log merge).map mergedRow? = copies ++
        List.replicate (log.extraRows range.start.row + 1 - copies.length)
          (some (Text.Numeral.text maxRows)) ∧
      (((adjustMergeEntry log merge).map (·.attr? "ref")).Nodup ↔
        log.extraRows range.start.row + 1 - copies.length = 0) := by
  have count := congrArg List.length placed
  rw [List.length_map, List.length_range] at count
  constructor
  · have left : log.extraRows range.start.row + 1 - copies.length =
        log.extraRows range.start.row + 1 - (maxRows - log.firstRow range.start.row) := by
      omega
    rw [left, placed]
    exact mergedRows_adjustMergeEntry read one several
  · have refs : (adjustMergeEntry log merge).map (·.attr? "ref") =
        ((log.carriedCopies range).map CellRange.text).map some := by
      rw [adjustMergeEntry_eq read, List.map_map, List.map_map]
      exact List.map_congr_left fun copy _ => Element.attr?_setAttr_self ..
    rw [refs, List.nodup_map_iff (Option.some_injective _),
      InsertionLog.nodup_carriedCopies one several]
    omega

end Entry

/-! ## The entries in a filled worksheet -/

section Filled

variable {options : FillOptions} {data : Value} {table : StringTable} {template : Document}

theorem isEmpty_of_extraRows {log : InsertionLog} {row : Nat} (several : log.extraRows row ≠ 0) :
    log.isEmpty = false := by
  refine Bool.eq_false_iff.mpr fun none => several ?_
  rw [InsertionLog.eq_empty_of_isEmpty none]
  rfl

/-- The list of merged cells is adjusted entry by entry. -/
theorem elements_mergeCells_fillSheet (moves : options.moveRanges = true) {merges : Element}
    (found : template.root.child? "mergeCells" = some merges)
    (inserted : (fillSheet options data table template).1.log.isEmpty = false) :
    ((fillSheet options data table template).1.document.root.child? "mergeCells").map
        Element.elements =
      some (merges.elements.flatMap
        (adjustMergeEntry (fillSheet options data table template).1.log)) := by
  have named := List.find?_some found
  replace named : merges.name = "mergeCells" := eq_of_beq named
  have adjusted (log : InsertionLog) : adjustPart options log merges = adjustMerges log merges := by
    rw [adjustPart, if_neg (fun both => absurd (named.symm.trans both.1) (by decide)), if_pos moves,
      if_pos named]
  rw [child?_fillSheet (by decide) found, inserted, if_neg Bool.false_ne_true, adjusted,
    Option.map_some, elements_adjustMerges]

/-- A merge within a row that becomes several rows is written in each copy of the row that is
written, and then in the last row of the sheet for each copy that is left out. Its ranges differ
exactly if no copy is left out. -/
theorem mergedRows_fillSheet (options : FillOptions) (data : Value) (table : StringTable)
    (template : Document) (ordered : SheetInOrder template) (moves : options.moveRanges = true)
    (merges : Element) (found : template.root.child? "mergeCells" = some merges) (merge : Element)
    (entry : merge ∈ merges.elements) (range : CellRange) (read : mergedRange? merge = some range)
    (one : range.inOneRow = true) (row : RowTrace)
    (mem : row ∈ fillTrace options data table (fillSheet options data table template).2 template)
    (same : row.number = range.start.row + 1)
    (several : (fillSheet options data table template).1.log.extraRows range.start.row ≠ 0) :
    let filled := fillSheet options data table template
    let written := adjustMergeEntry filled.1.log merge
    let dropped := filled.1.log.extraRows range.start.row + 1 - row.copies.length
    (∃ before after, (filled.1.document.root.child? "mergeCells").map Element.elements =
        some (before ++ written ++ after)) ∧
      written.map mergedRow? = row.copies.map (·.written.attr? "r") ++
        List.replicate dropped (some (Text.Numeral.text maxRows)) ∧
      ((written.map (·.attr? "ref")).Nodup ↔ dropped = 0) := by
  intro filled written dropped
  have copies := congrArg (List.map Prod.snd) (placedBy_of_mem_fillTrace ordered mem).copies
  rw [List.map_map, List.map_map, filter_range_le, same, Nat.add_sub_cancel] at copies
  have entries := mergedRows_of_copies read one several copies
  rw [List.length_map] at entries
  refine ⟨?_, entries⟩
  obtain ⟨before, after, split⟩ := List.append_of_mem entry
  rw [elements_mergeCells_fillSheet moves found (isEmpty_of_extraRows several), split,
    List.flatMap_append, List.flatMap_cons, ← List.append_assoc]
  exact ⟨_, _, rfl⟩

end Filled

/-- A sheet with a table in its last row but one, and a merge in that row. -/
def lastRowsSheet : Document :=
  ⟨none, ⟨"worksheet", [], [
    .element ⟨"sheetData", [], [.element ⟨"row", [("r", "1048575")],
      [.element ⟨"c", [("r", "A1048575"), ("t", "inlineStr")],
        [.element ⟨"is", [], [.element ⟨"t", [], [.text "${table:xs}"]⟩]⟩]⟩]⟩]⟩,
    .element ⟨"mergeCells", [("count", "1")],
      [.element ⟨"mergeCell", [("ref", "A1048575:B1048575")], []⟩]⟩]⟩⟩

theorem mergedRows_fillSheet_lastRowsSheet :
    let filled := fillSheet {} grownData (.ofDocument none grownData) lastRowsSheet
    let merge : Element := ⟨"mergeCell", [("ref", "A1048575:B1048575")], []⟩
    SheetInOrder lastRowsSheet ∧ filled.1.log.extraRows 1048574 = 2 ∧
      (fillTrace {} grownData (.ofDocument none grownData) filled.2 lastRowsSheet).map
        (fun row => (row.number, row.copies.length)) = [(1048575, 2)] ∧
      ∀ row ∈ fillTrace {} grownData (.ofDocument none grownData) filled.2 lastRowsSheet,
        (adjustMergeEntry filled.1.log merge).map mergedRow? =
          row.copies.map (·.written.attr? "r") ++
            List.replicate (filled.1.log.extraRows 1048574 + 1 - row.copies.length)
              (some (Text.Numeral.text maxRows)) := by
  intro filled merge
  have ordered : SheetInOrder lastRowsSheet := by decide +kernel
  have extra : filled.1.log.extraRows 1048574 = 2 := by decide +kernel
  have trace : (fillTrace {} grownData (.ofDocument none grownData) filled.2 lastRowsSheet).map
      (fun row => (row.number, row.copies.length)) = [(1048575, 2)] := by decide +kernel
  refine ⟨ordered, extra, trace, fun row mem => ?_⟩
  have counted : (row.number, row.copies.length) ∈ [(1048575, 2)] :=
    trace ▸ List.mem_map_of_mem mem
  have same : row.number = 1048574 + 1 := (Prod.mk.inj (List.mem_singleton.mp counted)).1
  have several : filled.1.log.extraRows 1048574 ≠ 0 := by
    rw [extra]
    decide
  exact (mergedRows_fillSheet {} grownData _ lastRowsSheet ordered rfl _ rfl merge
    List.mem_cons_self ⟨⟨1048574, 0, false, false⟩, ⟨1048574, 1, false, false⟩, false⟩ rfl rfl row
    mem same several).2.1

/-- The last copy of the row is left out, and its merge stands in the last row again. -/
theorem mergedRows_repeat :
    let filled := (fillSheet {} grownData (.ofDocument none grownData) lastRowsSheet).1.document
    (sheetRows filled).map (·.attr? "r") = ["1048575", "1048576"].map some ∧
      ((filled.root.child? "mergeCells").map fun merges =>
        merges.elements.map (·.attr? "ref")) =
        some (["A1048575:B1048575", "A1048576:B1048576", "A1048576:B1048576"].map some) := by
  decide +kernel

end SheetFill
