import SheetFill.Proofs.Template.Usable
import SheetFill.Proofs.Worksheet.GrownRanges

/-!
# Tables that move

A table moves and grows with its rows, but it keeps its columns. Its range grows first, with a left
and a right side that may be moved by different rows, and is then cut to the old number of columns
(`adjustTableRange_of_fits`). The range of a filter moves in the same way, so a filter of the whole
table is one afterwards (`adjustTables_filtersAll`).

A table is moved for each relationship that leads to it. One that the worksheet lists twice is moved
twice (`adjustTables_listedTwice`): it is read again as it was written.
-/

namespace SheetFill

open Xml

/-! ## The range of a table -/

section Range

namespace InsertionLog

variable {log : InsertionLog} {range : CellRange}

/-- The column where a range starts after it grew, before it is cut off at the limit of a sheet. -/
def grownLeft (log : InsertionLog) (range : CellRange) : Nat :=
  range.start.col + log.largestShift range.start.row range.stop.row fun row =>
    log.firstColumn row range.start.col - range.start.col

/-- Some row of a range has its first copies where the range starts, or right of that. -/
theorem exists_grownLeft (wellFormed : range.WellFormed) :
    ∃ row, range.start.row ≤ row ∧ row ≤ range.stop.row ∧
      log.grownLeft range ≤ log.firstColumn row range.start.col :=
  exists_grown wellFormed.rows fun _ => le_firstColumn wellFormed.start.col

/-- A range that grows keeps its sides in order, though they are moved by different rows. -/
theorem grownLeft_le_grownRight (wellFormed : range.WellFormed) :
    log.grownLeft range ≤ log.grownRight range := by
  obtain ⟨row, top, bottom, left⟩ := log.exists_grownLeft wellFormed
  calc log.grownLeft range ≤ log.firstColumn row range.start.col := left
    _ ≤ log.firstColumn row range.stop.col := firstColumn_mono wellFormed.cols
    _ ≤ log.lastColumn row range.stop.col := log.firstColumn_le_lastColumn ..
    _ ≤ log.grownRight range := lastColumn_le_grownRight wellFormed.stop.col
        ⟨top, bottom, wellFormed.cols, Nat.le_refl _⟩

theorem firstRow_le_lastRow_of_wellFormed (wellFormed : range.WellFormed) :
    log.firstRow range.start.row ≤ log.lastRow range.stop.row :=
  Nat.le_trans (firstRow_mono wellFormed.rows) (log.firstRow_le_lastRow _)

end InsertionLog

variable {log : InsertionLog} {range : CellRange}

/-- The range of a table is on the sheet after insertions, as wide as before: its last row has its
copies there, and in no row is its first column moved too far to the right. -/
structure TableFits (log : InsertionLog) (range : CellRange) : Prop where
  /-- The rows are on the sheet. -/
  rows : log.lastRow range.stop.row < maxRows
  /-- The columns are on the sheet, wherever they start. -/
  cols : ∀ row, range.start.row ≤ row → row ≤ range.stop.row →
    log.firstColumn row range.start.col + (range.stop.col - range.start.col) < maxColumns

/-- The range of a table starts where the range grows to. Its last corner is put behind. -/
theorem corners_adjustTableRange (log : InsertionLog) (range : CellRange) :
    (adjustTableRange log range).start = (log.growRange range).start ∧
      (adjustTableRange log range).stop =
        (log.growRange range).stop.relocate (log.growRange range).stop.row
          ((log.growRange range).start.col + (range.stop.col - range.start.col)) := by
  have grown : (log.growRange range).WellFormed := CellRange.wellFormed_relocate ..
  obtain ⟨first, last⟩ := (log.growRange range).corners_relocate grown.rows
    (Nat.le_add_right (log.growRange range).start.col (range.stop.col - range.start.col))
  rw [CellAddress.relocate_of_inside grown.start.row grown.start.col] at first
  exact ⟨first, last⟩

/-- Where a table is after insertions. -/
theorem adjustTableRange_of_fits (wellFormed : range.WellFormed) (fits : TableFits log range) :
    let moved := adjustTableRange log range
    moved.start.row = log.firstRow range.start.row ∧ moved.start.col = log.grownLeft range ∧
      moved.stop.row = log.lastRow range.stop.row ∧
      moved.stop.col = log.grownLeft range + (range.stop.col - range.start.col) := by
  intro moved
  have rows := log.firstRow_le_lastRow_of_wellFormed wellFormed
  obtain ⟨row, top, bottom, left⟩ := log.exists_grownLeft wellFormed
  have cols : log.grownLeft range + (range.stop.col - range.start.col) < maxColumns :=
    Nat.lt_of_le_of_lt (Nat.add_le_add_right left _) (fits.cols row top bottom)
  have grown := range.corners_relocate rows (log.grownLeft_le_grownRight wellFormed)
  have startIs : (log.growRange range).start = { range.start with
      row := log.firstRow range.start.row, col := log.grownLeft range } := by
    refine grown.1.trans (CellAddress.relocate_of_inside (Nat.lt_of_le_of_lt rows fits.rows) ?_)
    exact Nat.lt_of_le_of_lt (Nat.le_add_right ..) cols
  have stopRow : (log.growRange range).stop.row = log.lastRow range.stop.row := by
    refine (congrArg CellAddress.row grown.2).trans ?_
    exact CellAddress.clamp_of_le (Nat.le_sub_one_of_lt fits.rows)
  obtain ⟨first, last⟩ := corners_adjustTableRange log range
  rw [startIs] at first last
  rw [stopRow, CellAddress.relocate_of_inside fits.rows cols] at last
  rw [show moved.start = _ from first, show moved.stop = _ from last]
  exact ⟨rfl, rfl, rfl, rfl⟩

end Range

/-! ## The parts of a table -/

section Parts

variable {log : InsertionLog}

/-- A reference to the range of a table after insertions. A text that is no range stays. -/
def adjustTableReference (log : InsertionLog) (reference : String) : String :=
  match CellRange.read reference with
  | .ok range => (adjustTableRange log range).text
  | .error _ => reference

/-- A reference that is read is written so that it is read again. -/
theorem read_adjustTableReference {reference : String} {range : CellRange}
    (read : CellRange.read reference = .ok range) :
    CellRange.read (adjustTableReference log reference) = .ok (adjustTableRange log range) := by
  rw [adjustTableReference, read]
  exact CellRange.read_text (CellRange.wellFormed_relocate ..)

theorem attr?_adjustTableElement (log : InsertionLog) (e : Element) :
    (adjustTableElement log e).attr? "ref" =
      (e.attr? "ref").map (adjustTableReference log) := by
  rw [adjustTableElement]
  cases own : e.attr? "ref" with
  | none => rw [Option.map_none, Option.map_none, own]
  | some reference =>
      rw [Option.map_some, Option.map_some, adjustTableReference]
      cases CellRange.read reference with
      | ok range => exact e.attr?_setAttr_self ..
      | error fault => exact own

/-- The references of a table part: that of the table itself and that of its filter. -/
def tableReferences (table : Document) : Option String × Option String :=
  (table.root.attr? "ref", (table.root.child? "autoFilter").bind (·.attr? "ref"))

/-- The references of a table part after insertions, each moved by itself and both alike. -/
def adjustTableReferences (log : InsertionLog) (references : Option String × Option String) :
    Option String × Option String :=
  references.map (Option.map (adjustTableReference log)) (Option.map (adjustTableReference log))

theorem tableReferences_adjustTable (log : InsertionLog) (table : Document) :
    tableReferences (adjustTable log table) =
      adjustTableReferences log (tableReferences table) := by
  have root : (adjustTable log table).root.attr? "ref" =
      (table.root.attr? "ref").map (adjustTableReference log) :=
    attr?_adjustTableElement log table.root
  have filter : (adjustTable log table).root.child? "autoFilter" =
      (table.root.child? "autoFilter").map (adjustTableElement log) := by
    rw [adjustTable, Element.child?_modifyChild _ fun child same =>
      (name_adjustTableElement log child).trans same, child?_adjustTableElement]
  rw [tableReferences, root, filter, tableReferences]
  cases table.root.child? "autoFilter" with
  | none => rfl
  | some child => exact congrArg _ (attr?_adjustTableElement log child)

theorem tableReferences_merged (table : Document) :
    tableReferences table.merged = tableReferences table := by
  rw [tableReferences, tableReferences]
  show (table.root.merged.attr? "ref", (table.root.merged.child? "autoFilter").bind _) = _
  rw [table.root.attr?_merged, table.root.child?_merged, Option.bind_map]
  exact congrArg _ (congrArg _ (funext fun child => child.attr?_merged "ref"))

/-- A table part with ordinary names that is written after insertions is read again. -/
theorem read_adjustTable (log : InsertionLog) {text : String} {table : Document}
    (read : Document.read text = .ok table) (names : table.root.Obeys ordinaryNames) :
    Document.read (adjustTable log table).toXml = .ok (adjustTable log table).merged ∧
      (adjustTable log table).merged.root.Obeys ordinaryNames := by
  have moved : (adjustTable log table).root.Obeys writable :=
    obeys_adjustTable stable_writable (Document.obeys_writable_of_read read names) log
  have written : (adjustTable log table).Writable := Document.writable_withRoot read names moved
  exact ⟨Document.read_of_scan written (Document.scan_toXml written),
    (moved.merged fun _ => trivial).mono writable_implies_ordinaryNames⟩

end Parts

/-! ## The tables of a worksheet -/

namespace Package

section Run

variable {p p' : Package} {log : InsertionLog} {path text : String} {paths : List String}
  {table : Document}

/-- A part that is not listed stays. -/
theorem text_adjustTablesAt_of_notMem (absent : path ∉ paths)
    (moved : p.adjustTablesAt log paths = .ok p') : p'.text path = p.text path := by
  induction paths generalizing p with
  | nil =>
      cases moved
      rfl
  | cons first paths ih =>
      rw [List.mem_cons, not_or] at absent
      obtain ⟨-, moved⟩ | ⟨text, table, -, -, moved⟩ := of_adjustTablesAt_cons moved
      · exact ih absent.2 moved
      · rw [ih absent.2 moved, p.text_write_of_ne _ absent.1]

/-- A table part that is listed once is written with its range moved, whatever its names are. -/
theorem text_adjustTablesAt (once : paths.count path = 1)
    (found : p.text? path = .ok (some text)) (read : Document.read text = .ok table)
    (moved : p.adjustTablesAt log paths = .ok p') :
    p'.text path = .ok (adjustTable log table).toXml := by
  induction paths generalizing p with
  | nil => cases once
  | cons first paths ih =>
      by_cases same : first = path
      · subst same
        rw [List.count_cons_self, Nat.add_eq_right, List.count_eq_zero] at once
        obtain ⟨missing, -⟩ | ⟨text', table', found', read', moved⟩ := of_adjustTablesAt_cons moved
        · cases found.symm.trans missing
        · cases found.symm.trans found'
          cases read.symm.trans read'
          rw [text_adjustTablesAt_of_notMem once moved, p.text_write_toXml]
      · rw [List.count_cons_of_ne same] at once
        obtain ⟨-, moved⟩ | ⟨_, _, -, -, moved⟩ := of_adjustTablesAt_cons moved
        · exact ih once found moved
        · exact ih once ((p.text?_write_of_ne _ (Ne.symm same)).trans found) moved

/-- A table part with ordinary names is moved as often as it is listed. -/
theorem document_adjustTablesAt (found : p.text? path = .ok (some text))
    (read : Document.read text = .ok table) (names : table.root.Obeys ordinaryNames)
    (moved : p.adjustTablesAt log paths = .ok p') :
    ∃ table', p'.document path = .ok table' ∧
      tableReferences table' =
        (adjustTableReferences log)^[paths.count path] (tableReferences table) := by
  induction paths generalizing p text table with
  | nil =>
      cases moved
      exact ⟨table, document_of_text (text_of_text? found) read, rfl⟩
  | cons first paths ih =>
      by_cases same : first = path
      · subst same
        obtain ⟨missing, -⟩ | ⟨text', table', found', read', moved⟩ := of_adjustTablesAt_cons moved
        · cases found.symm.trans missing
        · cases found.symm.trans found'
          cases read.symm.trans read'
          obtain ⟨reread, names'⟩ := read_adjustTable log read names
          have written := p.text?_write_toXml first (adjustTable log table)
          obtain ⟨last, isLast, references⟩ := ih written reread names' moved
          refine ⟨last, isLast, ?_⟩
          rw [references, tableReferences_merged, tableReferences_adjustTable,
            List.count_cons_self, Function.iterate_succ_apply]
      · rw [List.count_cons_of_ne same]
        obtain ⟨-, moved⟩ | ⟨_, _, -, -, moved⟩ := of_adjustTablesAt_cons moved
        · exact ih found read names moved
        · exact ih ((p.text?_write_of_ne _ (Ne.symm same)).trans found) read names moved

/-- A part that is listed can be moved each time: it is missing, or it is a document, with ordinary
names if it is listed more than once. -/
def CanMove (p : Package) (paths : List String) (path : String) : Prop :=
  p.text? path = .ok none ∨ ∃ text table, p.text? path = .ok (some text) ∧
    Document.read text = .ok table ∧ (1 < paths.count path → table.root.Obeys ordinaryNames)

theorem CanMove.of_count_le {others : List String} (canMove : p.CanMove paths path)
    (same : p'.text? path = p.text? path) (fewer : others.count path ≤ paths.count path) :
    p'.CanMove others path := by
  obtain missing | ⟨text, table, found, read, names⟩ := canMove
  · exact .inl (same.trans missing)
  · exact .inr ⟨text, table, same.trans found, read, fun more => names (more.trans_le fewer)⟩

/-- Tables that can be moved are moved. -/
theorem exists_adjustTablesAt (log : InsertionLog) (all : ∀ path ∈ paths, p.CanMove paths path) :
    ∃ p', p.adjustTablesAt log paths = .ok p' := by
  induction paths generalizing p with
  | nil => exact ⟨p, rfl⟩
  | cons first paths ih =>
      obtain ⟨here, rest⟩ := List.forall_mem_cons.mp all
      rcases here with missing | ⟨text, table, found, read, names⟩
      · rw [adjustTablesAt_missing missing]
        exact ih fun path mem => (rest path mem).of_count_le rfl List.count_le_count_cons
      · rw [adjustTablesAt_found found read]
        refine ih fun path mem => ?_
        by_cases same : path = first
        · -- The part is listed again, and it is read as it was written.
          subst same
          have more : 1 < (path :: paths).count path := by
            rw [List.count_cons_self]
            exact Nat.succ_lt_succ (List.count_pos_iff.mpr mem)
          obtain ⟨reread, names'⟩ := read_adjustTable log read (names more)
          exact .inr ⟨_, _, p.text?_write_toXml .., reread, fun _ => names'⟩
        · exact (rest path mem).of_count_le (p.text?_write_of_ne _ same) List.count_le_count_cons

end Run

end Package

/-! ## Tables and their filters -/

/-- The filter of a table has the range of the table, by the same text. -/
def FiltersAll (table : Document) (reference : String) : Prop :=
  tableReferences table = (some reference, some reference)

theorem FiltersAll.adjustTable {table : Document} {reference : String}
    (filters : FiltersAll table reference) (log : InsertionLog) :
    FiltersAll (adjustTable log table) (adjustTableReference log reference) := by
  rw [FiltersAll, tableReferences_adjustTable, filters]
  rfl

theorem iterate_adjustTableReferences (log : InsertionLog) (reference : String) (n : Nat) :
    (adjustTableReferences log)^[n] (some reference, some reference) =
      (some ((adjustTableReference log)^[n] reference),
        some ((adjustTableReference log)^[n] reference)) := by
  induction n generalizing reference with
  | zero => rfl
  | succ n ih => exact ih (adjustTableReference log reference)

theorem FiltersAll.adjustTablesAt {p p' : Package} {log : InsertionLog} {path reference : String}
    {paths : List String} {table : Document} (filters : FiltersAll table reference)
    (found : p.document path = .ok table) (names : table.root.Obeys ordinaryNames)
    (moved : p.adjustTablesAt log paths = .ok p') :
    ∃ table', p'.document path = .ok table' ∧
      FiltersAll table' ((adjustTableReference log)^[paths.count path] reference) := by
  obtain ⟨text, found, read⟩ := Package.exists_text?_of_document found
  obtain ⟨table', read', references⟩ := Package.document_adjustTablesAt found read names moved
  refine ⟨table', read', ?_⟩
  rw [FiltersAll, references, filters, iterate_adjustTableReferences]

/-- A table keeps its number of columns after insertions, and it reaches from the first copy of its
first row to the last copy of its last row, if it is on the sheet then. It always starts where its
range grows to. If a filter has the range of its table, then it has so after the tables of a
worksheet were moved. The table is moved as often as the relationships of the worksheet list it,
once if it is listed once. -/
theorem adjustTables_filtersAll (log : InsertionLog) :
    (∀ range : CellRange,
      let moved := adjustTableRange log range
      moved.start = (log.growRange range).start ∧ moved.start.row ≤ moved.stop.row ∧
        moved.start.col ≤ moved.stop.col ∧
        (range.WellFormed → TableFits log range →
          moved.stop.col - moved.start.col = range.stop.col - range.start.col ∧
            moved.start.row = log.firstRow range.start.row ∧
            moved.stop.row = log.lastRow range.stop.row)) ∧
      (∀ reference range, CellRange.read reference = .ok range →
        range.WellFormed ∧
          CellRange.read (adjustTableReference log reference) = .ok (adjustTableRange log range)) ∧
      ∀ (p : Package) (sheet : String) (paths : List String), p.tablePaths sheet = .ok paths →
        ((∀ path ∈ paths, p.CanMove paths path) → ∃ p', p.adjustTables sheet log = .ok p') ∧
          ∀ p', p.adjustTables sheet log = .ok p' →
            ∀ path table reference, p.document path = .ok table → FiltersAll table reference →
              (paths.count path = 1 → ∃ table', p'.text path = .ok table'.toXml ∧
                FiltersAll table' (adjustTableReference log reference)) ∧
              (table.root.Obeys ordinaryNames → ∃ table', p'.document path = .ok table' ∧
                FiltersAll table' ((adjustTableReference log)^[paths.count path] reference)) := by
  refine ⟨fun range => ?_, fun reference range read => ?_,
    fun p sheet paths listed => ⟨fun all => ?_, fun p' moved path table reference read same => ?_⟩⟩
  · intro moved
    have inOrder : moved.WellFormed := CellRange.wellFormed_relocate ..
    refine ⟨(corners_adjustTableRange log range).1, inOrder.rows, inOrder.cols,
      fun wellFormed fits => ?_⟩
    obtain ⟨startRow, startCol, stopRow, stopCol⟩ := adjustTableRange_of_fits wellFormed fits
    refine ⟨?_, startRow, stopRow⟩
    rw [show moved.stop.col = _ from stopCol, show moved.start.col = _ from startCol,
      Nat.add_sub_cancel_left]
  · exact ⟨CellRange.wellFormed_of_read read, read_adjustTableReference read⟩
  · rw [Package.adjustTables_of_tablePaths listed]
    exact Package.exists_adjustTablesAt log all
  · rw [Package.adjustTables_of_tablePaths listed] at moved
    refine ⟨fun once => ?_, fun names => same.adjustTablesAt read names moved⟩
    obtain ⟨text, found, read⟩ := Package.exists_text?_of_document read
    exact ⟨_, Package.text_adjustTablesAt once found read moved, same.adjustTable log⟩

/-! ## A table that is listed once or twice -/

/-- A table with a filter for all of its cells. -/
def filteredTable : Document :=
  ⟨none, ⟨"table", [("ref", "B2:C3")], [.element ⟨"autoFilter", [("ref", "B2:C3")], []⟩]⟩⟩

/-- Relationships of a worksheet, all to one table. -/
def tableLists (ids : List String) : Document :=
  ⟨none, ⟨"Relationships", [], ids.map fun id =>
    .element ⟨"Relationship", [("Id", id), ("Type", "a/table"),
      ("Target", "../tables/table1.xml")], []⟩⟩⟩

def listedParts (ids : List String) : List (String × Document) :=
  [("xl/worksheets/_rels/sheet1.xml.rels", tableLists ids),
    ("xl/tables/table1.xml", filteredTable)]

def listedTable (ids : List String) : Package := .ofDocuments (listedParts ids)

theorem writable_filteredTable : filteredTable.Writable := by decide +kernel

theorem ordinaryNames_filteredTable : filteredTable.root.Obeys ordinaryNames :=
  (Element.writable_iff_obeys.mp writable_filteredTable.root).mono writable_implies_ordinaryNames

theorem document_listedTable (ids : List String) :
    (listedTable ids).document "xl/tables/table1.xml" = .ok filteredTable :=
  Package.document_of_find? writable_filteredTable (by decide +kernel) rfl

theorem tablePaths_listedTable {ids : List String}
    (read : Relationship.readAll (tableLists ids).toXml =
      .ok (ids.map fun id => ⟨id, "a/table", "../tables/table1.xml"⟩)) :
    (listedTable ids).tablePaths "xl/worksheets/sheet1.xml" =
      .ok (ids.map fun _ => "xl/tables/table1.xml") := by
  have path : PartPath.relationships "xl/worksheets/sheet1.xml" =
      "xl/worksheets/_rels/sheet1.xml.rels" := by decide
  have target : PartPath.resolve (PartPath.folder "xl/worksheets/sheet1.xml")
      "../tables/table1.xml" = "xl/tables/table1.xml" := by decide
  have tables : (ids.map fun id => (⟨id, "a/table", "../tables/table1.xml"⟩ : Relationship)).filter
      (fun r => r.kind == "table") =
        ids.map fun id => ⟨id, "a/table", "../tables/table1.xml"⟩ := by
    refine List.filter_eq_self.mpr fun r mem => ?_
    obtain ⟨id, -, rfl⟩ := List.mem_map.mp mem
    show (PartPath.file "a/table" == "table") = true
    decide
  have found : (listedParts ids).find? (·.1 == "xl/worksheets/_rels/sheet1.xml.rels") =
      some ("xl/worksheets/_rels/sheet1.xml.rels", tableLists ids) := rfl
  obtain ⟨here, decoded⟩ := Package.text_ofDocuments found
  rw [Package.tablePaths, Package.relationships, path, listedTable,
    Package.text?_of_contains here decoded]
  dsimp only
  rw [read, Except.map, tables, List.map_map]
  simp only [Function.comp_def, target]

theorem tablePaths_once : (listedTable ["rId1"]).tablePaths "xl/worksheets/sheet1.xml" =
    .ok ["xl/tables/table1.xml"] := by
  refine tablePaths_listedTable ?_
  rw [Relationship.readAll, Document.startTags_toXml (by decide +kernel)]
  decide +kernel

theorem tablePaths_twice : (listedTable ["rId1", "rId2"]).tablePaths "xl/worksheets/sheet1.xml" =
    .ok ["xl/tables/table1.xml", "xl/tables/table1.xml"] := by
  refine tablePaths_listedTable ?_
  rw [Relationship.readAll, Document.startTags_toXml (by decide +kernel)]
  decide +kernel

theorem canMove_listedTable {ids paths : List String}
    (only : ∀ path ∈ paths, path = "xl/tables/table1.xml") :
    ∀ path ∈ paths, (listedTable ids).CanMove paths path := by
  intro path mem
  obtain ⟨text, found, read⟩ := Package.exists_text?_of_document (document_listedTable ids)
  rw [only path mem]
  exact .inr ⟨text, _, found, read, fun _ => ordinaryNames_filteredTable⟩

/-- The table moves to the right by a cell that was inserted in its first row. The four cells in its
second row do not make it wider. -/
def tableLog : InsertionLog := ((InsertionLog.empty.addRows 1 2).addCells 1 0 1).addCells 2 1 4

theorem adjustTables_filtersAll_once :
    let range : CellRange := ⟨⟨1, 1, false, false⟩, ⟨2, 2, false, false⟩, false⟩
    let moved := adjustTableRange tableLog range
    range.WellFormed ∧ TableFits tableLog range ∧
      (tableLog.growRange range).text = "C2:G5" ∧ moved.text = "C2:D5" ∧
      moved.stop.col - moved.start.col = 1 ∧ moved.stop.row = tableLog.lastRow 2 ∧
      ∃ p' written table',
        (listedTable ["rId1"]).adjustTables "xl/worksheets/sheet1.xml" tableLog = .ok p' ∧
        p'.text "xl/tables/table1.xml" = .ok written.toXml ∧ FiltersAll written "C2:D5" ∧
        p'.document "xl/tables/table1.xml" = .ok table' ∧ FiltersAll table' "C2:D5" := by
  intro range moved
  have wellFormed : range.WellFormed :=
    ⟨by decide, by decide, by decide, by decide, fun single => by cases single⟩
  have fits : TableFits tableLog range := by
    refine ⟨by decide, fun row top bottom => ?_⟩
    have either : row = 1 ∨ row = 2 := by
      have first : 1 ≤ row := top
      have last : row ≤ 2 := bottom
      omega
    rcases either with rfl | rfl
    · decide
    · decide
  have reference : adjustTableReference tableLog "B2:C3" = "C2:D5" := by decide +kernel
  have listed : ["xl/tables/table1.xml"].count "xl/tables/table1.xml" = 1 := by decide
  obtain ⟨ranges, -, tables⟩ := adjustTables_filtersAll tableLog
  obtain ⟨columns, -, lastRow⟩ := (ranges range).2.2.2 wellFormed fits
  obtain ⟨movable, run⟩ := tables _ _ _ tablePaths_once
  obtain ⟨p', run'⟩ := movable (canMove_listedTable (by decide))
  obtain ⟨once, names⟩ := run p' run' _ filteredTable "B2:C3" (document_listedTable _) rfl
  obtain ⟨written, text, filters⟩ := once listed
  obtain ⟨table', read, filters'⟩ := names ordinaryNames_filteredTable
  rw [reference] at filters
  rw [listed, Function.iterate_one, reference] at filters'
  exact ⟨wellFormed, fits, by decide +kernel, by decide +kernel, columns, lastRow,
    p', written, table', run', text, filters, read, filters'⟩

/-- A table that is listed twice is moved twice. It starts at `B6` then, while its range grows from
`B2:C3` to `B4:C5`. -/
theorem adjustTables_listedTwice :
    let log := InsertionLog.empty.addRows 0 2
    let range : CellRange := ⟨⟨1, 1, false, false⟩, ⟨2, 2, false, false⟩, false⟩
    let moved : CellRange := ⟨⟨5, 1, false, false⟩, ⟨6, 2, false, false⟩, false⟩
    TableFits log range ∧ CellRange.read "B2:C3" = .ok range ∧
      (listedTable ["rId1", "rId2"]).document "xl/tables/table1.xml" = .ok filteredTable ∧
      FiltersAll filteredTable "B2:C3" ∧
      ∃ p' table',
        (listedTable ["rId1", "rId2"]).adjustTables "xl/worksheets/sheet1.xml" log = .ok p' ∧
        p'.document "xl/tables/table1.xml" = .ok table' ∧ FiltersAll table' "B6:C7" ∧
        CellRange.read "B6:C7" = .ok moved ∧ moved.start ≠ (log.growRange range).start := by
  intro log range moved
  have fits : TableFits log range := by
    refine ⟨by decide, fun row _ _ => ?_⟩
    show 1 + (2 - 1) < maxColumns
    decide
  have reference : (adjustTableReference log)^[2] "B2:C3" = "B6:C7" := by decide +kernel
  have listed : ["xl/tables/table1.xml", "xl/tables/table1.xml"].count "xl/tables/table1.xml" =
      2 := by decide
  rw [Package.adjustTables_of_tablePaths tablePaths_twice]
  have only : ∀ path ∈ ["xl/tables/table1.xml", "xl/tables/table1.xml"],
      path = "xl/tables/table1.xml" := by decide
  obtain ⟨p', run⟩ := Package.exists_adjustTablesAt log (canMove_listedTable only)
  have filters : FiltersAll filteredTable "B2:C3" := rfl
  obtain ⟨table', read, filters'⟩ :=
    filters.adjustTablesAt (document_listedTable _) ordinaryNames_filteredTable run
  rw [listed, reference] at filters'
  exact ⟨fits, rfl, document_listedTable _, filters, p', table', run, read, filters', rfl,
    by decide⟩

end SheetFill
