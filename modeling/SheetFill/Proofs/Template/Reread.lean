import SheetFill.Proofs.Template.Usable

/-!
# Parts that are written and then read again

While a template is filled, its worksheets and tables are written. What is read at a path later is
what is there in the template, or something was written there that keeps what matters (`Follows`).
Only some parts can be written before they are read (`Rereads`): worksheets that are tables too, and
lists of relationships that are worksheets or tables. If these have ordinary names, then no new
table is found (`Follows.isTable`), and a worksheet that is still to be filled has the texts that it
has in the template (`Pending.fillWorksheet`).
-/

namespace SheetFill

open Xml

/-! ## The texts of a worksheet that was written -/

/-- The inline text of an element, if it is a cell. -/
def inlineText? (cell : Element) : Option String :=
  if cell.name = "c" ∧ cell.attr? "t" = some "inlineStr" then (cell.child? "is").map visibleText
  else none

theorem cellTexts_eq (d : Document) :
    cellTexts d = ((sheetElements d).flatMap Element.elements).filterMap inlineText? := rfl

theorem inlineText?_merged (cell : Element) : inlineText? cell.merged = inlineText? cell := by
  rw [inlineText?, inlineText?, cell.name_merged, cell.child?_merged, cell.attr?_merged,
    Option.map_map]
  have shown : visibleText ∘ Element.merged = visibleText := funext visibleText_merged
  rw [shown]

theorem sheetElements_merged (d : Document) :
    sheetElements d.merged = (sheetElements d).map Element.merged := by
  show ((d.root.merged.child? "sheetData").map Element.elements).getD [] = _
  rw [d.root.child?_merged, sheetElements]
  cases d.root.child? "sheetData" with
  | none => rfl
  | some sheetData => exact sheetData.elements_merged

theorem cellTexts_merged (d : Document) : cellTexts d.merged = cellTexts d := by
  have cells (e : Element) : e.merged.elements.filterMap inlineText? =
      e.elements.filterMap inlineText? := by
    rw [e.elements_merged, List.filterMap_map]
    exact congrArg (List.filterMap · e.elements) (funext inlineText?_merged)
  rw [cellTexts_eq, cellTexts_eq, sheetElements_merged, List.filterMap_flatMap,
    List.filterMap_flatMap, List.flatMap_map]
  exact congrArg (List.flatMap · (sheetElements d)) (funext cells)

theorem cellTexts_adjustTable (log : InsertionLog) (d : Document) :
    cellTexts (adjustTable log d) = cellTexts d := by
  have rows : (adjustTable log d).root.child? "sheetData" = d.root.child? "sheetData" := by
    rw [adjustTable, Element.child?_modifyChild_of_ne _ (by decide) fun child same =>
      (name_adjustTableElement log child).trans same, child?_adjustTableElement]
  rw [cellTexts_eq, cellTexts_eq, sheetElements, rows]
  rfl

/-! ## Parts that are read again -/

namespace Package

/-- The part at a path is the table of a worksheet. -/
def IsTable (template : Package) (sheets : List ListedSheet) (path : String) : Prop :=
  ∃ sheet ∈ sheets, ∃ tables, template.tablePaths sheet.path = .ok tables ∧ path ∈ tables

/-- The paths at which filling may write a part and then read it again. -/
inductive Rereads (template : Package) (sheets : List ListedSheet) : String → Prop where
  /-- A worksheet that is a table. -/
  | sheet {sheet : ListedSheet} (mem : sheet ∈ sheets)
      (table : template.IsTable sheets sheet.path) : Rereads template sheets sheet.path
  /-- The relationships of a worksheet that are a table. -/
  | relationships {sheet : ListedSheet} (mem : sheet ∈ sheets)
      (table : template.IsTable sheets (PartPath.relationships sheet.path)) :
      Rereads template sheets (PartPath.relationships sheet.path)
  /-- The relationships of a worksheet that are a worksheet. -/
  | filled {sheet other : ListedSheet} (mem : sheet ∈ sheets) (mem' : other ∈ sheets)
      (same : other.path = PartPath.relationships sheet.path) :
      Rereads template sheets other.path

/-- All documents that are written and then read again have ordinary names. -/
def OrdinaryRereads (template : Package) (sheets : List ListedSheet) : Prop :=
  ∀ path, template.Rereads sheets path →
    ∀ d, template.document path = .ok d → d.root.Obeys ordinaryNames

/-- The lists of relationships among them have ordinary names. -/
def OrdinaryLists (template : Package) (sheets : List ListedSheet) : Prop :=
  ∀ sheet ∈ sheets,
    (PartPath.relationships sheet.path ∈ sheets.map ListedSheet.path ∨
      template.IsTable sheets (PartPath.relationships sheet.path)) →
    ∀ d, template.document (PartPath.relationships sheet.path) = .ok d →
      d.root.Obeys ordinaryNames

theorem OrdinaryRereads.lists {template : Package} {sheets : List ListedSheet}
    (names : template.OrdinaryRereads sheets) : template.OrdinaryLists sheets := by
  rintro sheet mem (worksheet | table) d read
  · obtain ⟨other, mem', same⟩ := List.mem_map.mp worksheet
    exact names _ (.filled mem mem' same) d (same ▸ read)
  · exact names _ (.relationships mem table) d read

/-- What a part of a template has become: nothing was written there, or a good document was. -/
inductive Follows (template p : Package) (good : Document → Prop) (path : String) : Prop where
  /-- The part is the same. -/
  | untouched (same : p.text? path = template.text? path)
  /-- A document was written. -/
  | written {text : String} {d : Document} (found : p.text? path = .ok (some text))
      (read : Document.read text = .ok d) (isGood : good d)

/-- If a document is good, then it is so after it was changed, written and read again. -/
def KeptBy (good : Document → Prop) (change : Document → Document) : Prop :=
  ∀ text d, Document.read text = .ok d → good d →
    ∃ d', Document.read (change d).toXml = .ok d' ∧ good d'

section Follows

variable {template p p' : Package} {good : Document → Prop} {path : String}

/-- What is read from a part is good if it was good in the template. -/
theorem Follows.of_read (follows : template.Follows p good path)
    (start : ∀ d, template.document path = .ok d → good d) {text : String} {d : Document}
    (found : p.text? path = .ok (some text)) (read : Document.read text = .ok d) : good d := by
  cases follows with
  | untouched same =>
      exact start d (document_of_text (text_of_text? (same.symm.trans found)) read)
  | written found' read' isGood =>
      cases found.symm.trans found'
      cases read.symm.trans read'
      exact isGood

theorem Follows.write_of_ne (follows : template.Follows p good path) {other : String}
    (different : path ≠ other) (text : String) :
    template.Follows (p.write other text) good path := by
  have same := p.text?_write_of_ne text different
  cases follows with
  | untouched unchanged => exact .untouched (same.trans unchanged)
  | written found read isGood => exact .written (same.trans found) read isGood

/-- A document that was read there is changed and written back. -/
theorem Follows.write (follows : template.Follows p good path)
    (start : ∀ d, template.document path = .ok d → good d) {text : String} {d : Document}
    (found : p.text? path = .ok (some text)) (read : Document.read text = .ok d)
    {change : Document → Document} (keeps : KeptBy good change) :
    template.Follows (p.write path (change d).toXml) good path := by
  obtain ⟨d', read', isGood⟩ := keeps text d read (follows.of_read start found read)
  exact .written (p.text?_write_toXml path (change d)) read' isGood

/-- When tables are written, a part that is none of them stays, and another one is kept. -/
theorem Follows.adjustTablesAt (follows : template.Follows p good path) {log : InsertionLog}
    (keeps : KeptBy good (adjustTable log)) {paths : List String}
    (start : path ∈ paths → ∀ d, template.document path = .ok d → good d)
    (moved : p.adjustTablesAt log paths = .ok p') : template.Follows p' good path := by
  induction paths generalizing p with
  | nil =>
      cases moved
      exact follows
  | cons first paths ih =>
      have rest : path ∈ paths → ∀ d, template.document path = .ok d → good d :=
        fun mem => start (List.mem_cons_of_mem _ mem)
      obtain ⟨-, moved⟩ | ⟨text, table, found, read, moved⟩ := of_adjustTablesAt_cons moved
      · exact ih follows rest moved
      · refine ih ?_ rest moved
        by_cases same : path = first
        · subst same
          exact follows.write (start (List.mem_cons_self ..)) found read keeps
        · exact follows.write_of_ne same _

end Follows

/-! ## What is kept -/

theorem keptBy_obeys {rule : Rule} (stable : rule.Stable) (implies : rule.Implies writable)
    {change : Document → Document} (declaration : ∀ d, (change d).declaration = d.declaration)
    (keeps : ∀ d, d.root.Obeys rule → (change d).root.Obeys rule) :
    KeptBy (fun d => d.root.Obeys rule) change := by
  intro text d read obeys
  have same : change d = { d with root := (change d).root } := by
    rw [← declaration d]
  obtain ⟨d', read', obeys'⟩ := spells_of_read read implies stable.text obeys (keeps d obeys)
  rw [← same] at read'
  exact ⟨d', read', obeys'⟩

/-- A worksheet with ordinary names has only texts that are given. -/
def HasTexts (texts : List String) (d : Document) : Prop :=
  d.root.Obeys ordinaryNames ∧ ∀ text ∈ cellTexts d, text ∈ texts

theorem keptBy_hasTexts (texts : List String) (log : InsertionLog) :
    KeptBy (HasTexts texts) (adjustTable log) := by
  rintro text d read ⟨names, asked⟩
  have written := Document.obeys_writable_of_read read names
  have adjusted := obeys_adjustTable stable_writable written log
  have writable := Document.writable_withRoot read names adjusted
  refine ⟨_, Document.read_of_scan writable (Document.scan_toXml writable), ?_, ?_⟩
  · exact (adjusted.mono writable_implies_ordinaryNames).merged fun _ => trivial
  · rw [cellTexts_merged]
    exact (cellTexts_adjustTable log d).symm ▸ asked

/-! ## Tables and worksheets -/

section Pending

variable {template p p' : Package} {sheets rest : List ListedSheet} {texts : List String}
  {sheet : ListedSheet}

/-- The relationships of a worksheet are those of the template or fewer. -/
def KeepsRelationships (template p : Package) (sheet : ListedSheet) : Prop :=
  template.Follows p (fun d => d.root.Obeys (template.keptRule (PartPath.relationships sheet.path)))
    (PartPath.relationships sheet.path)

/-- Every table that is found later is a table in the template. -/
theorem KeepsRelationships.isTable (keeps : template.KeepsRelationships p sheet)
    (mem : sheet ∈ sheets) {tables : List String} (found : p.tablePaths sheet.path = .ok tables) :
    ∀ path ∈ tables, template.IsTable sheets path := by
  cases keeps with
  | untouched same =>
      have unchanged : template.tablePaths sheet.path = .ok tables := by
        rw [tablePaths, relationships, ← same]
        exact found
      exact fun path table => ⟨sheet, mem, tables, unchanged, table⟩
  | written found' read obeys =>
      obtain ⟨now, all, among⟩ := readAll_of_read read (obeys.mono (Rule.and_implies_right _ _))
      have listed : p.relationships (PartPath.relationships sheet.path) = .ok now := by
        rw [relationships, found']
        exact all
      obtain ⟨paths, found', known⟩ := exists_tablePaths listed among
      cases found.symm.trans found'
      intro path table
      obtain ⟨tables, first, mem'⟩ := known path table
      exact ⟨sheet, mem, tables, first, mem'⟩

section Lists

variable (names : template.OrdinaryLists sheets) {other : ListedSheet}

include names in
theorem obeys_keptRule_of_lists (mem : sheet ∈ sheets)
    (written : PartPath.relationships sheet.path ∈ sheets.map ListedSheet.path ∨
      template.IsTable sheets (PartPath.relationships sheet.path)) (d : Document)
    (read : template.document (PartPath.relationships sheet.path) = .ok d) :
    d.root.Obeys (template.keptRule (PartPath.relationships sheet.path)) := by
  obtain ⟨text, found, read'⟩ := exists_text?_of_document read
  exact obeys_keptRule found read' (names sheet mem written d read)

include names in
/-- A worksheet is written. -/
theorem KeepsRelationships.writeSheet (keeps : template.KeepsRelationships p other)
    (mem : sheet ∈ sheets) (mem' : other ∈ sheets) {d : Document}
    (read : p.document sheet.path = .ok d) (options : FillOptions) (data : Value)
    (table : StringTable) :
    template.KeepsRelationships
      (p.write sheet.path (fillSheet options data table d).1.document.toXml) other := by
  by_cases same : PartPath.relationships other.path = sheet.path
  · obtain ⟨text, found, read'⟩ := exists_text?_of_document read
    have start := obeys_keptRule_of_lists names mem' (.inl (same ▸ List.mem_map_of_mem mem))
    have stable := stable_keptRule template (PartPath.relationships other.path)
    have filled : KeptBy
        (fun d => d.root.Obeys (template.keptRule (PartPath.relationships other.path)))
        fun d => (fillSheet options data table d).1.document :=
      keptBy_obeys stable (keptRule_implies_writable ..) (fun _ => rfl)
        fun _ obeys => obeys_fillSheet stable obeys options data table
    rw [KeepsRelationships, same] at keeps ⊢
    rw [same] at start filled
    exact keeps.write start found read' filled
  · exact keeps.write_of_ne same _

include names in
/-- The tables of a worksheet are written. -/
theorem KeepsRelationships.adjustTables (keeps : template.KeepsRelationships p other)
    (mem : other ∈ sheets) {log : InsertionLog} {tables : List String}
    (known : ∀ path ∈ tables, template.IsTable sheets path)
    (moved : p.adjustTablesAt log tables = .ok p') : template.KeepsRelationships p' other :=
  have stable := stable_keptRule template (PartPath.relationships other.path)
  keeps.adjustTablesAt
    (keptBy_obeys stable (keptRule_implies_writable ..) (fun _ => rfl)
      fun _ obeys => obeys_adjustTable stable obeys log)
    (fun table => obeys_keptRule_of_lists names mem (.inr (known _ table))) moved

end Lists

/-- The package of a template that is being filled, before some of the worksheets. -/
structure Pending (template : Package) (sheets : List ListedSheet) (texts : List String)
    (rest : List ListedSheet) (p : Package) : Prop where
  /-- The relationships of all worksheets are kept. -/
  relationships : ∀ sheet ∈ sheets, template.KeepsRelationships p sheet
  /-- The texts of the worksheets that are to be filled are. -/
  texts : ∀ sheet ∈ rest, template.Follows p (HasTexts texts) sheet.path

theorem pending_start (template : Package) (sheets : List ListedSheet) (texts : List String) :
    template.Pending sheets texts sheets template :=
  ⟨fun _ _ => .untouched rfl, fun _ _ => .untouched rfl⟩

section Names

variable (names : template.OrdinaryRereads sheets)
  (inlined : ∀ sheet ∈ sheets, ∀ d, template.document sheet.path = .ok d →
    ∀ text ∈ cellTexts d, text ∈ texts)

include inlined in
theorem Pending.mem_texts (pending : template.Pending sheets texts (sheet :: rest) p)
    (mem : sheet ∈ sheets) {d : Document} (read : p.document sheet.path = .ok d) :
    ∀ text ∈ cellTexts d, text ∈ texts := by
  obtain ⟨text, found, read'⟩ := exists_text?_of_document read
  cases pending.texts sheet (List.mem_cons_self ..) with
  | untouched same =>
      exact inlined sheet mem d (document_of_text (text_of_text? (same.symm.trans found)) read')
  | written found' read'' hasTexts =>
      cases found.symm.trans found'
      cases read'.symm.trans read''
      exact hasTexts.2

include names in
/-- A worksheet is written, and no worksheet after it. -/
theorem Pending.writeSheet (pending : template.Pending sheets texts (sheet :: rest) p)
    (mem : sheet ∈ sheets) (distinct : ∀ other ∈ rest, other.path ≠ sheet.path) {d : Document}
    (read : p.document sheet.path = .ok d) (options : FillOptions) (data : Value)
    (table : StringTable) :
    template.Pending sheets texts rest
      (p.write sheet.path (fillSheet options data table d).1.document.toXml) where
  relationships other mem' :=
    (pending.relationships other mem').writeSheet names.lists mem mem' read options data table
  texts other mem' :=
    (pending.texts other (List.mem_cons_of_mem _ mem')).write_of_ne (distinct other mem') _

include names inlined in
theorem Pending.adjustTables (pending : template.Pending sheets texts rest p)
    (mem : sheet ∈ sheets) (listed : ∀ other ∈ rest, other ∈ sheets) {log : InsertionLog}
    (moved : p.adjustTables sheet.path log = .ok p') :
    template.Pending sheets texts rest p' := by
  rw [Package.adjustTables] at moved
  split at moved
  · cases moved
  · rename_i tables found
    have known := (pending.relationships sheet mem).isTable mem found
    refine ⟨fun other mem' =>
      (pending.relationships other mem').adjustTables names.lists mem' known moved,
      fun other mem' => ?_⟩
    exact (pending.texts other mem').adjustTablesAt (keptBy_hasTexts texts log)
      (fun table d read => ⟨names _ (.sheet (listed other mem') (known _ table)) d read,
        inlined other (listed other mem') d read⟩) moved

end Names

end Pending

end Package

end SheetFill
