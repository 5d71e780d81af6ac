import SheetFill.Proofs.Template.Steps
import SheetFill.Proofs.Workbook.Rewritten

/-!
# Templates that can be filled

Whether a template can be filled does not depend on the data. If all parts that filling looks for
are documents with ordinary names, then filling succeeds (`Usable.exists_fill`), though parts that
were written for one worksheet are read again for the next. What is kept from worksheet to worksheet
(`Kept`) is that these parts can be read, and that no relationship appears that the template does
not have: so all tables that are looked for are tables of the template.
-/

namespace SheetFill

open Xml

namespace Package

/-! ## What is looked for -/

/-- The paths at which filling looks for a part. -/
inductive Reads (template : Package) (sheets : List ListedSheet) : String → Prop where
  /-- The table of shared strings. -/
  | strings : Reads template sheets Workbook.stringsPath
  /-- The workbook part. -/
  | workbook : Reads template sheets Workbook.path
  /-- The relationships of the workbook part. -/
  | relationships : Reads template sheets Workbook.relationshipsPath
  /-- The list of content types. -/
  | types : Reads template sheets Workbook.typesPath
  /-- A worksheet. -/
  | sheet {sheet : ListedSheet} (mem : sheet ∈ sheets) : Reads template sheets sheet.path
  /-- The relationships of a worksheet. -/
  | sheetRelationships {sheet : ListedSheet} (mem : sheet ∈ sheets) :
      Reads template sheets (PartPath.relationships sheet.path)
  /-- A table of a worksheet. -/
  | table {sheet : ListedSheet} {tables : List String} {path : String} (mem : sheet ∈ sheets)
      (listed : template.tablePaths sheet.path = .ok tables) (table : path ∈ tables) :
      Reads template sheets path

/-- The part at a path, if there is one, is the text of a document that obeys a rule. -/
def Holds (p : Package) (path : String) (rule : Rule) : Prop :=
  p.contains path = true → ∃ text, p.text path = .ok text ∧ Spells rule text

theorem Holds.mono {p : Package} {path : String} {rule other : Rule}
    (implies : rule.Implies other) (h : p.Holds path rule) : p.Holds path other := by
  intro here
  obtain ⟨text, decoded, spells⟩ := h here
  exact ⟨text, decoded, spells.mono implies⟩

theorem holds_write_of_ne (p : Package) {path other : String} {rule : Rule} (text : String)
    (different : other ≠ path) : (p.write path text).Holds other rule ↔ p.Holds other rule := by
  rw [Holds, Holds, contains_write_of_ne p text different, text_write_of_ne p text different]

/-- A template with worksheets all of which are there, and every part that filling looks for is a
document with ordinary names. -/
structure Usable (template : Package) (sheets : List ListedSheet) : Prop where
  /-- The worksheets. -/
  listed : template.sheets = .ok sheets
  /-- There are some. -/
  nonempty : sheets ≠ []
  /-- They are there. -/
  present : ∀ sheet ∈ sheets, template.contains sheet.path = true
  /-- All parts can be read. -/
  readable : ∀ path, template.Reads sheets path → template.Holds path ordinaryNames

/-! ## What is kept -/

/-- The relationships that a part lists, none if it cannot be read. -/
def knownRelationships (p : Package) (path : String) : List Relationship :=
  (p.relationships path).toOption.getD []

/-- The rule for a part of a package that came from a template. -/
def keptRule (template : Package) (path : String) : Rule :=
  writable.and (relationshipsAmong (template.knownRelationships path))

/-- A package that came from a template has parts at the same paths, and they can be read. -/
structure Kept (template : Package) (sheets : List ListedSheet) (p : Package) : Prop where
  contains : ∀ path, p.contains path = template.contains path
  parts : ∀ path, template.Reads sheets path → p.Holds path (template.keptRule path)

section Kept

variable {template p : Package} {sheets : List ListedSheet} {path : String}

theorem stable_keptRule (template : Package) (path : String) : (template.keptRule path).Stable :=
  stable_writable.and (stable_relationshipsAmong _)

theorem keptRule_implies_writable (template : Package) (path : String) :
    (template.keptRule path).Implies writable :=
  Rule.and_implies_left _ _

theorem obeys_keptRule {text : String} {d : Document}
    (found : template.text? path = .ok (some text)) (read : Document.read text = .ok d)
    (names : d.root.Obeys ordinaryNames) : d.root.Obeys (template.keptRule path) := by
  obtain ⟨listed, all⟩ := exists_readAll read
  have known : template.knownRelationships path = listed := by
    rw [knownRelationships, relationships, found]
    exact congrArg (fun found => found.toOption.getD []) all
  refine (Document.obeys_writable_of_read read names).and ?_
  rw [known]
  exact obeys_relationshipsAmong read all

theorem Usable.kept (usable : template.Usable sheets) : template.Kept sheets template where
  contains _ := rfl
  parts path reads here := by
    obtain ⟨text, decoded, d, read, names⟩ := usable.readable path reads here
    exact ⟨text, decoded, d, read, obeys_keptRule (text?_of_contains here decoded) read names⟩

/-- The relationships that a part lists later on are relationships of the template. -/
theorem Kept.relationships (kept : template.Kept sheets p) (reads : template.Reads sheets path) :
    ∃ listed, p.relationships path = .ok listed ∧
      ∀ r ∈ listed, r ∈ template.knownRelationships path := by
  by_cases here : p.contains path = true
  · obtain ⟨text, decoded, d, read, obeys⟩ := kept.parts path reads here
    rw [Package.relationships, text?_of_contains here decoded]
    exact readAll_of_read read (obeys.mono (Rule.and_implies_right _ _))
  · refine ⟨[], ?_, fun _ mem => by cases mem⟩
    rw [Package.relationships, text?_of_not_contains here]

/-- A part is written that was read before. -/
theorem Kept.write (kept : template.Kept sheets p) (reads : template.Reads sheets path)
    {text : String} {d : Document} {root : Element} (here : p.contains path = true)
    (decoded : p.text path = .ok text) (read : Document.read text = .ok d)
    (keeps : ∀ rule : Rule, rule.Stable → d.root.Obeys rule → root.Obeys rule) :
    template.Kept sheets (p.write path (Document.toXml { d with root := root })) where
  contains other := by
    by_cases same : other = path
    · rw [same, contains_write_self, ← kept.contains, here]
    · rw [contains_write_of_ne p _ same, kept.contains]
  parts other readsOther hereOther := by
    by_cases same : other = path
    · subst same
      obtain ⟨oldText, oldDecoded, old, oldRead, obeys⟩ := kept.parts other reads here
      cases decoded.symm.trans oldDecoded
      cases read.symm.trans oldRead
      have stable := stable_keptRule template other
      exact ⟨_, p.text_write_toXml other _, spells_of_read read
        (keptRule_implies_writable template other) stable.text obeys (keeps _ stable obeys)⟩
    · rw [contains_write_of_ne p _ same] at hereOther
      rw [text_write_of_ne p _ same]
      exact kept.parts other readsOther hereOther

/-! ## The tables of a worksheet -/

theorem Kept.adjustTablesAt (kept : template.Kept sheets p) (log : InsertionLog)
    {paths : List String} (reads : ∀ path ∈ paths, template.Reads sheets path) :
    ∃ p', p.adjustTablesAt log paths = .ok p' ∧ template.Kept sheets p' := by
  induction paths generalizing p with
  | nil => exact ⟨p, rfl, kept⟩
  | cons path paths ih =>
      obtain ⟨first, rest⟩ := List.forall_mem_cons.mp reads
      by_cases here : p.contains path = true
      · obtain ⟨text, decoded, d, read, -⟩ := kept.parts path first here
        have keeps (rule : Rule) (stable : rule.Stable) (obeys : d.root.Obeys rule) :
            (adjustTable log d).root.Obeys rule := obeys_adjustTable stable obeys log
        obtain ⟨p', moved, kept'⟩ := ih (kept.write first here decoded read keeps) rest
        exact ⟨p', (adjustTablesAt_found (text?_of_contains here decoded) read).trans moved, kept'⟩
      · obtain ⟨p', moved, kept'⟩ := ih kept rest
        exact ⟨p', (adjustTablesAt_missing (text?_of_not_contains here)).trans moved, kept'⟩

/-- Relationships that are known lead to tables that are known. -/
theorem exists_tablePaths {sheet : String} {now : List Relationship}
    (listed : p.relationships (PartPath.relationships sheet) = .ok now)
    (among : ∀ r ∈ now, r ∈ template.knownRelationships (PartPath.relationships sheet)) :
    ∃ paths, p.tablePaths sheet = .ok paths ∧
      ∀ path ∈ paths, ∃ tables, template.tablePaths sheet = .ok tables ∧ path ∈ tables := by
  refine ⟨_, by rw [tablePaths, listed]; rfl, fun path mem => ?_⟩
  obtain ⟨r, isTable, rfl⟩ := List.mem_map.mp mem
  obtain ⟨source, kind⟩ := List.mem_filter.mp isTable
  have known := among r source
  rw [knownRelationships] at known
  cases first : template.relationships (PartPath.relationships sheet) with
  | error e =>
      rw [first] at known
      cases known
  | ok listed =>
      rw [first] at known
      refine ⟨_, by rw [tablePaths, first]; rfl, List.mem_map.mpr ⟨r, ?_, rfl⟩⟩
      exact List.mem_filter.mpr ⟨known, kind⟩

theorem Kept.adjustTables (kept : template.Kept sheets p) (log : InsertionLog)
    {sheet : ListedSheet} (mem : sheet ∈ sheets) :
    ∃ p', p.adjustTables sheet.path log = .ok p' ∧ template.Kept sheets p' := by
  obtain ⟨now, listed, among⟩ := kept.relationships (.sheetRelationships mem)
  obtain ⟨paths, found, known⟩ := exists_tablePaths listed among
  rw [adjustTables_of_tablePaths found]
  refine kept.adjustTablesAt log fun path table => ?_
  obtain ⟨tables, first, mem'⟩ := known path table
  exact .table mem first mem'

end Kept

end Package

/-! ## Worksheet after worksheet -/

/-- A template that is being filled can be filled further. -/
structure Filling.Ready (template : Package) (sheets : List ListedSheet) (f : Filling) : Prop where
  kept : template.Kept sheets f.package
  workbook : ∀ w ∈ f.workbook, Spells writable w.text

section Filling

variable {template : Package} {sheets : List ListedSheet} (usable : template.Usable sheets)

include usable in
theorem exists_strings (data : Value) : ∃ table, template.strings data = .ok table := by
  rw [Package.strings]
  split
  · rename_i here
    obtain ⟨text, decoded, d, read, -⟩ := usable.readable _ .strings here
    rw [Package.document_of_text decoded read]
    exact ⟨_, rfl⟩
  · exact ⟨_, rfl⟩

include usable in
theorem exists_start (data : Value) :
    ∃ f, Filling.start template data = .ok f ∧ f.Ready template sheets := by
  obtain ⟨table, planned⟩ := exists_strings usable data
  by_cases here : template.contains Workbook.path = true
  · obtain ⟨text, decoded, d, read, names⟩ := usable.readable _ .workbook here
    have started := start_of_text? planned (Package.text?_of_contains here decoded)
    refine ⟨_, started, usable.kept, fun w mem => ?_⟩
    cases mem
    exact ⟨d, read, Document.obeys_writable_of_read read names⟩
  · have started := start_of_text? planned (Package.text?_of_not_contains here)
    exact ⟨_, started, usable.kept, fun w mem => by cases mem⟩

theorem exists_adjust (log : InsertionLog) (sheet : String) {w : WorkbookText}
    (h : Spells writable w.text) :
    ∃ w', w.adjust log sheet = .ok w' ∧ Spells writable w'.text := by
  obtain ⟨moved, same, spells⟩ := exists_adjustNames? log sheet h
  rw [WorkbookText.adjust, same]
  cases moved with
  | none => exact ⟨w, rfl, h⟩
  | some text => exact ⟨⟨text, true⟩, rfl, spells text rfl⟩

theorem Filling.Ready.moveReferences {f : Filling} (ready : f.Ready template sheets)
    {sheet : ListedSheet} (mem : sheet ∈ sheets) (log : InsertionLog) :
    ∃ f', f.moveReferences sheet log = .ok f' ∧ f'.Ready template sheets := by
  obtain ⟨p, moved, kept⟩ := ready.kept.adjustTables log mem
  obtain ⟨package, strings, workbook⟩ := f
  cases workbook with
  | none =>
      refine ⟨⟨p, strings, none⟩, ?_, kept, fun w mem => by cases mem⟩
      exact bind_of_ok moved _
  | some w =>
      obtain ⟨w', renamed, spells⟩ := exists_adjust log sheet.name (ready.workbook w rfl)
      refine ⟨⟨p, strings, some w'⟩, ?_, kept, fun w mem => ?_⟩
      · have names : (w.adjust log sheet.name).map some = .ok (some w') := by
          rw [renamed]
          rfl
        exact (bind_of_ok names _).trans (bind_of_ok moved _)
      · cases mem
        exact spells

include usable in
/-- One worksheet can be filled, and then the next one. -/
theorem Filling.Ready.fillWorksheet {f : Filling} (ready : f.Ready template sheets)
    (options : FillOptions) (data : Value) {sheet : ListedSheet} (mem : sheet ∈ sheets) :
    ∃ f' report, f.fillWorksheet options data sheet = .ok (f', report) ∧
      f'.Ready template sheets := by
  have here : f.package.contains sheet.path = true := by
    rw [ready.kept.contains, usable.present sheet mem]
  obtain ⟨text, decoded, d, read, -⟩ := ready.kept.parts _ (.sheet mem) here
  have written : Filling.Ready template sheets
      { f with
        package := f.package.write sheet.path
          (fillSheet options data f.strings d).1.document.toXml
        strings := (fillSheet options data f.strings d).2 } :=
    ⟨ready.kept.write (.sheet mem) here decoded read
      fun rule stable obeys => obeys_fillSheet stable obeys options data f.strings, ready.workbook⟩
  rw [Filling.fillWorksheet, bind_of_ok (Package.document_of_text decoded read)]
  dsimp only
  split
  · obtain ⟨f', moved, ready'⟩ :=
      written.moveReferences mem (fillSheet options data f.strings d).1.log
    exact ⟨f', _, bind_of_ok moved _, ready'⟩
  · exact ⟨_, _, rfl, written⟩

include usable in
theorem Filling.Ready.fillWorksheets {f : Filling} (ready : f.Ready template sheets)
    (options : FillOptions) (data : Value) {rest : List ListedSheet}
    (listed : ∀ sheet ∈ rest, sheet ∈ sheets) :
    ∃ f' reports, f.fillWorksheets options data rest = .ok (f', reports) ∧
      f'.Ready template sheets := by
  induction rest generalizing f with
  | nil => exact ⟨f, [], fillWorksheets_nil .., ready⟩
  | cons sheet rest ih =>
      obtain ⟨first, others⟩ := List.forall_mem_cons.mp listed
      obtain ⟨f₁, report, filled, ready₁⟩ := ready.fillWorksheet usable options data first
      obtain ⟨f₂, reports, filled₂, ready₂⟩ := ih ready₁ others
      exact ⟨f₂, report :: reports, fillWorksheets_cons filled filled₂, ready₂⟩

/-! ## The end -/

namespace Package

variable {p : Package}

/-- The entry in the list of content types changes nothing else. -/
theorem exists_registerContentType (types : p.Holds Workbook.typesPath writable) :
    ∃ p', p.registerContentType = .ok p' ∧ ∀ path, path ≠ Workbook.typesPath →
      p'.contains path = p.contains path ∧ p'.text path = p.text path := by
  by_cases here : p.contains Workbook.typesPath = true
  · obtain ⟨text, decoded, d, read, -⟩ := types here
    rw [registerContentType, bind_of_ok (text?_of_contains here decoded)]
    simp only [read]
    split
    · exact ⟨p, rfl, fun _ _ => ⟨rfl, rfl⟩⟩
    · exact ⟨_, rfl, fun path different =>
        ⟨contains_write_of_ne p _ different, text_write_of_ne p _ different⟩⟩
  · refine ⟨p, ?_, fun _ _ => ⟨rfl, rfl⟩⟩
    rw [registerContentType, bind_of_ok (text?_of_not_contains here)]
    rfl

theorem exists_registerRelationship (listed : p.Holds Workbook.relationshipsPath writable) :
    ∃ p', p.registerRelationship = .ok p' := by
  by_cases here : p.contains Workbook.relationshipsPath = true
  · obtain ⟨text, decoded, d, read, -⟩ := listed here
    obtain ⟨relationships, found⟩ := exists_readAll read
    rw [registerRelationship, bind_of_ok (text?_of_contains here decoded)]
    dsimp only
    rw [bind_of_ok found]
    simp only [read]
    split
    · exact ⟨p, rfl⟩
    · exact ⟨_, rfl⟩
  · refine ⟨p, ?_⟩
    rw [registerRelationship, bind_of_ok (text?_of_not_contains here)]
    rfl

theorem exists_registerStrings (types : p.Holds Workbook.typesPath writable)
    (listed : p.Holds Workbook.relationshipsPath writable) : ∃ p', p.registerStrings = .ok p' := by
  obtain ⟨p', registered, others⟩ := exists_registerContentType types
  have different : Workbook.relationshipsPath ≠ Workbook.typesPath := by decide
  obtain ⟨sameParts, sameText⟩ := others _ different
  have listed' : p'.Holds Workbook.relationshipsPath writable := by
    rw [Holds, sameParts, sameText]
    exact listed
  obtain ⟨last, related⟩ := exists_registerRelationship listed'
  exact ⟨last, (bind_of_ok registered _).trans related⟩

end Package

theorem Filling.Ready.finish {f : Filling} (ready : f.Ready template sheets) :
    ∃ p, f.finish = .ok p := by
  have holds {path : String} (reads : template.Reads sheets path) :
      f.package.Holds path writable :=
    (ready.kept.parts path reads).mono (Package.keptRule_implies_writable template path)
  -- The workbook part is written first, so only the two lists matter from here on.
  have ends (p : Package) (types : p.Holds Workbook.typesPath writable)
      (listed : p.Holds Workbook.relationshipsPath writable) :
      ∃ last, (if f.strings.needsPart then do
        let p ← if p.contains Workbook.stringsPath then pure p else p.registerStrings
        pure (p.write Workbook.stringsPath f.strings.toPart.toXml)
      else pure p : Except PackageError Package) = .ok last := by
    split
    · split
      · exact ⟨_, rfl⟩
      · obtain ⟨p', registered⟩ := Package.exists_registerStrings types listed
        exact ⟨_, bind_of_ok registered _⟩
    · exact ⟨p, rfl⟩
  rw [Filling.finish]
  refine ends _ ?_ ?_
  · split
    · exact (Package.holds_write_of_ne _ _ (by decide)).mpr (holds .types)
    · exact holds .types
  · split
    · exact (Package.holds_write_of_ne _ _ (by decide)).mpr (holds .relationships)
    · exact holds .relationships

end Filling

/-- Whatever the data and the options are, a usable template can be filled. -/
theorem Package.Usable.exists_fill {template : Package} {sheets : List ListedSheet}
    (usable : template.Usable sheets) (options : FillOptions) (data : Value) :
    ∃ filled report, template.fill options data = .ok (filled, report) := by
  have found : template.templateSheets = .ok sheets := by
    rw [templateSheets, bind_of_ok usable.listed]
    exact if_neg fun empty => usable.nonempty (List.isEmpty_iff.mp empty)
  obtain ⟨f, started, ready⟩ := exists_start usable data
  obtain ⟨f', reports, filled, ready'⟩ :=
    ready.fillWorksheets usable options data fun _ mem => mem
  obtain ⟨p, finished⟩ := ready'.finish
  exact ⟨p, _, fill_of_ok found started filled finished⟩

/-! ## A template with a table and a defined name -/

/-- A package whose parts are documents. -/
def Package.ofDocuments (parts : List (String × Document)) : Package :=
  ofTexts (parts.map fun part => (part.1, part.2.toXml))

theorem Package.text_ofDocuments {parts : List (String × Document)} {path name : String}
    {d : Document} (found : parts.find? (·.1 == path) = some (name, d)) :
    (ofDocuments parts).contains path = true ∧ (ofDocuments parts).text path = .ok d.toXml := by
  have found : (parts.map fun part => (part.1, part.2.toXml)).find? (·.1 == path) =
      some (name, d.toXml) := by
    rw [List.find?_map]
    exact congrArg (Option.map _) found
  exact text_ofTexts found (by rw [d.head?_toXml]; decide)

theorem Package.document_of_find? {parts : List (String × Document)} {path name : String}
    {d : Document} (written : d.Writable) (joined : d.merged = d)
    (found : parts.find? (·.1 == path) = some (name, d)) :
    (ofDocuments parts).document path = .ok d := by
  have read := Document.read_of_scan written (Document.scan_toXml written)
  rw [joined] at read
  exact document_of_text (text_ofDocuments found).2 read

theorem Package.document_ofDocuments {parts : List (String × Document)} {path name : String}
    {d : Document} (written : ∀ part ∈ parts, part.2.Writable)
    (joined : ∀ part ∈ parts, part.2.merged = part.2)
    (found : parts.find? (·.1 == path) = some (name, d)) :
    (ofDocuments parts).document path = .ok d :=
  have mem := List.mem_of_find?_eq_some found
  document_of_find? (written (name, d) mem) (joined (name, d) mem) found

theorem Package.holds_ofDocuments {parts : List (String × Document)}
    (written : ∀ part ∈ parts, part.2.Writable) (path : String) :
    (ofDocuments parts).Holds path writable := by
  intro here
  rw [contains, part?, ofDocuments, ofTexts, List.find?_map, List.find?_map, Option.isSome_map,
    Option.isSome_map] at here
  obtain ⟨⟨name, d⟩, found⟩ := Option.isSome_iff_exists.mp here
  have source : d.Writable := written (name, d) (List.mem_of_find?_eq_some found)
  exact ⟨d.toXml, (text_ofDocuments found).2, d.merged,
    Document.read_of_scan source (Document.scan_toXml source),
    (Element.writable_iff_obeys.mp source.root).merged fun _ => trivial⟩

theorem Package.obeys_of_document_ofDocuments {parts : List (String × Document)}
    (written : ∀ part ∈ parts, part.2.Writable) {path : String} {d : Document}
    (read : (ofDocuments parts).document path = .ok d) : d.root.Obeys writable := by
  obtain ⟨text, found, read'⟩ := exists_text?_of_document read
  obtain ⟨text', decoded, d', spelled, obeys⟩ :=
    holds_ofDocuments written path (contains_of_text? found)
  cases (text_of_text? found).symm.trans decoded
  cases read'.symm.trans spelled
  exact obeys

def invoiceWorkbook : Document :=
  ⟨none, ⟨"workbook", [],
    [.element ⟨"sheets", [], [.element ⟨"sheet", [("name", "Invoice"), ("r:id", "rId1")], []⟩]⟩,
      .element ⟨"definedNames", [],
        [.element ⟨"definedName", [("name", "Total")], [.text "Invoice!$A$3"]⟩]⟩]⟩⟩

def invoiceRelationships : Document :=
  ⟨none, ⟨"Relationships", [],
    [.element ⟨"Relationship", [("Id", "rId1"), ("Type", "a/worksheet"),
      ("Target", "worksheets/sheet1.xml")], []⟩]⟩⟩

def invoiceParts : List (String × Document) :=
  [("[Content_Types].xml", ⟨none, ⟨"Types", [], []⟩⟩), ("xl/workbook.xml", invoiceWorkbook),
    ("xl/_rels/workbook.xml.rels", invoiceRelationships),
    ("xl/worksheets/sheet1.xml", ⟨none, ⟨"worksheet", [],
      [.element ⟨"sheetData", [],
        [.element ⟨"row", [("r", "2")],
          [.element ⟨"c", [("r", "A2"), ("t", "inlineStr")],
            [.element ⟨"is", [], [.element ⟨"t", [], [.text "${table:items}"]⟩]⟩]⟩]⟩]⟩]⟩⟩),
    ("xl/worksheets/_rels/sheet1.xml.rels", ⟨none, ⟨"Relationships", [],
      [.element ⟨"Relationship", [("Id", "rId1"), ("Type", "a/table"),
        ("Target", "../tables/table1.xml")], []⟩]⟩⟩),
    ("xl/tables/table1.xml", ⟨none, ⟨"table", [("ref", "A1:A2")], []⟩⟩)]

def invoice : Package := .ofDocuments invoiceParts

theorem usable_invoice : invoice.Usable [⟨"Invoice", "xl/worksheets/sheet1.xml"⟩] where
  listed := by
    have found : invoiceParts.find? (·.1 == Workbook.path) =
        some ("xl/workbook.xml", invoiceWorkbook) := by decide
    have found' : invoiceParts.find? (·.1 == Workbook.relationshipsPath) =
        some ("xl/_rels/workbook.xml.rels", invoiceRelationships) := by decide
    obtain ⟨here, decoded⟩ := Package.text_ofDocuments found
    obtain ⟨here', decoded'⟩ := Package.text_ofDocuments found'
    have named : ListedSheet.readAll invoiceWorkbook.toXml = .ok [("Invoice", "rId1")] := by
      rw [ListedSheet.readAll, Document.startTags_toXml (by decide +kernel)]
      decide +kernel
    have listed : (Package.ofDocuments invoiceParts).relationships Workbook.relationshipsPath =
        .ok [⟨"rId1", "a/worksheet", "worksheets/sheet1.xml"⟩] := by
      rw [Package.relationships, Package.text?_of_contains here' decoded']
      dsimp only
      rw [Relationship.readAll, Document.startTags_toXml (by decide +kernel)]
      decide +kernel
    rw [Package.sheets, invoice, bind_of_ok (Package.text?_of_contains here decoded)]
    dsimp only
    rw [bind_of_ok named, bind_of_ok listed]
    decide
  nonempty := by decide
  present := by decide
  readable path _ := by
    have written : ∀ part ∈ invoiceParts, part.2.Writable := by decide +kernel
    exact (Package.holds_ofDocuments written path).mono writable_implies_ordinaryNames

/-- The table of the items takes two rows, and both the name and the range below them move. -/
theorem exists_fill_invoice :
    invoice.Usable [⟨"Invoice", "xl/worksheets/sheet1.xml"⟩] ∧
      ∃ filled report, invoice.fill {}
        (.mapping [("items", .sequence [.text "pen", .text "<ink>"])]) = .ok (filled, report) :=
  ⟨usable_invoice, usable_invoice.exists_fill {} _⟩

end SheetFill
