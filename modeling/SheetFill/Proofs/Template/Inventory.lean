import SheetFill.Proofs.Template.Reread
import SheetFill.Proofs.Worksheet.Agreement
import SheetFill.Proofs.Worksheet.Shown
import SheetFill.Template.Inventory

/-!
# The inventory names all that is asked for

Two values that agree on the bodies of the inventory fill a template in the same way
(`fill_congr_of_inventory`): both runs have the same package and the same table of strings after
every worksheet. The inventory is made from the parts of the template, but a worksheet that is
filled later may have been written before as the table of another one. It has the same texts then,
if parts that are written and read again have ordinary names. Both this condition and the one on the
runs are needed (`inventory_not_enough`).
-/

namespace SheetFill

open Xml

/-! ## Worksheet after worksheet -/

section Run

variable {a b : Value} {texts : List String} {f f' : Filling} {sheet : ListedSheet}

theorem fillWorksheet_congr (options : FillOptions) (agrees : f.strings.Agrees a b)
    (agree : ∀ d, f.package.document sheet.path = .ok d →
      ∀ text ∈ cellTexts d, ∀ body ∈ Placeholder.bodies text, a.AgreeAt b body) :
    f.fillWorksheet options a sheet = f.fillWorksheet options b sheet := by
  rw [Filling.fillWorksheet, Filling.fillWorksheet]
  cases found : f.package.document sheet.path with
  | error e => rw [bind_of_error rfl, bind_of_error rfl]
  | ok d =>
      rw [bind_of_ok rfl, bind_of_ok rfl, fillSheet_congr options agrees (agree d found)]

section Names

variable {template : Package} {sheets rest : List ListedSheet}
  (names : template.OrdinaryRereads sheets)
  (inlined : ∀ sheet ∈ sheets, ∀ d, template.document sheet.path = .ok d →
    ∀ text ∈ cellTexts d, text ∈ texts)

include names inlined in
theorem pending_of_fillWorksheet {options : FillOptions} {report : SheetSummary}
    (pending : template.Pending sheets texts (sheet :: rest) f.package)
    (listed : ∀ other ∈ sheet :: rest, other ∈ sheets)
    (distinct : ((sheet :: rest).map ListedSheet.path).Nodup)
    (filled : f.fillWorksheet options a sheet = .ok (f', report)) :
    f.strings.GrowsTo f'.strings ∧ template.Pending sheets texts rest f'.package := by
  obtain ⟨mem, others⟩ := List.forall_mem_cons.mp listed
  rw [List.map_cons, List.nodup_cons] at distinct
  have apart : ∀ other ∈ rest, other.path ≠ sheet.path :=
    fun other mem same => distinct.1 (same ▸ List.mem_map_of_mem mem)
  obtain ⟨d, done, table, read, run, strings, ends⟩ := of_fillWorksheet filled
  have grown := growsTo_fillSheet options a f.strings d
  have first := pending.writeSheet names mem apart read options a f.strings
  rw [run] at grown first
  refine ⟨strings ▸ grown, ?_⟩
  rcases ends with ⟨same, -⟩ | ⟨-, -, moved, -⟩
  · exact same ▸ first
  · exact first.adjustTables names inlined mem others moved

include names inlined in
/-- Worksheets whose texts ask for what agrees are filled in the same way. -/
theorem fillWorksheets_congr (options : FillOptions) (agrees : f.strings.Agrees a b)
    (asked : ∀ text ∈ texts, ∀ body ∈ Placeholder.bodies text, a.AgreeAt b body)
    (pending : template.Pending sheets texts rest f.package)
    (listed : ∀ other ∈ rest, other ∈ sheets) (distinct : (rest.map ListedSheet.path).Nodup) :
    f.fillWorksheets options a rest = f.fillWorksheets options b rest := by
  induction rest generalizing f with
  | nil => rfl
  | cons sheet rest ih =>
      obtain ⟨mem, others⟩ := List.forall_mem_cons.mp listed
      have first := fillWorksheet_congr options agrees fun d read text inside =>
        asked text (pending.mem_texts inlined mem read text inside)
      rw [Filling.fillWorksheets, Filling.fillWorksheets, ← first]
      cases filled : f.fillWorksheet options a sheet with
      | error e => rw [bind_of_error rfl, bind_of_error rfl]
      | ok result =>
          obtain ⟨f', report⟩ := result
          obtain ⟨grown, later⟩ :=
            pending_of_fillWorksheet names inlined pending listed distinct filled
          rw [List.map_cons, List.nodup_cons] at distinct
          rw [bind_of_ok rfl, bind_of_ok rfl]
          dsimp only
          rw [ih (agrees.grow grown) later others distinct.2]

end Names

end Run

/-! ## The inventory -/

section Inventory

variable {template : Package} {sheets : List ListedSheet} {bodies : List String} {a b : Value}

theorem exists_of_cellTexts {paths inlined : List String} {p : Package}
    (listed : p.cellTexts paths = .ok inlined) :
    ∀ path ∈ paths, ∀ d, p.document path = .ok d → ∀ text ∈ cellTexts d, text ∈ inlined := by
  induction paths generalizing inlined with
  | nil => exact fun _ mem => by cases mem
  | cons path paths ih =>
      rw [Package.cellTexts] at listed
      obtain ⟨d, read, listed⟩ := exists_of_bind listed
      obtain ⟨others, found, same⟩ := exists_of_bind listed
      cases same
      refine List.forall_mem_cons.mpr
        ⟨fun d' read' text mem => ?_, fun path mem d read text inside => ?_⟩
      · cases read.symm.trans read'
        exact List.mem_append_left _ mem
      · exact List.mem_append_right _ (ih found path mem d read text inside)

/-- What is in the inventory is what the shared strings and the inline texts ask for. -/
theorem agree_of_inventory (listed : template.templateSheets = .ok sheets)
    (asked : template.inventory = .ok bodies) (agree : ∀ body ∈ bodies, a.AgreeAt b body) :
    ∃ shared inlined, template.sharedTexts = .ok shared ∧
      template.cellTexts (sheets.map ListedSheet.path) = .ok inlined ∧
      ∀ text ∈ shared ++ inlined, ∀ body ∈ Placeholder.bodies text, a.AgreeAt b body := by
  rw [Package.inventory, bind_of_ok listed] at asked
  obtain ⟨shared, sharedTexts, asked⟩ := exists_of_bind asked
  obtain ⟨inlined, cellTexts, asked⟩ := exists_of_bind asked
  cases asked
  refine ⟨shared, inlined, sharedTexts, cellTexts, fun text mem body inside => agree body ?_⟩
  exact List.mem_eraseDups.mpr (List.mem_flatMap.mpr ⟨text, mem, inside⟩)

/-- What holds of all shared strings with runs. -/
def Package.RunsAre (template : Package) (good : Element → Prop) : Prop :=
  ∀ d, template.document Workbook.stringsPath = .ok d →
    ∀ item ∈ sharedItems d, item.hasChild "r" = true → good item

/-- The table of strings is planned in the same way. -/
theorem strings_congr {shared : List String}
    (regular : template.RunsAre fun item => Regular item.merged)
    (listed : template.sharedTexts = .ok shared)
    (agree : ∀ text ∈ shared, ∀ body ∈ Placeholder.bodies text, a.AgreeAt b body) :
    template.strings a = template.strings b ∧
      ∀ table, template.strings a = .ok table → table.Agrees a b := by
  rw [Package.strings, Package.strings]
  rw [Package.sharedTexts] at listed
  split at listed
  · rename_i here
    rw [if_pos here, if_pos here]
    cases read : template.document Workbook.stringsPath with
    | error e =>
        refine ⟨?_, fun _ planned => by cases planned⟩
        show Except.error e = Except.error e
        rfl
    | ok d =>
        rw [read] at listed
        cases listed
        have agree : ∀ item ∈ sharedItems d,
            ∀ body ∈ Placeholder.bodies (visibleText item), a.AgreeAt b body :=
          fun item mem => agree _ (List.mem_map_of_mem mem)
        have entries : (sharedItems d).map (Entry.ofItem a) = (sharedItems d).map (Entry.ofItem b) :=
          List.map_congr_left fun item mem => ofItem_congr (regular d read item mem) (agree item mem)
        have tables : StringTable.ofDocument (some d) a = StringTable.ofDocument (some d) b :=
          congrArg (StringTable.mk (some d) · [] 0) entries
        refine ⟨?_, fun table planned => ?_⟩
        · show Except.ok (StringTable.ofDocument (some d) a) = .ok (.ofDocument (some d) b)
          rw [tables]
        cases planned
        intro entry mem path sole
        obtain ⟨item, source, rfl⟩ := List.mem_map.mp mem
        exact agrees_ofItem (agree item source) sole
  · rename_i missing
    have empty (data : Value) : StringTable.ofDocument none data = ⟨none, [], [], 0⟩ := rfl
    rw [if_neg missing, if_neg missing, empty, empty]
    refine ⟨rfl, fun table planned => ?_⟩
    cases planned
    exact fun _ mem => by cases mem

/-- Data that agree on what the inventory lists fill a template in the same way, if runs are regular
and all parts that are written and then read again have ordinary names. -/
theorem fill_congr_of_inventory (listed : template.templateSheets = .ok sheets)
    (distinct : (sheets.map ListedSheet.path).Nodup)
    (regular : template.RunsAre fun item => Regular item.merged)
    (names : template.OrdinaryRereads sheets)
    (asked : template.inventory = .ok bodies) (agree : ∀ body ∈ bodies, a.AgreeAt b body)
    (options : FillOptions) : template.fill options a = template.fill options b := by
  obtain ⟨shared, all, sharedTexts, allTexts, agree⟩ := agree_of_inventory listed asked agree
  obtain ⟨agreeShared, agreeInlined⟩ := List.forall_mem_append.mp agree
  obtain ⟨same, agrees⟩ := strings_congr regular sharedTexts agreeShared
  have texts := exists_of_cellTexts allTexts
  have started : Filling.start template a = Filling.start template b := by
    rw [Filling.start, Filling.start, same]
  rw [Package.fill, Package.fill, bind_of_ok listed, bind_of_ok listed, ← started]
  cases start : Filling.start template a with
  | error e => rw [bind_of_error rfl, bind_of_error rfl]
  | ok f =>
      rw [Filling.start] at start
      obtain ⟨table, planned, start⟩ := exists_of_bind start
      obtain ⟨text, -, start⟩ := exists_of_bind start
      cases start
      have inlined : ∀ sheet ∈ sheets, ∀ d, template.document sheet.path = .ok d →
          ∀ text ∈ cellTexts d, text ∈ all :=
        fun sheet mem => texts sheet.path (List.mem_map_of_mem mem)
      have run := fillWorksheets_congr names inlined options
        (f := ⟨template, table, text.map fun text => ⟨text, false⟩⟩) (agrees table planned)
        agreeInlined (Package.pending_start ..) (fun _ mem => mem) distinct
      rw [bind_of_ok rfl, bind_of_ok rfl, run]

end Inventory

/-! ## A letter -/

/-- An item with runs that has placeholders in both of them. -/
def letterItem : Node :=
  .element ⟨"si", [], [.element ⟨"r", [], [.element ⟨"rPr", [], [.element ⟨"b", [], []⟩]⟩,
    .element ⟨"t", [], [.text "Dear ${name}, "]⟩]⟩,
    .element ⟨"r", [], [.element ⟨"t", [], [.text "you owe ${sum}"]⟩]⟩]⟩

/-- The second worksheet is a table of the first one. -/
def letterParts : List (String × Document) :=
  [("xl/sharedStrings.xml", ⟨none, ⟨"sst", [], [letterItem]⟩⟩),
    ("xl/worksheets/sheet1.xml",
      rowSheet [sharedCell "A1" "0", inlineCell "B1" "${table:items}" []]),
    ("xl/worksheets/_rels/sheet1.xml.rels", ⟨none, ⟨"Relationships", [],
      [.element ⟨"Relationship", [("Id", "rId1"), ("Type", "a/table"), ("Target", "sheet2.xml")],
        []⟩]⟩⟩),
    ("xl/worksheets/sheet2.xml", rowSheet [inlineCell "A1" "${name}" []])]

def letter : Package := .ofDocuments letterParts

def letterData (secret : String) : Value :=
  .mapping [("items", .sequence [.text "pen", .text "ink"]), ("name", .text "Ann"),
    ("secret", .text secret), ("sum", .text "two")]

/-- The letter asks for three values, and filling it does not look at the fourth one. -/
theorem fill_congr_of_inventory_letter :
    letter.inventory = .ok ["name", "sum", "table:items"] ∧
      letter.fill {} (letterData "a") = letter.fill {} (letterData "b") := by
  have written : ∀ part ∈ letterParts, part.2.Writable := by decide +kernel
  have joined : ∀ part ∈ letterParts, part.2.merged = part.2 := by decide +kernel
  have strings : letter.document Workbook.stringsPath = .ok ⟨none, ⟨"sst", [], [letterItem]⟩⟩ :=
    Package.document_ofDocuments written joined rfl
  have first : letter.document "xl/worksheets/sheet1.xml" =
      .ok (rowSheet [sharedCell "A1" "0", inlineCell "B1" "${table:items}" []]) :=
    Package.document_ofDocuments written joined rfl
  have second : letter.document "xl/worksheets/sheet2.xml" =
      .ok (rowSheet [inlineCell "A1" "${name}" []]) :=
    Package.document_ofDocuments written joined rfl
  have listed : letter.templateSheets = .ok [⟨"sheet1", "xl/worksheets/sheet1.xml"⟩,
      ⟨"sheet2", "xl/worksheets/sheet2.xml"⟩] := by decide +kernel
  have shared : letter.sharedTexts = .ok ["Dear ${name}, you owe ${sum}"] := by
    rw [Package.sharedTexts, if_pos (by decide), strings]
    decide +kernel
  have inlined : letter.cellTexts ["xl/worksheets/sheet1.xml", "xl/worksheets/sheet2.xml"] =
      .ok ["${table:items}", "${name}"] := by
    rw [Package.cellTexts, bind_of_ok first, Package.cellTexts, bind_of_ok second]
    decide +kernel
  have asked : letter.inventory = .ok ["name", "sum", "table:items"] := by
    rw [Package.inventory, bind_of_ok listed, bind_of_ok shared, List.map_cons, List.map_cons,
      List.map_nil, bind_of_ok inlined]
    decide +kernel
  refine ⟨asked, fill_congr_of_inventory listed (by decide) ?_ ?_ asked ?_ {}⟩
  · intro d read item mem _
    cases strings.symm.trans read
    have regular : ∀ item ∈ sharedItems ⟨none, ⟨"sst", [], [letterItem]⟩⟩, Regular item.merged := by
      decide +kernel
    exact regular item mem
  · intro path _ d read
    exact (Package.obeys_of_document_ofDocuments written read).mono writable_implies_ordinaryNames
  · have name : (DataPath.read "name").steps = [.key "name"] := by decide +kernel
    have sum : (DataPath.read "sum").steps = [.key "sum"] := by decide +kernel
    have items : (DataPath.read "table:items").steps = [.key "items"] := by decide +kernel
    exact List.forall_mem_cons.mpr ⟨agreeAt_of_steps name rfl, List.forall_mem_cons.mpr
      ⟨agreeAt_of_steps sum rfl, List.forall_mem_singleton.mpr (agreeAt_of_steps items rfl)⟩⟩

/-- What the inventory would promise if it were enough that its runs are good. -/
def InventorySuffices (good : Element → Prop) : Prop :=
  ∀ (template : Package) (sheets : List ListedSheet) (bodies : List String) (a b : Value)
    (options : FillOptions), template.templateSheets = .ok sheets →
      (sheets.map ListedSheet.path).Nodup →
      template.RunsAre good → template.inventory = .ok bodies →
      (∀ body ∈ bodies, a.AgreeAt b body) → template.fill options a = template.fill options b

/-- It is not enough if some template is filled in two ways with data that agree. -/
theorem not_inventorySuffices {good : Element → Prop} {template : Package}
    {sheets : List ListedSheet} {bodies : List String} {a b : Value} {options : FillOptions}
    (listed : template.templateSheets = .ok sheets)
    (distinct : (sheets.map ListedSheet.path).Nodup) (runs : template.RunsAre good)
    (asked : template.inventory = .ok bodies) (agree : ∀ body ∈ bodies, a.AgreeAt b body)
    {path first second : String}
    (filled : (template.fill options a).map (fun filled => filled.1.text path) = .ok (.ok first))
    (filled' : (template.fill options b).map (fun filled => filled.1.text path) = .ok (.ok second))
    (different : first ≠ second) : ¬ InventorySuffices good := by
  intro enough
  have same := enough template sheets bodies a b options listed distinct runs asked agree
  rw [same, filled'] at filled
  cases filled
  exact different rfl

/-! ## A placeholder in two text nodes -/

/-- Strings with an item of one run that has these nodes in front of its text. -/
def runStrings (nodes : List Node) : Document :=
  ⟨none, ⟨"sst", [], [.element ⟨"si", [],
    [.element ⟨"r", [], nodes ++ [.element ⟨"t", [], [.text "Dear ${name}"]⟩]⟩]⟩]⟩⟩

/-- The name of the element makes it a document type declaration, which has no node. -/
def divided : Document :=
  runStrings [.text "$", .element ⟨"!DOCTYPE d", [], []⟩, .text "\x7bsecret\x7d"]

def dividedRead : Document := runStrings [.text "$", .text "\x7bsecret\x7d"]

theorem read_divided : Document.read divided.toXml = .ok dividedRead := by
  rw [Document.read, scan, Document.toXml, String.toList_ofList]
  decide +kernel

def blankSheet : Document := ⟨none, ⟨"worksheet", [], []⟩⟩

def dividedParts : List (String × Document) :=
  [("xl/sharedStrings.xml", divided), ("xl/worksheets/sheet1.xml", blankSheet)]

def dividedTemplate : Package := .ofDocuments dividedParts

def dividedSheet : ListedSheet := ⟨"sheet1", "xl/worksheets/sheet1.xml"⟩

theorem templateSheets_divided : dividedTemplate.templateSheets = .ok [dividedSheet] := by
  decide +kernel

theorem document_dividedRead : dividedTemplate.document Workbook.stringsPath = .ok dividedRead :=
  Package.document_of_text (Package.text_ofDocuments rfl).2 read_divided

theorem document_blankSheet : dividedTemplate.document dividedSheet.path = .ok blankSheet := by
  have written : blankSheet.Writable := by decide +kernel
  exact Package.document_of_text (Package.text_ofDocuments rfl).2
    (Document.read_of_scan written (Document.scan_toXml written))

/-- The strings of the template are filled, whatever its worksheet looks like. -/
theorem fill_divided (data : Value) :
    (dividedTemplate.fill {} data).map (fun filled => filled.1.text Workbook.stringsPath) =
      .ok (.ok (StringTable.ofDocument (some dividedRead) data).toPart.toXml) := by
  generalize planned : StringTable.ofDocument (some dividedRead) data = table
  have strings : dividedTemplate.strings data = .ok table := by
    rw [Package.strings, if_pos (by decide), document_dividedRead, ← planned]
    rfl
  have noWorkbook : dividedTemplate.text? Workbook.path = .ok none :=
    Package.text?_of_not_contains (by decide)
  have run : fillSheet {} data table blankSheet = (⟨blankSheet, .empty, 0, 0⟩, table) := rfl
  let p := dividedTemplate.write dividedSheet.path blankSheet.toXml
  have finished : Filling.finish ⟨p, table, none⟩ =
      .ok (p.write Workbook.stringsPath table.toPart.toXml) := by
    have here : p.contains Workbook.stringsPath = true := Package.contains_write _ _ (by decide)
    have needed : table.needsPart = true := by
      rw [← planned]
      rfl
    rw [Filling.finish, if_pos needed, if_pos here]
    rfl
  rw [Package.fill_of_ok templateSheets_divided (start_of_text? strings noWorkbook)
    (fillWorksheets_cons (fillWorksheet_of_isEmpty document_blankSheet run rfl)
      (fillWorksheets_nil ..)) finished]
  exact congrArg Except.ok (p.text_write_toXml ..)

theorem not_inventorySuffices_regular : ¬ InventorySuffices Regular := by
  have regular : dividedTemplate.RunsAre Regular := by
    intro d read item mem _
    cases document_dividedRead.symm.trans read
    have regular : ∀ item ∈ sharedItems dividedRead, Regular item := by decide +kernel
    exact regular item mem
  have strings : dividedTemplate.sharedTexts = .ok ["Dear ${name}"] := by
    rw [Package.sharedTexts, if_pos (by decide), document_dividedRead]
    decide +kernel
  have inlined : dividedTemplate.cellTexts [dividedSheet.path] = .ok [] := by
    rw [Package.cellTexts, bind_of_ok document_blankSheet]
    rfl
  have asked : dividedTemplate.inventory = .ok ["name"] := by
    rw [Package.inventory, bind_of_ok templateSheets_divided, bind_of_ok strings,
      List.map_singleton, bind_of_ok inlined]
    decide +kernel
  have steps : (DataPath.read "name").steps = [.key "name"] := by decide +kernel
  have agree : ∀ body ∈ ["name"],
      (Value.mapping [("secret", .text "s")]).AgreeAt (.mapping [("secret", .null)]) body :=
    List.forall_mem_singleton.mpr (agreeAt_of_steps steps rfl)
  exact not_inventorySuffices templateSheets_divided (by decide) regular asked agree
    (fill_divided _) (fill_divided _) (by decide +kernel)

/-! ## A worksheet that is a table -/

/-- A worksheet with an element without children and then other nodes for its rows. -/
def oddSheet (attributes : List (String × String)) (others : List Node) : Document :=
  ⟨none, ⟨"worksheet", [], [.element ⟨"sheetData", [], .element ⟨"z", attributes, []⟩ :: others⟩]⟩⟩

/-- A comment with a row in it, after the end of a tag. -/
def rowComment : Node :=
  .comment "\"=\"\"/><row><c t=\"inlineStr\"><is><t>${secret}</t></is></c></row>"

/-- The quotes in the key hide those around its value. -/
def quoted : Document := oddSheet [("k'=\"&apos;\"m'", "")] [rowComment]

def quotedRead : Document := oddSheet [("k'", "'"), ("m'", "")] [rowComment]

/-- What is written for that has a longer tag, and the comment is gone. -/
def quotedReread : Document :=
  oddSheet [("k'", "'"), ("m'", ""), ("/><!--\"", "")]
    [.element ⟨"row", [], [.element ⟨"c", [("t", "inlineStr")],
      [.element ⟨"is", [], [.element ⟨"t", [], [.text "${secret}"]⟩]⟩]⟩]⟩, .text "-->"]

theorem read_quoted : Document.read quoted.toXml = .ok quotedRead := by
  rw [Document.read, scan, Document.toXml, String.toList_ofList]
  decide +kernel

theorem read_quotedRead : Document.read quotedRead.toXml = .ok quotedReread := by
  rw [Document.read, scan, Document.toXml, String.toList_ofList]
  decide +kernel

def tableSheet : Document := rowSheet [inlineCell "A1" "${table:items}" []]

def tableRelationships : Document :=
  ⟨none, ⟨"Relationships", [],
    [.element ⟨"Relationship", [("Id", "rId1"), ("Type", "a/table"), ("Target", "sheet2.xml")],
      []⟩]⟩⟩

def aliasedParts : List (String × Document) :=
  [("xl/worksheets/sheet1.xml", tableSheet),
    ("xl/worksheets/_rels/sheet1.xml.rels", tableRelationships),
    ("xl/worksheets/sheet2.xml", quoted)]

/-- The second worksheet is a table of the first one, too. -/
def aliased : Package := .ofDocuments aliasedParts

def firstSheet : ListedSheet := ⟨"sheet1", "xl/worksheets/sheet1.xml"⟩

def secondSheet : ListedSheet := ⟨"sheet2", "xl/worksheets/sheet2.xml"⟩

theorem templateSheets_aliased : aliased.templateSheets = .ok [firstSheet, secondSheet] := by
  decide +kernel

theorem document_tableSheet : aliased.document firstSheet.path = .ok tableSheet :=
  Package.document_of_find? (by decide +kernel) (by decide +kernel) rfl

theorem text?_quoted (text : String) :
    (aliased.write firstSheet.path text).text? secondSheet.path = .ok (some quoted.toXml) := by
  have different : secondSheet.path ≠ firstSheet.path := by decide
  have found : aliasedParts.find? (·.1 == secondSheet.path) = some (_, quoted) := rfl
  obtain ⟨here, decoded⟩ := Package.text_ofDocuments found
  rw [aliased.text?_write_of_ne text different]
  exact Package.text?_of_contains here decoded

theorem tablePaths_aliased (text : String) :
    (aliased.write firstSheet.path text).tablePaths firstSheet.path = .ok [secondSheet.path] := by
  have different : PartPath.relationships firstSheet.path ≠ firstSheet.path := by decide
  have found : aliasedParts.find? (·.1 == PartPath.relationships firstSheet.path) =
      some ("xl/worksheets/_rels/sheet1.xml.rels", tableRelationships) := by decide
  obtain ⟨here, decoded⟩ := Package.text_ofDocuments found
  have listed : Relationship.readAll tableRelationships.toXml =
      .ok [⟨"rId1", "a/table", "sheet2.xml"⟩] := by
    rw [Relationship.readAll, Document.startTags_toXml (by decide +kernel)]
    decide +kernel
  rw [Package.tablePaths, Package.relationships, aliased.text?_write_of_ne text different, aliased,
    Package.text?_of_contains here decoded]
  dsimp only
  rw [listed]
  decide +kernel

/-- The table of a workbook without a table. -/
def noTexts : StringTable := ⟨none, [], [], 0⟩

/-- The second worksheet is filled as it is read after it was written as a table. -/
theorem fill_aliased (data : Value)
    (grown : (fillSheet {} data noTexts tableSheet).1.log.isEmpty = false)
    (same : (fillSheet {} data noTexts tableSheet).2 = noTexts)
    (still : (fillSheet {} data noTexts quotedReread).1.log.isEmpty = true)
    (same' : (fillSheet {} data noTexts quotedReread).2 = noTexts) :
    (aliased.fill {} data).map (fun filled => filled.1.text secondSheet.path) =
      .ok (.ok (fillSheet {} data noTexts quotedReread).1.document.toXml) := by
  have run : fillSheet {} data noTexts tableSheet =
      ((fillSheet {} data noTexts tableSheet).1, noTexts) := Prod.ext rfl same
  have run' : fillSheet {} data noTexts quotedReread =
      ((fillSheet {} data noTexts quotedReread).1, noTexts) := Prod.ext rfl same'
  generalize (fillSheet {} data noTexts tableSheet).1 = filled at grown run
  generalize (fillSheet {} data noTexts quotedReread).1 = filled' at still run' ⊢
  have strings : aliased.strings data = .ok noTexts := if_neg (by decide)
  have noWorkbook : aliased.text? Workbook.path = .ok none :=
    Package.text?_of_not_contains (by decide)
  let p := aliased.write firstSheet.path filled.document.toXml
  let p' := p.write secondSheet.path quotedRead.toXml
  have noRange : adjustTable filled.log quotedRead = quotedRead := rfl
  have moved : p.adjustTables firstSheet.path filled.log = .ok p' := by
    rw [Package.adjustTables_of_tablePaths (tablePaths_aliased _),
      Package.adjustTablesAt_found (text?_quoted _) read_quoted, noRange, Package.adjustTablesAt]
  have reread : p'.document secondSheet.path = .ok quotedReread :=
    Package.document_of_text (p.text_write_toXml ..) read_quotedRead
  have finished : Filling.finish ⟨p'.write secondSheet.path filled'.document.toXml, noTexts, none⟩ =
      .ok (p'.write secondSheet.path filled'.document.toXml) := rfl
  rw [Package.fill_of_ok templateSheets_aliased (start_of_text? strings noWorkbook)
    (fillWorksheets_cons (fillWorksheet_of_adjustTables rfl document_tableSheet run grown moved)
      (fillWorksheets_cons (fillWorksheet_of_isEmpty reread run' still) (fillWorksheets_nil ..)))
    finished]
  exact congrArg Except.ok (p'.text_write_toXml ..)

def aliasedData (secret : Value) : Value :=
  .mapping [("items", .sequence [.null, .null]), ("secret", secret)]

theorem not_inventorySuffices_merged : ¬ InventorySuffices fun item => Regular item.merged := by
  have noStrings : ¬ aliased.contains Workbook.stringsPath = true := by decide
  have noRuns : aliased.RunsAre fun item => Regular item.merged := by
    intro d read
    obtain ⟨text, found, -⟩ := Package.exists_text?_of_document read
    cases (Package.text?_of_not_contains noStrings).symm.trans found
  have second : aliased.document secondSheet.path = .ok quotedRead :=
    Package.document_of_text (Package.text_ofDocuments rfl).2 read_quoted
  have inlined : aliased.cellTexts [firstSheet.path, secondSheet.path] =
      .ok ["${table:items}"] := by
    rw [Package.cellTexts, bind_of_ok document_tableSheet, Package.cellTexts, bind_of_ok second]
    decide +kernel
  have strings : aliased.sharedTexts = .ok [] := if_neg noStrings
  have asked : aliased.inventory = .ok ["table:items"] := by
    rw [Package.inventory, bind_of_ok templateSheets_aliased, bind_of_ok strings, List.map_cons,
      List.map_singleton, bind_of_ok inlined]
    decide +kernel
  have steps : (DataPath.read "table:items").steps = [.key "items"] := by decide +kernel
  have agree : ∀ body ∈ ["table:items"],
      (aliasedData (.bool true)).AgreeAt (aliasedData .null) body :=
    List.forall_mem_singleton.mpr (agreeAt_of_steps steps rfl)
  have filled := fill_aliased (aliasedData (.bool true)) (by decide +kernel)
    (by decide +kernel) (by decide +kernel) (by decide +kernel)
  have filled' := fill_aliased (aliasedData .null) (by decide +kernel)
    (by decide +kernel) (by decide +kernel) (by decide +kernel)
  exact not_inventorySuffices templateSheets_aliased (by decide) noRuns asked agree filled filled'
    (by decide +kernel)

/-- Runs that are regular as they are read do not make the inventory enough, since a placeholder may
be in two text nodes that are written as one. Nor do runs that are regular with their texts merged,
since a worksheet that is written as a table of another one may have more rows when it is read. -/
theorem inventory_not_enough :
    ¬ InventorySuffices Regular ∧ ¬ InventorySuffices fun item => Regular item.merged :=
  ⟨not_inventorySuffices_regular, not_inventorySuffices_merged⟩

end SheetFill

