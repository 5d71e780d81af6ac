import SheetFill.Proofs.Worksheet.Reader

/-!
# What a filled sheet shows

In a filled sheet a reader sees what the template and the data say (`expected`): the content of a
value where the text of the template is one placeholder, and the text with its placeholders filled
in otherwise. Texts of the data are shown as they are. Placeholders in them are not filled in again.
-/

namespace SheetFill

open Xml

/-! ## Texts of the template -/

/-- The text of a cell of the template: that of the item it points to, or its own. -/
def templateText? (items : List Element) (cell : Element) : Option String :=
  if cell.attr? "t" = some "s" then ((sharedIndex? cell).bind (items[·]?)).map visibleText
  else if cell.attr? "t" = some "inlineStr" then
    some (((cell.child? "is").map visibleText).getD "")
  else none

/-- What a reader should see of a text of the template in one copy of its row. -/
def expected (data : Value) (text : String) (copy : Nat) : List Shown :=
  match Placeholder.sole? text with
  | some body => (contentsAt data (DataPath.read body) copy).map Shown.ofContent
  | none => [.text (if Placeholder.occursIn text then data.fill text else text)]

theorem kind_ofItem (data : Value) (item : Element) :
    (Entry.ofItem data item).kind =
      match Placeholder.sole? (visibleText item) with
      | some body => .sole (DataPath.read body)
      | none => if Placeholder.occursIn (visibleText item) then .mixed else .constant := by
  cases sole : Placeholder.sole? (visibleText item) with
  | some body => simp only [Entry.ofItem, sole]
  | none =>
      simp only [Entry.ofItem, sole]
      split
      · rfl
      · rfl

theorem visibleText_ofItem {data : Value} {item : Element} (plain : PlainItem item)
    (noSole : Placeholder.sole? (visibleText item) = none) :
    visibleText (Entry.ofItem data item).item =
      if Placeholder.occursIn (visibleText item) then data.fill (visibleText item)
      else visibleText item := by
  rw [Entry.ofItem, noSole]
  show visibleText (Entry.item (ite _ _ _)) = _
  split
  · exact visibleText_fillItem plain data
  · rfl

section Planned

variable {data : Value} {table final : StringTable} {items : List Element} {cell : Element}
  {text : String}

/-- A cell that points to an item has that item's text. -/
theorem exists_item (isShared : cell.attr? "t" = some "s")
    (found : templateText? items cell = some text) :
    ∃ index item, sharedIndex? cell = some index ∧ items[index]? = some item ∧
      visibleText item = text := by
  rw [templateText?, if_pos isShared] at found
  obtain ⟨item, found, same⟩ := Option.map_eq_some_iff.mp found
  obtain ⟨index, points, found⟩ := Option.bind_eq_some_iff.mp found
  exact ⟨index, item, points, found, same⟩

/-- A cell whose text is one placeholder has its path. -/
theorem solePath?_of_sole (entries : table.entries = items.map (Entry.ofItem data))
    (noFormula : cell.hasChild "f" = false) (found : templateText? items cell = some text)
    {body : String} (sole : Placeholder.sole? text = some body) :
    solePath? table cell = some (DataPath.read body) := by
  rw [solePath?, noFormula, if_neg Bool.false_ne_true]
  by_cases isShared : cell.attr? "t" = some "s"
  · obtain ⟨index, item, points, there, rfl⟩ := exists_item isShared found
    have kind : (sharedIndex? cell).bind table.kind? = some (.sole (DataPath.read body)) := by
      rw [points, Option.bind_some, StringTable.kind?, entries, List.getElem?_map, there,
        Option.map_some, Option.map_some, kind_ofItem, sole]
    rw [if_pos isShared, kind]
  · rw [templateText?, if_neg isShared] at found
    rw [if_neg isShared]
    split at found
    · rename_i isInline
      rw [if_pos isInline, Option.some.inj found, sole, Option.map_some]
    · cases found

theorem shown_shared (isShared : cell.attr? "t" = some "s") {index : Nat}
    (points : sharedIndex? cell = some index) {texts : List String}
    (found : texts[index]? = some text) : shown texts cell = .text text := by
  obtain ⟨v, value, number⟩ := Option.bind_eq_some_iff.mp points
  have spelled : spelled? (Text.trim v.text.toList) = some index :=
    (Option.filter_eq_some_iff.mp number).1
  rw [shown, value, if_pos isShared]
  show (match (spelled? (Text.trim v.text.toList)).bind (texts[·]?) with
    | some text => Shown.text text
    | none => .nothing) = _
  rw [spelled, Option.bind_some, found]

theorem shown_inline (isInline : cell.attr? "t" = some "inlineStr") (texts : List String) :
    shown texts cell = .text (((cell.child? "is").map visibleText).getD "") := by
  have notShared : cell.attr? "t" ≠ some "s" := by
    rw [isInline]
    decide
  rw [shown, if_neg notShared, if_pos isInline]

theorem occursIn_empty : Placeholder.occursIn "" = false := by
  have none : Placeholder.pieces "".toList = [] := by
    show Placeholder.pieces [] = []
    rw [Placeholder.pieces]
  rw [Placeholder.occursIn, none]
  rfl

theorem visibleText_setInlineText {inline : Element} (found : cell.child? "is" = some inline)
    (text : String) :
    ((setInlineText cell text).child? "is").map visibleText = some text := by
  rw [setInlineText, Element.child?_modifyChild, found]
  · exact congrArg some (visibleText_plainItem text)
  · intro child same
    exact same

/-- Any other text of an item stays where it is, with its placeholders filled in there. -/
theorem planCell_shared (entries : table.entries = items.map (Entry.ofItem data))
    (plain : ∀ item ∈ (sharedIndex? cell).bind (items[·]?), PlainItem item)
    (later : final.entries = table.entries)
    (noFormula : cell.hasChild "f" = false) (isShared : cell.attr? "t" = some "s")
    (found : templateText? items cell = some text) (noSole : Placeholder.sole? text = none) :
    planCell table data cell = (.kept, cell) ∧ shown final.texts cell =
      .text (if Placeholder.occursIn text then data.fill text else text) := by
  obtain ⟨index, item, points, there, rfl⟩ := exists_item isShared found
  have entry : table.entries[index]? = some (Entry.ofItem data item) := by
    rw [entries, List.getElem?_map, there]
    rfl
  refine ⟨?_, ?_⟩
  · have kind : (sharedIndex? cell).bind table.kind? = some (Entry.ofItem data item).kind := by
      rw [points, Option.bind_some, StringTable.kind?, entry]
      rfl
    rw [planCell, noFormula, if_neg Bool.false_ne_true, if_pos isShared, kind, kind_ofItem, noSole]
    by_cases occurs : Placeholder.occursIn (visibleText item) = true
    · rw [if_pos occurs]
    · rw [if_neg occurs]
  · have inside : index < (table.entries.map fun entry => visibleText entry.item).length := by
      rw [List.length_map]
      exact (List.getElem?_eq_some_iff.mp entry).1
    have read : final.texts[index]? = some (visibleText (Entry.ofItem data item).item) := by
      rw [StringTable.texts, later, List.getElem?_append_left inside, List.getElem?_map, entry]
      rfl
    have pointed : item ∈ (sharedIndex? cell).bind (items[·]?) := by
      rw [points]
      exact there
    rw [shown_shared isShared points read, visibleText_ofItem (plain item pointed) noSole]

/-- Any other text of a cell's own stays in the cell, with its placeholders filled in. -/
theorem planCell_inline (noFormula : cell.hasChild "f" = false)
    (isInline : cell.attr? "t" = some "inlineStr")
    (own : ((cell.child? "is").map visibleText).getD "" = text)
    (noSole : Placeholder.sole? text = none) (texts : List String) :
    ∃ template, planCell table data cell = (.kept, template) ∧ shown texts template =
      .text (if Placeholder.occursIn text then data.fill text else text) := by
  have notShared : ¬ cell.attr? "t" = some "s" := by
    rw [isInline]
    decide
  rw [planCell, noFormula, if_neg Bool.false_ne_true, if_neg notShared]
  simp only [if_pos isInline, own, noSole]
  by_cases occurs : Placeholder.occursIn text = true
  · obtain ⟨inline, inside⟩ : ∃ inline, cell.child? "is" = some inline := by
      cases inside : cell.child? "is" with
      | some inline => exact ⟨inline, rfl⟩
      | none =>
          rw [inside] at own
          rw [← own] at occurs
          exact absurd occurs (Bool.eq_false_iff.mp occursIn_empty)
    have kept : (setInlineText cell (data.fill text)).attr? "t" = some "inlineStr" := isInline
    refine ⟨setInlineText cell (data.fill text), by rw [if_pos occurs], ?_⟩
    rw [shown_inline kept, visibleText_setInlineText inside, if_pos occurs]
    rfl
  · refine ⟨cell, by rw [if_neg occurs], ?_⟩
    rw [shown_inline isInline, own, if_neg occurs]

/-- A text that is not one placeholder is kept, with its placeholders filled in. -/
theorem planCell_text (entries : table.entries = items.map (Entry.ofItem data))
    (plain : cell.attr? "t" = some "s" → ∀ item ∈ (sharedIndex? cell).bind (items[·]?),
      PlainItem item)
    (later : final.entries = table.entries)
    (noFormula : cell.hasChild "f" = false) (found : templateText? items cell = some text)
    (noSole : Placeholder.sole? text = none) :
    ∃ template, planCell table data cell = (.kept, template) ∧ shown final.texts template =
      .text (if Placeholder.occursIn text then data.fill text else text) := by
  by_cases isShared : cell.attr? "t" = some "s"
  · exact ⟨cell, planCell_shared entries (plain isShared) later noFormula isShared found noSole⟩
  · rw [templateText?, if_neg isShared] at found
    split at found
    · rename_i isInline
      exact planCell_inline noFormula isInline (Option.some.inj found) noSole final.texts
    · cases found

end Planned

/-! ## Traced cells -/

section Traced

variable {options : FillOptions} {data : Value} {table final : StringTable} {log : InsertionLog}
  {items : List Element}

/-- A cell of the template with a text and no formula is seen as it should be, in each copy of its
row and as far as the sheet has room. -/
theorem shown_text (entries : table.entries = items.map (Entry.ofItem data))
    (plain : ∀ item ∈ items, PlainItem item) (later : table.GrowsTo final)
    {row copy number : Nat} {cell : Element × TemplateCell} {text : String}
    (plan : (cell.2.outcome, cell.2.template) = planCell table data cell.1)
    (stored : ∀ placed ∈ placeCell options log row copy number cell.2, placed.Stored final)
    (noFormula : cell.1.hasChild "f" = false) (found : templateText? items cell.1 = some text) :
    (cellTrace options final log row copy number cell).written.map (shown final.texts) =
      (expected data text copy).take (maxColumns + 1 - cell.2.place) := by
  rw [expected]
  cases sole : Placeholder.sole? text with
  | some body => exact shown_path plan stored (solePath?_of_sole entries noFormula found sole)
  | none =>
      have pointed : cell.1.attr? "t" = some "s" →
          ∀ item ∈ (sharedIndex? cell.1).bind (items[·]?), PlainItem item := by
        intro _ item found
        obtain ⟨index, -, there⟩ := Option.bind_eq_some_iff.mp found
        exact plain item (List.mem_of_getElem? there)
      obtain ⟨template, planned, read⟩ :=
        planCell_text entries pointed later.entries noFormula found sole
      rw [planned] at plan
      obtain ⟨kept, same⟩ := Prod.mk.inj plan
      rw [shown_cellTrace stored, bodies_placeCell_kept kept, List.map_take, same]
      show ([shown final.texts template]).take _ = _
      rw [read]

end Traced

/-! ## Sheets that share a table -/

/-- Fill worksheets one after another with one table of strings. -/
def fillSheets (options : FillOptions) (data : Value) (table : StringTable) :
    List Document → List FilledSheet × StringTable
  | [] => ([], table)
  | template :: templates =>
      let (filled, table) := fillSheet options data table template
      let (others, table) := fillSheets options data table templates
      (filled :: others, table)

theorem growsTo_fillSheets (options : FillOptions) (data : Value) (table : StringTable)
    (templates : List Document) : table.GrowsTo (fillSheets options data table templates).2 := by
  induction templates generalizing table with
  | nil => exact .refl table
  | cons template templates ih =>
      exact (growsTo_fillSheet options data table template).trans (ih _)

theorem fillSheets_append (options : FillOptions) (data : Value) (table : StringTable)
    (before after : List Document) :
    let first := fillSheets options data table before
    let rest := fillSheets options data first.2 after
    fillSheets options data table (before ++ after) = (first.1 ++ rest.1, rest.2) := by
  induction before generalizing table with
  | nil => rfl
  | cons template before ih =>
      have later := ih (fillSheet options data table template).2
      exact congrArg (fun others : List FilledSheet × StringTable =>
        ((fillSheet options data table template).1 :: others.1, others.2)) later

theorem length_fillSheets (options : FillOptions) (data : Value) (table : StringTable)
    (templates : List Document) :
    (fillSheets options data table templates).1.length = templates.length := by
  induction templates generalizing table with
  | nil => rfl
  | cons template templates ih => exact congrArg (· + 1) (ih _)

/-- Every cell that a text of the template became is seen as it should be, in each copy of its row
and as far as the sheet has room. Cells with formulas are not looked at. -/
def ShowsExpected (items : List Element) (data : Value) (texts : List String)
    (trace : List RowTrace) : Prop :=
  ∀ row ∈ trace, ∀ copy ∈ row.copies, ∀ cell ∈ copy.cells,
    ∀ text ∈ templateText? items cell.template, cell.template.hasChild "f" = false →
      cell.written.map (shown texts) =
        (expected data text copy.copy).take (maxColumns + 1 - cell.place)

theorem showsExpected_fillTrace {options : FillOptions} {data : Value} {table final : StringTable}
    {items : List Element} {template : Document}
    (entries : table.entries = items.map (Entry.ofItem data))
    (plain : ∀ item ∈ items, PlainItem item)
    (later : (fillSheet options data table template).2.GrowsTo final) :
    ShowsExpected items data final.texts (fillTrace options data table final template) := by
  intro row mem copy mem' cell mem'' text found noFormula
  obtain ⟨before, after, number, e, split, rfl⟩ := mem_traceRows mem
  obtain ⟨k, inside, room, rfl⟩ := mem_copies_rowTrace mem'
  obtain ⟨planned, source, rfl⟩ := List.mem_map.mp mem''
  exact shown_text entries plain ((growsTo_fillSheet ..).trans later)
    (of_mem_planCells source).2 (stored_placeCell later split inside room source) noFormula found

/-- In worksheets that were filled one after another, every cell with a text shows what the template
and the data say, read with the written table of strings. -/
theorem fillSheets_shows (options : FillOptions) (data : Value) (document : Option Document)
    (plain : ∀ d ∈ document, PlainPart d) (before : List Document) (sheet : Document)
    (after : List Document) :
    let start := StringTable.ofDocument document data
    let filled := fillSheets options data start (before ++ sheet :: after)
    let table := (fillSheets options data start before).2
    let trace := fillTrace options data table filled.2 sheet
    ∃ strings document', Document.read filled.2.toPart.toXml = .ok strings ∧
      (filled.1[before.length]?).map FilledSheet.document = some document' ∧
      IsTrace sheet document' trace ∧
      ShowsExpected ((document.map sharedItems).getD []) data
        ((sharedItems strings).map visibleText) trace := by
  intro start filled table trace
  -- The sheet starts with the table that the sheets before it leave behind, and is read with the one
  -- that the sheets after it leave behind.
  have run : filled = _ := fillSheets_append options data start before (sheet :: after)
  have grown : start.GrowsTo filled.2 := growsTo_fillSheets ..
  have grownTable : start.GrowsTo table := growsTo_fillSheets ..
  have later : (fillSheet options data table sheet).2.GrowsTo filled.2 := by
    rw [run]
    exact growsTo_fillSheets ..
  have entries : table.entries =
      ((document.map sharedItems).getD []).map (Entry.ofItem data) := by
    rw [grownTable.entries]
    cases document with
    | none => rfl
    | some d => rfl
  have items : ∀ item ∈ (document.map sharedItems).getD [], PlainItem item := by
    intro item mem
    cases document with
    | none => cases mem
    | some d => exact (plain d rfl).plain item mem
  obtain ⟨strings, read, texts⟩ := StringTable.texts_read plain grown
  refine ⟨strings, (fillSheet options data table sheet).1.document, read, ?_,
    isTrace_fillTrace later, ?_⟩
  · rw [run, List.getElem?_append_right (by rw [length_fillSheets]), length_fillSheets,
      Nat.sub_self]
    rfl
  · rw [texts]
    exact showsExpected_fillTrace entries items later

/-- A sheet of one row. -/
def rowSheet (cells : List Node) : Document :=
  ⟨none, ⟨"worksheet", [],
    [.element ⟨"sheetData", [], [.element ⟨"row", [("r", "1")], cells⟩]⟩]⟩⟩

/-- A cell that points to a shared string. -/
def sharedCell (address index : String) : Node :=
  .element ⟨"c", [("r", address), ("t", "s")], [.element ⟨"v", [], [.text index]⟩]⟩

/-- A cell with a text of its own, after some other nodes. -/
def inlineCell (address text : String) (others : List Node) : Node :=
  .element ⟨"c", [("r", address), ("t", "inlineStr")],
    others ++ [.element ⟨"is", [], [.element ⟨"t", [], [.text text]⟩]⟩]⟩

/-- Items that are one placeholder, that have one among other text, and that have none. -/
def greetings : Document :=
  ⟨some "xml version=\"1.0\"", ⟨"sst", [("count", "3")],
    [.element ⟨"si", [], [.element ⟨"t", [], [.text "${name}"]⟩]⟩,
      .element ⟨"si", [], [.element ⟨"t", [], [.text "Hi ${name}", .cdata "!"]⟩]⟩,
      .element ⟨"si", [], [.element ⟨"t", [], [.text "a < b"]⟩, .element ⟨"rPh", [], []⟩]⟩]⟩⟩

/-- A text that looks like markup and like a placeholder. -/
def greetingData : Value := .mapping [("name", .text "<${name} & ]]>")]

theorem fillSheets_shows_greetings :
    let start := StringTable.ofDocument (some greetings) greetingData
    let sheet := rowSheet [sharedCell "A1" "0", sharedCell "B1" "1",
      inlineCell "C1" "${name}" []]
    let filled := fillSheets {} greetingData start ([sheet] ++ sheet :: [])
    (∀ d ∈ some greetings, PlainPart d) ∧
      filled.2.texts = ["${name}", "Hi <${name} & ]]>!", "a < b",
        "<${name} & ]]>"] ∧
      ∃ strings document', Document.read filled.2.toPart.toXml = .ok strings ∧
        (filled.1[1]?).map FilledSheet.document = some document' ∧
        IsTrace sheet document'
          (fillTrace {} greetingData (fillSheets {} greetingData start [sheet]).2 filled.2
            sheet) ∧
        ShowsExpected (sharedItems greetings) greetingData
          ((sharedItems strings).map visibleText)
          (fillTrace {} greetingData (fillSheets {} greetingData start [sheet]).2 filled.2
            sheet) := by
  intro start sheet filled
  have part : PlainPart greetings := by decide +kernel
  have plain : ∀ d ∈ some greetings, PlainPart d := by
    intro d same
    cases same
    exact part
  have texts : filled.2.texts = ["${name}", "Hi <${name} & ]]>!", "a < b",
      "<${name} & ]]>"] := by decide +kernel
  exact ⟨plain, texts, fillSheets_shows {} greetingData (some greetings) plain [sheet] sheet []⟩

/-- A formula in a cell with a text of its own. -/
def formulaSheet : Document :=
  rowSheet [inlineCell "A1" "${x}" [.element ⟨"f", [], [.text "1"]⟩]]

/-- A table of two rows next to a value that is no sequence. -/
def mixedTables : Document :=
  rowSheet [inlineCell "A1" "${table:xs}" [], inlineCell "B1" "${table:y}" []]

/-- A part with an element that has no name. -/
def namelessPart : Document :=
  ⟨none, ⟨"sst", [], [.element ⟨"si", [], [.element ⟨"t", [], [.text "x"]⟩]⟩,
    .element ⟨"", [], []⟩]⟩⟩

def tableData : Value :=
  .mapping [("x", .text "v"), ("xs", .sequence [.text "a", .text "b"]), ("y", .text "w")]

/-- What the cells of a sheet show after it was filled. -/
def shownAlone (sheet : Document) : List Shown :=
  let filled := fillSheet {} tableData (.ofDocument none tableData) sheet
  ((sheetRows filled.1.document).flatMap rowCells).map (shown filled.2.texts)

/-- Without the conditions it is not so: a formula keeps the placeholder in its cell's own text, the
one row of a table that is no sequence is not repeated, and a part with a name that cannot be
written is not read back. -/
theorem not_every_text_shown :
    shownAlone formulaSheet = [.text "${x}"] ∧
      expected tableData "${x}" 0 = [.text "v"] ∧
      shownAlone mixedTables = [.text "a", .text "w", .text "b", .nothing] ∧
      (tableData.resolve [.key "y"]).bind Value.cellContent? = some (.text "w") ∧
      Document.read "<sst><si><t>x</t></si><></></sst>" = .ok namelessPart ∧
      (∀ item ∈ sharedItems namelessPart, PlainItem item) ∧
      Document.read (StringTable.ofDocument (some namelessPart) tableData).toPart.toXml =
        .error (.markup (.wrongEnd "sst" "")) := by
  decide +kernel

end SheetFill
