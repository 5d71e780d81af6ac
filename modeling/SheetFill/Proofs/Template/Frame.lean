import SheetFill.Proofs.Template.Reread
import SheetFill.Proofs.Worksheet.Written

/-!
# What filling leaves alone

Filling writes some parts and leaves the others as they are, where they are (`fill_frame`). Which
parts it can write is known from the turns of the worksheets: a worksheet itself, and the workbook
part and the tables of a worksheet if it has insertions and the options ask for moved references.
Tables are looked up at the turn of their worksheet. They are tables of the template as well, unless
a list of relationships is a worksheet or a table and has names that are not ordinary.
-/

namespace SheetFill

open Xml

/-! ## Turns -/

/-- A worksheet at its turn. -/
structure Turn where
  /-- The template with the worksheets before it filled. -/
  filling : Filling
  /-- The worksheet. -/
  sheet : ListedSheet
  /-- Its document as it is read then. -/
  document : Document

namespace Turn

variable (options : FillOptions) (data : Value) (t : Turn)

/-- The worksheet after its turn. -/
def filled : FilledSheet := (fillSheet options data t.filling.strings t.document).1

/-- The package with the worksheet written. -/
def package : Package :=
  t.filling.package.write t.sheet.path (t.filled options data).document.toXml

/-- References to the worksheet move. -/
def Moves : Prop := options.moveRanges = true ∧ (t.filled options data).log.isEmpty = false

/-- The part at a path is a table that moves with the worksheet. -/
def MovesTable (path : String) : Prop :=
  t.Moves options data ∧
    ∃ tables, (t.package options data).tablePaths t.sheet.path = .ok tables ∧ path ∈ tables

end Turn

/-- The turns of worksheets that are filled one after another. -/
def Filling.turns (options : FillOptions) (data : Value) (f : Filling) : List ListedSheet → List Turn
  | [] => []
  | sheet :: sheets =>
      match f.package.document sheet.path, f.fillWorksheet options data sheet with
      | .ok d, .ok (f', _) => ⟨f, sheet, d⟩ :: f'.turns options data sheets
      | _, _ => []

/-- The turns of the worksheets of a template. -/
def Package.turns (template : Package) (options : FillOptions) (data : Value) : List Turn :=
  match template.templateSheets, Filling.start template data with
  | .ok sheets, .ok f => f.turns options data sheets
  | _, _ => []

theorem turns_cons {options : FillOptions} {data : Value} {f f' : Filling} {sheet : ListedSheet}
    {report : SheetSummary} {d : Document} (read : f.package.document sheet.path = .ok d)
    (filled : f.fillWorksheet options data sheet = .ok (f', report)) (sheets : List ListedSheet) :
    f.turns options data (sheet :: sheets) = ⟨f, sheet, d⟩ :: f'.turns options data sheets := by
  rw [Filling.turns, read, filled]

/-! ## Parts that stay -/

/-- A part became another one: only its bytes are different, and only if they may be. -/
structure Part.Becomes (may : String → Prop) (old new : Part) : Prop where
  /-- It has the same path. -/
  path : new.path = old.path
  /-- It is a folder if it was one. -/
  isFolder : new.isFolder = old.isFolder
  /-- It has the same bytes if they may not change. -/
  content : may old.path ∨ new.content = old.content

namespace Package

/-- A package has the parts of a template in their order, and those that may not change have the
same bytes. -/
def Keeps (may : String → Prop) (template p : Package) : Prop :=
  List.Forall₂ (Part.Becomes may) template.parts p.parts

theorem Keeps.refl (may : String → Prop) (template : Package) : template.Keeps may template :=
  List.forall₂_same.mpr fun _ _ => ⟨rfl, rfl, .inr rfl⟩

section Keeps

variable {may : String → Prop} {template p p' : Package} {path : String}

/-- What is the same for all parts of a path is the same for the first of them. -/
theorem Keeps.map_part? {α : Type} {f : Part → α} (keeps : Keeps may template p)
    (same : ∀ {old new}, old.path = path → Part.Becomes may old new → f new = f old) :
    (p.part? path).map f = (template.part? path).map f := by
  obtain ⟨old⟩ := template
  obtain ⟨new⟩ := p
  change List.Forall₂ (Part.Becomes may) old new at keeps
  change (new.find? (·.path == path)).map f = (old.find? (·.path == path)).map f
  induction keeps with
  | nil => rfl
  | @cons first first' rest rest' becomes _ ih =>
      rw [List.find?_cons, List.find?_cons, becomes.path]
      by_cases here : first.path = path
      · rw [beq_iff_eq.mpr here]
        exact congrArg some (same here becomes)
      · rw [beq_eq_false_iff_ne.mpr here]
        exact ih

theorem Keeps.contains (keeps : Keeps may template p) (path : String) :
    p.contains path = template.contains path := by
  have same : (p.part? path).map Part.path = (template.part? path).map Part.path :=
    keeps.map_part? fun _ becomes => becomes.path
  rw [Package.contains, Package.contains, ← Option.isSome_map, same, Option.isSome_map]

theorem bytes_eq (p : Package) (path : String) :
    p.bytes path = ((p.part? path).map Part.content).elim (.error (.missingPart path)) .ok := by
  rw [bytes]
  cases p.part? path <;> rfl

theorem Keeps.bytes (keeps : Keeps may template p) (still : ¬ may path) :
    p.bytes path = template.bytes path := by
  have same : (p.part? path).map Part.content = (template.part? path).map Part.content :=
    keeps.map_part? fun here becomes => becomes.content.resolve_left (here ▸ still)
  rw [bytes_eq, bytes_eq, same]

theorem Keeps.write (keeps : Keeps may template p) (here : p.contains path = true)
    (allowed : may path) (text : String) : Keeps may template (p.write path text) := by
  obtain ⟨old⟩ := template
  obtain ⟨new⟩ := p
  change List.Forall₂ (Part.Becomes may) old new at keeps
  change (new.find? (·.path == path)).isSome = true at here
  change List.Forall₂ (Part.Becomes may) old (writeIn path text.toUTF8 new)
  induction keeps with
  | nil => cases here
  | @cons first first' rest rest' becomes others ih =>
      rw [writeIn]
      split
      · rename_i found
        exact .cons ⟨becomes.path, becomes.isFolder, .inl (becomes.path ▸ found ▸ allowed)⟩ others
      · rename_i different
        refine .cons becomes (ih ?_)
        simpa [different] using here

/-- A part that is not there is written to the end. -/
theorem parts_write_of_not_contains (missing : p.contains path = false) (text : String) :
    (p.write path text).parts = p.parts ++ [⟨path, text.toUTF8, false⟩] := by
  obtain ⟨parts⟩ := p
  change (parts.find? (·.path == path)).isSome = false at missing
  change writeIn path text.toUTF8 parts = parts ++ [⟨path, text.toUTF8, false⟩]
  induction parts with
  | nil => rfl
  | cons part parts ih =>
      by_cases same : part.path = path
      · simp [same] at missing
      · rw [writeIn, if_neg same, ih (by simpa [same] using missing), List.cons_append]

/-! ## Parts that are written -/

theorem Keeps.adjustTablesAt (keeps : Keeps may template p) {log : InsertionLog}
    {paths : List String} (allowed : ∀ path ∈ paths, may path)
    (moved : p.adjustTablesAt log paths = .ok p') : Keeps may template p' := by
  induction paths generalizing p with
  | nil =>
      cases moved
      exact keeps
  | cons path paths ih =>
      obtain ⟨first, rest⟩ := List.forall_mem_cons.mp allowed
      obtain ⟨-, moved⟩ | ⟨text, d, found, -, moved⟩ := of_adjustTablesAt_cons moved
      · exact ih keeps rest moved
      · exact ih (keeps.write (contains_of_text? found) first _) rest moved

theorem Keeps.registerContentType (keeps : Keeps may template p) (types : may Workbook.typesPath)
    (registered : p.registerContentType = .ok p') : Keeps may template p' := by
  rw [Package.registerContentType] at registered
  obtain ⟨text, found, registered⟩ := exists_of_bind registered
  cases text with
  | none =>
      cases registered
      exact keeps
  | some text =>
      dsimp only at registered
      split at registered
      · cases registered
      · split at registered
        · cases registered
          exact keeps
        · cases registered
          exact keeps.write (contains_of_text? found) types _

theorem Keeps.registerRelationship (keeps : Keeps may template p)
    (relationships : may Workbook.relationshipsPath)
    (registered : p.registerRelationship = .ok p') : Keeps may template p' := by
  rw [Package.registerRelationship] at registered
  obtain ⟨text, found, registered⟩ := exists_of_bind registered
  cases text with
  | none =>
      cases registered
      exact keeps
  | some text =>
      dsimp only at registered
      obtain ⟨listed, -, registered⟩ := exists_of_bind registered
      split at registered
      · cases registered
        exact keeps
      · split at registered
        · cases registered
        · cases registered
          exact keeps.write (contains_of_text? found) relationships _

theorem Keeps.registerStrings (keeps : Keeps may template p) (types : may Workbook.typesPath)
    (relationships : may Workbook.relationshipsPath)
    (registered : p.registerStrings = .ok p') : Keeps may template p' := by
  obtain ⟨middle, first, second⟩ := exists_of_bind registered
  exact (keeps.registerContentType types first).registerRelationship relationships second

end Keeps

end Package

/-! ## Worksheet after worksheet -/

/-- A template that is being filled: its package keeps the parts of the template. -/
structure Filling.Keeps (may : String → Prop) (template : Package) (f : Filling) : Prop where
  /-- Parts that may not change have not. -/
  package : template.Keeps may f.package
  /-- There is a part for the table of strings if there was one. -/
  strings : f.strings.document.isSome = template.contains Workbook.stringsPath
  /-- There is a workbook part if there was one. -/
  workbook : f.workbook.isSome = true → template.contains Workbook.path = true
  /-- It has changed only if it may. -/
  changed : ∀ w ∈ f.workbook, w.changed = true → may Workbook.path

section Filling

variable {may : String → Prop} {template : Package} {options : FillOptions} {data : Value}
  {f f' : Filling}

theorem keeps_start (started : Filling.start template data = .ok f) : f.Keeps may template := by
  rw [Filling.start] at started
  obtain ⟨table, planned, started⟩ := exists_of_bind started
  obtain ⟨text, found, started⟩ := exists_of_bind started
  cases started
  refine ⟨.refl may template, ?_, fun here => ?_, fun w mem changed => ?_⟩
  · rw [Package.strings] at planned
    split at planned
    · rename_i here
      cases read : template.document Workbook.stringsPath with
      | error e =>
          rw [read] at planned
          cases planned
      | ok d =>
          rw [read] at planned
          cases planned
          exact here.symm
    · rename_i missing
      cases planned
      exact (Bool.eq_false_of_not_eq_true missing).symm
  · cases text with
    | none => cases here
    | some text => exact Package.contains_of_text? found
  · obtain ⟨text, -, rfl⟩ := Option.map_eq_some_iff.mp mem
    cases changed

/-- What may change when a worksheet has its turn. -/
structure Turn.Within (options : FillOptions) (data : Value) (may : String → Prop) (t : Turn) :
    Prop where
  /-- The worksheet. -/
  sheet : may t.sheet.path
  /-- The workbook part. -/
  workbook : t.Moves options data → may Workbook.path
  /-- The tables of the worksheet. -/
  tables : ∀ path, t.MovesTable options data path → may path

theorem Filling.Keeps.fillWorksheet {sheet : ListedSheet} {report : SheetSummary} {d : Document}
    (keeps : f.Keeps may template)
    (filled : f.fillWorksheet options data sheet = .ok (f', report))
    (read : f.package.document sheet.path = .ok d)
    (within : Turn.Within options data may ⟨f, sheet, d⟩) : f'.Keeps may template := by
  obtain ⟨d', done, table, read', run, strings, ends⟩ := of_fillWorksheet filled
  cases read.symm.trans read'
  have grown := growsTo_fillSheet options data f.strings d
  rw [run] at grown
  have sameStrings : f'.strings.document.isSome = template.contains Workbook.stringsPath := by
    rw [strings, grown.document, keeps.strings]
  obtain ⟨text, found, -⟩ := Package.exists_text?_of_document read
  have written := keeps.package.write (Package.contains_of_text? found) within.sheet
    done.document.toXml
  have same : (Turn.filled options data ⟨f, sheet, d⟩) = done := congrArg Prod.fst run
  rcases ends with ⟨package, workbook⟩ | ⟨asked, inserted, moved, workbook⟩
  · exact ⟨package ▸ written, sameStrings, workbook ▸ keeps.workbook, workbook ▸ keeps.changed⟩
  · have moves : Turn.Moves options data ⟨f, sheet, d⟩ := ⟨asked, same ▸ inserted⟩
    refine ⟨?_, sameStrings, workbook ▸ keeps.workbook, fun _ _ _ => within.workbook moves⟩
    rw [Package.adjustTables] at moved
    split at moved
    · cases moved
    · rename_i tables listed
      refine written.adjustTablesAt (fun path mem => ?_) moved
      exact within.tables path ⟨moves, tables, by rw [Turn.package, same]; exact listed, mem⟩

theorem Filling.Keeps.fillWorksheets {rest : List ListedSheet} {reports : List SheetSummary}
    (keeps : f.Keeps may template)
    (filled : f.fillWorksheets options data rest = .ok (f', reports))
    (within : ∀ t ∈ f.turns options data rest, t.Within options data may) :
    f'.Keeps may template := by
  induction rest generalizing f reports with
  | nil =>
      cases filled
      exact keeps
  | cons sheet rest ih =>
      rw [Filling.fillWorksheets] at filled
      obtain ⟨⟨f₁, report⟩, first, filled⟩ := exists_of_bind filled
      obtain ⟨⟨f₂, others⟩, later, same⟩ := exists_of_bind filled
      cases same
      obtain ⟨d, -, -, read, -⟩ := of_fillWorksheet first
      rw [turns_cons read first] at within
      obtain ⟨here, after⟩ := List.forall_mem_cons.mp within
      exact ih (keeps.fillWorksheet first read here) later after

/-- Only worksheets that are to be filled have a turn. -/
theorem mem_of_mem_turns {rest : List ListedSheet} {t : Turn}
    (turn : t ∈ f.turns options data rest) : t.sheet ∈ rest := by
  induction rest generalizing f with
  | nil => cases turn
  | cons sheet rest ih =>
      rw [Filling.turns] at turn
      split at turn
      · cases turn with
        | head => exact List.mem_cons_self ..
        | tail _ later => exact List.mem_cons_of_mem _ (ih later)
      · cases turn

/-- The tables that move are tables of the template, if lists of relationships that are written have
ordinary names. -/
theorem isTable_of_movesTable {sheets rest : List ListedSheet} {t : Turn} {path : String}
    (names : template.OrdinaryLists sheets)
    (keeps : ∀ sheet ∈ sheets, template.KeepsRelationships f.package sheet)
    (listed : ∀ sheet ∈ rest, sheet ∈ sheets) (turn : t ∈ f.turns options data rest)
    (moves : t.MovesTable options data path) : template.IsTable sheets path := by
  induction rest generalizing f with
  | nil => cases turn
  | cons sheet rest ih =>
      obtain ⟨mem, others⟩ := List.forall_mem_cons.mp listed
      rw [Filling.turns] at turn
      split at turn
      · rename_i d f₁ report read filled
        have written := fun other (mem' : other ∈ sheets) =>
          (keeps other mem').writeSheet names mem mem' read options data f.strings
        cases turn with
        | head =>
            obtain ⟨-, tables, found, inside⟩ := moves
            exact (written sheet mem).isTable mem found path inside
        | tail _ later =>
            refine ih (fun other mem' => ?_) others later
            obtain ⟨d', done, table, read', run, -, ends⟩ := of_fillWorksheet filled
            cases read.symm.trans read'
            rw [run] at written
            rcases ends with ⟨package, -⟩ | ⟨-, -, moved, -⟩
            · exact package ▸ written other mem'
            · rw [Package.adjustTables] at moved
              split at moved
              · cases moved
              · rename_i tables found
                have known := (written sheet mem).isTable mem found
                exact (written other mem').adjustTables names mem' known moved
      · cases turn

/-! ## The end -/

/-- The end of a run: at most the part for the strings is new, and it is the last one. -/
theorem Filling.Keeps.finish {p : Package} (keeps : f.Keeps may template)
    (finished : f.finish = .ok p) (strings : may Workbook.stringsPath)
    (lists : template.contains Workbook.stringsPath = false → 0 < f.strings.added.length →
      may Workbook.typesPath ∧ may Workbook.relationshipsPath) :
    ∃ kept, template.Keeps may kept ∧ (p = kept ∨
      template.contains Workbook.stringsPath = false ∧ 0 < f.strings.added.length ∧
        ∃ content, p.parts = kept.parts ++ [⟨Workbook.stringsPath, content, false⟩]) := by
  have ends {q : Package} (kept : template.Keeps may q) (last : (if f.strings.needsPart then do
      let q ← if q.contains Workbook.stringsPath then pure q else q.registerStrings
      pure (q.write Workbook.stringsPath f.strings.toPart.toXml)
    else pure q : Except PackageError Package) = .ok p) :
      ∃ kept, template.Keeps may kept ∧ (p = kept ∨
        template.contains Workbook.stringsPath = false ∧ 0 < f.strings.added.length ∧
          ∃ content, p.parts = kept.parts ++ [⟨Workbook.stringsPath, content, false⟩]) := by
    split at last
    · rename_i needed
      split at last
      · rename_i here
        cases last
        exact ⟨_, kept.write here strings _, .inl rfl⟩
      · rename_i missing
        obtain ⟨q', registered, last⟩ := exists_of_bind last
        cases last
        have absent : template.contains Workbook.stringsPath = false := by
          rw [← kept.contains]
          exact Bool.eq_false_of_not_eq_true missing
        have added : 0 < f.strings.added.length := by
          rw [StringTable.needsPart, keeps.strings, absent] at needed
          simpa [List.length_pos_iff] using needed
        obtain ⟨types, relationships⟩ := lists absent added
        have kept' := kept.registerStrings types relationships registered
        have missing' : q'.contains Workbook.stringsPath = false := by
          rw [kept'.contains, absent]
        exact ⟨q', kept', .inr ⟨absent, added, _,
          Package.parts_write_of_not_contains missing' _⟩⟩
    · cases last
      exact ⟨_, kept, .inl rfl⟩
  rw [Filling.finish] at finished
  refine ends ?_ finished
  split
  · rename_i text found
    have here : f.package.contains Workbook.path = true := by
      rw [keeps.package.contains]
      exact keeps.workbook (by rw [found]; rfl)
    exact keeps.package.write here (keeps.changed _ found rfl) _
  · exact keeps.package

end Filling

/-! ## The whole run -/

namespace Package

/-- The paths of the parts that can change when a template is filled. -/
inductive Changes (template : Package) (options : FillOptions) (data : Value)
    (report : FillReport) (sheets : List ListedSheet) : String → Prop where
  /-- A worksheet. -/
  | sheet {sheet : ListedSheet} (mem : sheet ∈ sheets) :
      Changes template options data report sheets sheet.path
  /-- The table of strings. -/
  | strings : Changes template options data report sheets Workbook.stringsPath
  /-- The workbook part, if references to a worksheet move. -/
  | workbook {t : Turn} (turn : t ∈ template.turns options data) (moves : t.Moves options data) :
      Changes template options data report sheets Workbook.path
  /-- A table that moves with its worksheet. -/
  | table {t : Turn} {path : String} (turn : t ∈ template.turns options data)
      (moves : t.MovesTable options data path) :
      Changes template options data report sheets path
  /-- The list of content types, if there is a first string. -/
  | types (absent : template.contains Workbook.stringsPath = false)
      (added : 0 < report.stringsAdded) :
      Changes template options data report sheets Workbook.typesPath
  /-- The relationships of the workbook part, if there is a first string. -/
  | relationships (absent : template.contains Workbook.stringsPath = false)
      (added : 0 < report.stringsAdded) :
      Changes template options data report sheets Workbook.relationshipsPath

/-- What is left alone when a template is filled. -/
structure Framed (template : Package) (options : FillOptions) (data : Value)
    (sheets : List ListedSheet) (filled : Package) (report : FillReport) : Prop where
  /-- All parts stay where they are, and only those that can change do. At most the part for the
  table of strings is new, at the end. -/
  parts : ∃ kept, template.Keeps (template.Changes options data report sheets) kept ∧
    (filled = kept ∨
      template.contains Workbook.stringsPath = false ∧ 0 < report.stringsAdded ∧
        ∃ content, filled.parts = kept.parts ++ [⟨Workbook.stringsPath, content, false⟩])
  /-- Tables that move are tables of the template. -/
  tables : template.OrdinaryLists sheets → ∀ t ∈ template.turns options data, ∀ path,
    t.MovesTable options data path → template.IsTable sheets path
  /-- Without insertions or without moved references the workbook part and the tables stay as they
  are, unless they are something else, too. -/
  still : (options.moveRanges = false ∨
      ∀ t ∈ template.turns options data, (t.filled options data).log.isEmpty = true) →
    ∀ path, path = Workbook.path ∨ template.IsTable sheets path →
      path ∉ sheets.map ListedSheet.path → path ≠ Workbook.stringsPath →
        path ≠ Workbook.typesPath → path ≠ Workbook.relationshipsPath →
          filled.bytes path = template.bytes path

variable {template filled : Package} {options : FillOptions} {data : Value} {report : FillReport}
  {sheets : List ListedSheet}

/-- A part that is new at the end is none of the others. -/
theorem bytes_of_parts_append {p kept : Package} {part : Part} {path : String}
    (parts : p.parts = kept.parts ++ [part]) (different : part.path ≠ path) :
    p.bytes path = kept.bytes path := by
  have same : p.part? path = kept.part? path := by
    rw [part?, part?, parts, List.find?_append]
    simp [different]
  rw [bytes, bytes, same]

theorem not_changes {path : String}
    (still : ∀ t ∈ template.turns options data, ¬ t.Moves options data)
    (noSheet : path ∉ sheets.map ListedSheet.path) (noStrings : path ≠ Workbook.stringsPath)
    (noTypes : path ≠ Workbook.typesPath) (noLists : path ≠ Workbook.relationshipsPath) :
    ¬ template.Changes options data report sheets path := by
  intro changes
  cases changes with
  | sheet mem => exact noSheet (List.mem_map_of_mem mem)
  | strings => exact noStrings rfl
  | workbook turn moves => exact still _ turn moves
  | table turn moves => exact still _ turn moves.1
  | types => exact noTypes rfl
  | relationships => exact noLists rfl

/-- Filling a template leaves all alone but the parts that it has to change. -/
theorem fill_frame (listed : template.templateSheets = .ok sheets)
    (run : template.fill options data = .ok (filled, report)) :
    template.Framed options data sheets filled report := by
  rw [fill, bind_of_ok listed] at run
  obtain ⟨f, started, run⟩ := exists_of_bind run
  obtain ⟨⟨f', reports⟩, worksheets, run⟩ := exists_of_bind run
  obtain ⟨p, finished, same⟩ := exists_of_bind run
  cases same
  have turns : template.turns options data = f.turns options data sheets := by
    rw [Package.turns, listed, started]
  have within : ∀ t ∈ f.turns options data sheets, t.Within options data
      (template.Changes options data ⟨reports, f'.strings.added.length⟩ sheets) := by
    intro t turn
    rw [← turns] at turn
    exact ⟨.sheet (mem_of_mem_turns (turns ▸ turn)), fun moves => .workbook turn moves,
      fun _ moves => .table turn moves⟩
  have keeps := (keeps_start started).fillWorksheets worksheets within
  obtain ⟨kept, stays, ends⟩ := keeps.finish finished .strings fun absent added =>
    ⟨.types absent added, .relationships absent added⟩
  refine ⟨⟨kept, stays, ends⟩, fun names t turn path moves => ?_,
    fun still path _ noSheet noStrings noTypes noLists => ?_⟩
  · rw [turns] at turn
    have package : f.package = template := by
      rw [Filling.start] at started
      obtain ⟨table, -, started⟩ := exists_of_bind started
      obtain ⟨text, -, started⟩ := exists_of_bind started
      cases started
      rfl
    exact isTable_of_movesTable names (fun _ _ => .untouched (by rw [package]))
      (fun _ mem => mem) turn moves
  · have noMoves : ∀ t ∈ template.turns options data, ¬ t.Moves options data := by
      rintro t turn ⟨asked, inserted⟩
      rcases still with off | empty
      · cases off.symm.trans asked
      · cases (empty t turn).symm.trans inserted
    have same := stays.bytes (not_changes noMoves noSheet noStrings noTypes noLists)
    rcases ends with rfl | ⟨-, -, content, parts⟩
    · exact same
    · rw [bytes_of_parts_append parts noStrings.symm, same]

/-- The table of the invoice moves, and the rest of its parts but the worksheet are left alone. -/
theorem fill_frame_invoice :
    invoice.templateSheets = .ok [⟨"Invoice", "xl/worksheets/sheet1.xml"⟩] ∧
      ∃ filled report,
        invoice.fill {} (.mapping [("items", .sequence [.text "pen", .text "<ink>"])]) =
          .ok (filled, report) ∧
        invoice.Framed {} (.mapping [("items", .sequence [.text "pen", .text "<ink>"])])
          [⟨"Invoice", "xl/worksheets/sheet1.xml"⟩] filled report := by
  generalize Value.mapping [("items", .sequence [.text "pen", .text "<ink>"])] = data
  have listed : invoice.templateSheets = .ok [⟨"Invoice", "xl/worksheets/sheet1.xml"⟩] := by
    rw [templateSheets, bind_of_ok usable_invoice.listed]
    rfl
  obtain ⟨f, started, ready⟩ := exists_start usable_invoice data
  obtain ⟨f', reports, filled, ready'⟩ :=
    ready.fillWorksheets usable_invoice {} data fun _ mem => mem
  obtain ⟨p, finished⟩ := ready'.finish
  have run := fill_of_ok listed started filled finished
  exact ⟨listed, p, _, run, fill_frame listed run⟩

end Package

end SheetFill
