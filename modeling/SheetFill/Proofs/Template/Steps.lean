import SheetFill.Proofs.Package.Parts
import SheetFill.Template.Fill

/-!
# Steps that succeed

A template is filled step by step: the table of strings is planned, each worksheet is filled, its
tables are written again, and in the end there is a package. For each of these there is a lemma that
says what it leads to if the steps that it is made of succeed.
-/

namespace SheetFill

open Xml

/-! ## Tables -/

namespace Package

variable {p : Package} {log : InsertionLog} {path text : String} {paths : List String}

/-- A table that is there is written with its range moved. -/
theorem adjustTablesAt_found {d : Document} (found : p.text? path = .ok (some text))
    (read : Document.read text = .ok d) :
    p.adjustTablesAt log (path :: paths) =
      (p.write path (adjustTable log d).toXml).adjustTablesAt log paths := by
  rw [adjustTablesAt, found]
  dsimp only
  rw [read]

theorem adjustTablesAt_missing (missing : p.text? path = .ok none) :
    p.adjustTablesAt log (path :: paths) = p.adjustTablesAt log paths := by
  rw [adjustTablesAt, missing]

/-- A table that is listed is missing, or it can be read and is written with its range moved. -/
theorem of_adjustTablesAt_cons {p' : Package}
    (moved : p.adjustTablesAt log (path :: paths) = .ok p') :
    (p.text? path = .ok none ∧ p.adjustTablesAt log paths = .ok p') ∨
      ∃ text d, p.text? path = .ok (some text) ∧ Document.read text = .ok d ∧
        (p.write path (adjustTable log d).toXml).adjustTablesAt log paths = .ok p' := by
  rw [adjustTablesAt] at moved
  split at moved
  · cases moved
  · rename_i missing
    exact .inl ⟨missing, moved⟩
  · rename_i text found
    split at moved
    · cases moved
    · rename_i d read
      exact .inr ⟨text, d, found, read, moved⟩

theorem adjustTables_of_tablePaths {sheet : String} (found : p.tablePaths sheet = .ok paths) :
    p.adjustTables sheet log = p.adjustTablesAt log paths := by
  rw [adjustTables, found]

end Package

/-! ## Worksheets -/

section Steps

variable {options : FillOptions} {data : Value} {template p p' : Package}
  {table table' : StringTable}

theorem start_of_text? {text : Option String} (planned : template.strings data = .ok table)
    (found : template.text? Workbook.path = .ok text) :
    Filling.start template data =
      .ok ⟨template, table, text.map fun text => ⟨text, false⟩⟩ := by
  rw [Filling.start, bind_of_ok planned, bind_of_ok found]
  rfl

section Worksheet

variable {sheet : ListedSheet} {d : Document} {filled : FilledSheet}

/-- A worksheet without insertions is written, and nothing else is. -/
theorem fillWorksheet_of_isEmpty {workbook : Option WorkbookText}
    (read : p.document sheet.path = .ok d)
    (run : fillSheet options data table d = (filled, table'))
    (still : filled.log.isEmpty = true) :
    Filling.fillWorksheet options data ⟨p, table, workbook⟩ sheet =
      .ok (⟨p.write sheet.path filled.document.toXml, table', workbook⟩,
        ⟨sheet.name, sheet.path, filled.rowsIn, filled.rowsOut⟩) := by
  rw [Filling.fillWorksheet, bind_of_ok read]
  dsimp only
  rw [run, still, Bool.not_true, Bool.and_false, if_neg Bool.false_ne_true]
  rfl

/-- Without a workbook part only the tables of a worksheet refer to it. -/
theorem fillWorksheet_of_adjustTables (moves : options.moveRanges = true)
    (read : p.document sheet.path = .ok d)
    (run : fillSheet options data table d = (filled, table'))
    (grown : filled.log.isEmpty = false)
    (moved : (p.write sheet.path filled.document.toXml).adjustTables sheet.path filled.log =
      .ok p') :
    Filling.fillWorksheet options data ⟨p, table, none⟩ sheet =
      .ok (⟨p', table', none⟩, ⟨sheet.name, sheet.path, filled.rowsIn, filled.rowsOut⟩) := by
  have references : Filling.moveReferences
      ⟨p.write sheet.path filled.document.toXml, table', none⟩ sheet filled.log =
        .ok ⟨p', table', none⟩ := by
    rw [Filling.moveReferences]
    exact bind_of_ok moved _
  rw [Filling.fillWorksheet, bind_of_ok read]
  dsimp only
  rw [run, moves, grown, Bool.not_false, Bool.and_self, if_pos rfl]
  exact bind_of_ok references _

end Worksheet

variable {f f' f'' : Filling} {sheet : ListedSheet} {sheets : List ListedSheet}
  {report : SheetSummary} {reports : List SheetSummary}

theorem fillWorksheets_nil (options : FillOptions) (data : Value) (f : Filling) :
    f.fillWorksheets options data [] = .ok (f, []) := rfl

theorem fillWorksheets_cons (first : f.fillWorksheet options data sheet = .ok (f', report))
    (rest : f'.fillWorksheets options data sheets = .ok (f'', reports)) :
    f.fillWorksheets options data (sheet :: sheets) = .ok (f'', report :: reports) := by
  rw [Filling.fillWorksheets, bind_of_ok first]
  exact bind_of_ok rest _

/-- If all steps succeed, then filling does. -/
theorem Package.fill_of_ok (listed : template.templateSheets = .ok sheets)
    (started : Filling.start template data = .ok f)
    (filled : f.fillWorksheets options data sheets = .ok (f', reports))
    (finished : f'.finish = .ok p) :
    template.fill options data = .ok (p, ⟨reports, f'.strings.added.length⟩) := by
  rw [fill, bind_of_ok listed, bind_of_ok started, bind_of_ok filled]
  exact bind_of_ok finished _

/-! ## What is behind a result -/

theorem of_moveReferences {log : InsertionLog} (moved : f.moveReferences sheet log = .ok f') :
    f'.strings = f.strings ∧ f.package.adjustTables sheet.path log = .ok f'.package ∧
      f'.workbook.isSome = f.workbook.isSome := by
  rw [Filling.moveReferences] at moved
  have ends {workbook : Option WorkbookText} (last : (do
      let package ← f.package.adjustTables sheet.path log
      pure { f with package := package, workbook := workbook } : Except PackageError Filling) =
        .ok f') : f'.strings = f.strings ∧
          f.package.adjustTables sheet.path log = .ok f'.package ∧ f'.workbook = workbook := by
    obtain ⟨package, tables, same⟩ := exists_of_bind last
    cases same
    exact ⟨rfl, tables, rfl⟩
  split at moved
  · rename_i noWorkbook
    obtain ⟨strings, tables, workbook⟩ := ends moved
    exact ⟨strings, tables, by rw [workbook, noWorkbook]⟩
  · rename_i w found
    obtain ⟨workbook, renamed, last⟩ := exists_of_bind moved
    obtain ⟨strings, tables, same⟩ := ends last
    refine ⟨strings, tables, ?_⟩
    cases adjusted : w.adjust log sheet.name with
    | error e =>
        rw [adjusted] at renamed
        cases renamed
    | ok w' =>
        rw [adjusted] at renamed
        cases renamed
        rw [same, found, Option.isSome_some, Option.isSome_some]

/-- A worksheet that was filled is written, and then the references to it move if it has insertions
and the options ask for that. -/
theorem of_fillWorksheet (filled : f.fillWorksheet options data sheet = .ok (f', report)) :
    ∃ d done table, f.package.document sheet.path = .ok d ∧
      fillSheet options data f.strings d = (done, table) ∧ f'.strings = table ∧
      let p := f.package.write sheet.path done.document.toXml
      (f'.package = p ∧ f'.workbook = f.workbook) ∨
        (options.moveRanges = true ∧ done.log.isEmpty = false ∧
          p.adjustTables sheet.path done.log = .ok f'.package ∧
          f'.workbook.isSome = f.workbook.isSome) := by
  rw [Filling.fillWorksheet] at filled
  obtain ⟨d, read, filled⟩ := exists_of_bind filled
  refine ⟨d, _, _, read, rfl, ?_⟩
  dsimp only at filled
  split at filled
  · rename_i moves
    rw [Bool.and_eq_true, Bool.not_eq_true'] at moves
    obtain ⟨f₁, moved, last⟩ := exists_of_bind filled
    cases last
    obtain ⟨strings, tables, workbook⟩ := of_moveReferences moved
    exact ⟨strings, .inr ⟨moves.1, moves.2, tables, workbook⟩⟩
  · cases filled
    exact ⟨rfl, .inl ⟨rfl, rfl⟩⟩

end Steps

end SheetFill
