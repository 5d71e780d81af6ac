import SheetFill.CommandLine.Command
import SheetFill.CommandLine.Failure
import SheetFill.Json.Reader
import SheetFill.Template.Inventory

/-!
# Running commands

A command reads and writes through a terminal, which stands for the files and the standard streams.
`run` gives the exit code: 0, or 1 if the command failed, or 2 if its arguments are not understood.
-/

namespace SheetFill.CommandLine

/-- What a command reads from and writes to. -/
structure Terminal (m : Type → Type) extends FileAccess m where
  /-- The whole standard input. -/
  input : m (Except String ByteArray)
  /-- Write to the standard output. -/
  output : ByteArray → m (Except String Unit)
  /-- Write to the standard error output. -/
  report : String → m Unit

variable {m : Type → Type} [Monad m]

/-- What was read, or a failure with its reason as the cause. -/
def orFail {α : Type} (context : String) (action : m (Except String α)) : ExceptT Failure m α :=
  ExceptT.mk do
    let result ← action
    pure (result.mapError fun reason => ⟨context, [reason]⟩)

/-- A path or location in quotes. -/
def quoted (name : String) : String := "'" ++ name ++ "'"

/-- The bytes of the template at a location. -/
def loadTemplate (t : Terminal m) (location : String) : ExceptT Failure m ByteArray :=
  ExceptT.mk do
    let content ← (TemplateLocation.ofText location).retrieve t.toFileAccess
    pure (content.mapError fun e => ⟨"Failed to load " ++ quoted location, templateCauses e⟩)

/-- The data at a path, or on the standard input if the path is a dash. -/
def loadData (t : Terminal m) (path : String) : ExceptT Failure m Value := do
  let context := if path = "-" then "Failed to read data from stdin"
    else "Failed to read " ++ quoted path
  let content ← orFail context (if path = "-" then t.input else t.load path)
  match String.fromUTF8? content with
  | none => throw ⟨context, ["stream did not contain valid UTF-8"]⟩
  | some text => match Json.readData text with
    | .error fault => throw ⟨"Invalid JSON in " ++ quoted path, [fault.message text]⟩
    | .ok data => pure (Value.ofJson data)

/-- What is told about a filled template. -/
def reportText (r : FillReport) : String :=
  lines ((r.sheets.map fun s =>
      "  " ++ s.name ++ ": " ++ Text.Numeral.text s.rowsIn ++ " rows -> " ++
        Text.Numeral.text s.rowsOut ++ " rows") ++
    ["  " ++ Text.Numeral.text r.stringsAdded ++ " new shared strings"])

/-- Whether a path names the standard output: a dash, which may be followed by steps that stay in
place. -/
def isStandardOutput (path : String) : Bool :=
  match PartPath.steps path.toList with
  | step :: steps => step == ['-'] && steps.all fun step => step == [] || step == ['.']
  | [] => false

/-- Run `render`. -/
def runRender (t : Terminal m) (c : RenderCommand) : ExceptT Failure m Unit := do
  let template ← loadTemplate t c.template
  let data ← loadData t c.data
  let data := if c.parseDates then data.readDates else data
  let options : FillOptions :=
    { dropStoredResults := !c.keepFormulaValues, moveRanges := !c.noShiftRanges }
  match fillArchive template options data with
  | .error e => throw ⟨"Failed to render template", packageCauses e⟩
  | .ok (filled, report) => do
      if isStandardOutput c.output then orFail "Failed to write to stdout" (t.output filled)
      else do
        orFail ("Failed to write " ++ quoted c.output) (t.store c.output filled)
        t.report ("Wrote " ++ quoted c.output ++ "\n")
      if c.verbose then t.report (reportText report)

/-- Run `placeholders`. -/
def runPlaceholders (t : Terminal m) (location : String) : ExceptT Failure m Unit := do
  let template ← loadTemplate t location
  match Package.ofArchive template >>= Package.inventory with
  | .error e => throw ⟨"Failed to read template", packageCauses e⟩
  | .ok bodies => orFail "Failed to write to stdout" (t.output (lines bodies).toUTF8)

/-- Run a command. -/
def runCommand (t : Terminal m) : Command → ExceptT Failure m Unit
  | .render c => runRender t c
  | .placeholders location => runPlaceholders t location
  | .tell text => orFail "Failed to write to stdout" (t.output text.toUTF8)

/-- Run the program with its arguments. -/
def run (t : Terminal m) (args : List String) : m UInt32 := do
  match Command.read args with
  | .error e => do
      t.report e.report
      pure 2
  | .ok command => do
      match ← (runCommand t command).run with
      | .ok () => pure 0
      | .error failure => do
          t.report failure.report
          pure 1

end SheetFill.CommandLine
