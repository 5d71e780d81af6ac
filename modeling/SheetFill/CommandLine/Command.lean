import SheetFill.CommandLine.Arguments

/-!
# The commands

`render` fills a template with data, and `placeholders` lists what a template asks for. `help`, `-h`
and `--help` show how they are used, `-V` and `--version` the version.
-/

namespace SheetFill.CommandLine

/-- What `render` is asked to do. -/
structure RenderCommand where
  /-- The location of the template. -/
  template : String
  /-- The path of the data, or a dash for the standard input. -/
  data : String
  /-- The path of the result, or a dash for the standard output. -/
  output : String
  /-- Whether texts in the data that spell dates become dates. -/
  parseDates : Bool
  /-- Whether formulas keep their stored results. -/
  keepFormulaValues : Bool
  /-- Whether ranges stay where they are. -/
  noShiftRanges : Bool
  /-- Whether the result is told about. -/
  verbose : Bool
deriving DecidableEq

/-- What the program is asked to do. -/
inductive Command where
  /-- Fill a template. -/
  | render (c : RenderCommand)
  /-- List the placeholders of a template. -/
  | placeholders (template : String)
  /-- Show a text. -/
  | tell (text : String)
deriving DecidableEq

/-! ## Forms -/

/-- What `render` takes. -/
def renderForm : CommandForm :=
  ⟨["TEMPLATE", "DATA"],
    [⟨"output", some 'o', some "OUTPUT", true⟩, ⟨"parse-dates", none, none, false⟩,
      ⟨"keep-formula-values", none, none, false⟩, ⟨"no-shift-ranges", none, none, false⟩,
      ⟨"verbose", some 'v', none, false⟩]⟩

/-- What `placeholders` takes. -/
def placeholdersForm : CommandForm := ⟨["TEMPLATE"], []⟩

/-! ## Texts -/

/-- How the program is used. -/
def mainUsage : String := "Usage: stencil <COMMAND>"

/-- How `render` is used. -/
def renderUsage : String := "Usage: stencil render [OPTIONS] --output <OUTPUT> <TEMPLATE> <DATA>"

/-- How `placeholders` is used. -/
def placeholdersUsage : String := "Usage: stencil placeholders <TEMPLATE>"

/-- Lines with a line feed after each. -/
def lines (texts : List String) : String := String.join (texts.map (· ++ "\n"))

/-- The help of the program. -/
def mainHelp : String := lines [
  "Fill XLSX templates with JSON data",
  "",
  mainUsage,
  "",
  "Commands:",
  "  render        Render a template with data from a JSON file",
  "  placeholders  List the placeholders used in a template",
  "  help          Print this message or the help of the given subcommand(s)",
  "",
  "Options:",
  "  -h, --help     Print help",
  "  -V, --version  Print version"]

/-- The help of `render`. -/
def renderHelp : String := lines [
  "Render a template with data from a JSON file",
  "",
  renderUsage,
  "",
  "Arguments:",
  "  <TEMPLATE>  Template workbook (path or, with the \x60remote\x60 feature, http(s) URL)",
  "  <DATA>      JSON data file (\"-\" reads stdin)",
  "",
  "Options:",
  "  -o, --output <OUTPUT>      Output workbook (\"-\" writes stdout)",
  "      --parse-dates          Turn ISO-8601 date strings in the data into dates",
  "      --keep-formula-values  Keep cached values of formula cells",
  "      --no-shift-ranges      Leave merged cells, names and tables where they are",
  "  -v, --verbose              Print per-sheet statistics",
  "  -h, --help                 Print help"]

/-- The help of `placeholders`. -/
def placeholdersHelp : String := lines [
  "List the placeholders used in a template",
  "",
  placeholdersUsage,
  "",
  "Arguments:",
  "  <TEMPLATE>  Template workbook",
  "",
  "Options:",
  "  -h, --help  Print help"]

/-- The help of `help`. -/
def helpHelp : String := lines [
  "Print this message or the help of the given subcommand(s)",
  "",
  "Usage: stencil help [COMMAND]...",
  "",
  "Arguments:",
  "  [COMMAND]...  Print help for the subcommand(s)"]

/-- The name of the program and its version. -/
def version : String := "stencil 0.1.0\n"

/-! ## Reading commands -/

namespace Command

/-- The command that the arguments of `render` ask for. -/
def ofRenderArguments (a : Arguments) : Command :=
  .render
    { template := a.places[0]?.getD ""
      data := a.places[1]?.getD ""
      output := (a.value? "output").getD ""
      parseDates := a.has "parse-dates"
      keepFormulaValues := a.has "keep-formula-values"
      noShiftRanges := a.has "no-shift-ranges"
      verbose := a.has "verbose" }

/-- The command that the arguments of `placeholders` ask for. -/
def ofPlaceholdersArguments (a : Arguments) : Command := .placeholders (a.places[0]?.getD "")

/-- Read the arguments of a command; if they ask for help, the command is to show it. -/
def orHelp (form : CommandForm) (help : String) (command : Arguments → Command)
    (args : List String) : Except UsageError Command :=
  match Arguments.read form args with
  | .ok a => .ok (command a)
  | .error .help => .ok (.tell help)
  | .error (.mistake e) => .error e

/-- The help that `help` shows. -/
def readHelp : List String → Except UsageError Command
  | [] => .ok (.tell mainHelp)
  | ["render"] => .ok (.tell renderHelp)
  | ["placeholders"] => .ok (.tell placeholdersHelp)
  | ["help"] => .ok (.tell helpHelp)
  | "render" :: name :: _ | "placeholders" :: name :: _ | "help" :: name :: _ | name :: _ =>
      .error (.unknownCommand name)

/-- Read an option in front of the command. -/
def readOption (arg : String) : Except UsageError Command :=
  match arg.toList with
  | '-' :: 'h' :: _ => .ok (.tell mainHelp)
  | '-' :: 'V' :: _ => .ok (.tell version)
  | _ =>
      if arg = "--help" then .ok (.tell mainHelp)
      else if arg = "--version" then .ok (.tell version)
      else .error (.unexpected arg)

/-- Read a command and its arguments. -/
def read : List String → Except UsageError Command
  | [] => .error .noCommand
  | "render" :: args => orHelp renderForm renderHelp ofRenderArguments args
  | "placeholders" :: args => orHelp placeholdersForm placeholdersHelp ofPlaceholdersArguments args
  | "help" :: args => readHelp args
  | arg :: _ =>
      if Arguments.isOption arg then readOption arg else .error (.unknownCommand arg)

end Command

/-- What is said of a mistake. With no arguments at all it is the help. -/
def UsageError.report : UsageError → String
  | .noCommand => mainHelp
  | e =>
      "error: " ++ e.message ++ "\n\n" ++ mainUsage ++ "\n\nFor more information, try '--help'.\n"

end SheetFill.CommandLine
