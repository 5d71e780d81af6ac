import SheetFill.Json.Error
import SheetFill.Template.Location

/-!
# Reports of failures

A failure says what was being done and then the causes, each the reason of the one before. Several
causes are numbered from zero, in a column of five places, and further lines of a cause are indented
as far as its first one.
-/

namespace SheetFill.CommandLine

/-- A command that failed. -/
structure Failure where
  /-- What was being done. -/
  context : String
  /-- The causes, nearest first. -/
  causes : List String
deriving DecidableEq

/-- A cause with `first` before its first line and as many blanks before the others. -/
def indented (first : List Char) (cause : String) : List Char :=
  let margin := '\n' :: List.replicate first.length ' '
  first ++ cause.toList.flatMap fun c => if c = '\n' then margin else [c]

/-- The number of a cause in its column. -/
def causeNumber (n : Nat) : List Char :=
  let digits := Text.Numeral.write n
  List.replicate (5 - digits.length) ' ' ++ digits ++ [':', ' ']

/-- The causes as they are listed. -/
def causeLines (causes : List String) : List (List Char) :=
  match causes with
  | [cause] => [indented (List.replicate 4 ' ') cause]
  | _ => causes.zipIdx.map fun (cause, n) => indented (causeNumber n) cause

/-- The report of a failure. -/
def Failure.report (f : Failure) : String :=
  "Error: " ++ f.context ++
    (if f.causes.isEmpty then "" else "\n\nCaused by:") ++
    String.join ((causeLines f.causes).map fun line => "\n" ++ String.ofList line) ++ "\n"

/-! ## Causes -/

/-- A fault in markup and the reasons that it has of its own. -/
def markupCauses (e : Xml.Error) : List String :=
  match e with
  | .badAttribute fault => [e.message, fault.message]
  | .badEscape fault => [e.message, fault.message]
  | _ => [e.message]

/-- An error of a package and the reasons that it has of its own. -/
def packageCauses (e : PackageError) : List String :=
  match e with
  | .noArchive => [e.message, PackageError.archiveMessage]
  | .badXml (.markup fault) => e.message :: markupCauses fault
  | _ => [e.message]

/-- An error of a template and the reasons that it has of its own. -/
def templateCauses (e : TemplateError) : List String :=
  match e with
  | .package e => packageCauses e
  | .unreadable .. => [e.message]
  | .unwritable _ reason => [e.message, reason]

end SheetFill.CommandLine
