import SheetFill.Text.Blank

/-!
# Paths of parts

The parts of a package have paths whose steps are separated by `/`. A part refers to another one by
a target: from the top of the package if it starts with `/`, and from the folder of the part
otherwise. There `.` and empty steps stay in place and `..` goes one folder up, at the top nowhere.
-/

namespace SheetFill.PartPath

/-- The steps of a path or target, empty ones included. -/
def steps (path : List Char) : List (List Char) := Text.fields (· == '/') path

/-- The steps of a folder as a place to start from. -/
def place (folder : List Char) : List (List Char) := (steps folder).filter (!·.isEmpty)

/-- The place after one step of a target. -/
def follow (place : List (List Char)) (step : List Char) : List (List Char) :=
  if step = [] ∨ step = ['.'] then place
  else if step = ['.', '.'] then place.dropLast
  else place ++ [step]

/-- The path that a target names, seen from a folder. -/
def resolve (folder target : String) : String :=
  match target.toList with
  | '/' :: path => String.ofList path
  | target =>
      String.ofList (Text.join ['/'] ((steps target).foldl follow (place folder.toList)))

/-- The folder of a path, empty at the top. -/
def folder (path : String) : String :=
  match Text.splitLast? '/' path.toList with
  | some (folder, _) => String.ofList folder
  | none => ""

/-- The last step of a path. -/
def file (path : String) : String :=
  match Text.splitLast? '/' path.toList with
  | some (_, file) => String.ofList file
  | none => path

/-- The last step of a path, up to its last dot. -/
def stem (path : String) : String :=
  match Text.splitLast? '.' (file path).toList with
  | some (stem, _) => String.ofList stem
  | none => file path

/-- The path of the part that lists the relationships of a part. -/
def relationships (path : String) : String :=
  match Text.splitLast? '/' path.toList with
  | some (folder, file) => String.ofList folder ++ "/_rels/" ++ String.ofList file ++ ".rels"
  | none => "_rels/" ++ path ++ ".rels"

example : resolve "xl/worksheets" "../tables/table1.xml" = "xl/tables/table1.xml" := by decide
example : resolve "xl" "../../../a" = "a" := by decide
example : resolve "xl" "//a" = "/a" := by decide
example : stem "xl/worksheets/a.b.xml" = "a.b" := by decide
example : relationships "xl/workbook.xml" = "xl/_rels/workbook.xml.rels" := by decide

end SheetFill.PartPath
