import SheetFill.Template.Fill

/-!
# The placeholders of a template

What a template asks for: the bodies of the placeholders in its shared strings and then in the
inline texts of its worksheets, each body once.
-/

namespace SheetFill

namespace Package

/-- The texts of the worksheets at some paths. -/
def cellTexts (p : Package) : List String → Except PackageError (List String)
  | [] => .ok []
  | path :: paths => do
      let document ← p.document path
      let texts ← p.cellTexts paths
      pure (SheetFill.cellTexts document ++ texts)

/-- The texts of the table of shared strings, if there is one. -/
def sharedTexts (p : Package) : Except PackageError (List String) :=
  if p.contains Workbook.stringsPath then
    (p.document Workbook.stringsPath).map fun d =>
      (d.root.elements.filter fun e => e.name == "si").map visibleText
  else .ok []

/-- The bodies of all placeholders, each once and in the order of the template. -/
def inventory (template : Package) : Except PackageError (List String) := do
  let sheets ← template.templateSheets
  let shared ← template.sharedTexts
  let inlined ← template.cellTexts (sheets.map ListedSheet.path)
  pure ((shared ++ inlined).flatMap Placeholder.bodies).eraseDups

end Package

end SheetFill
