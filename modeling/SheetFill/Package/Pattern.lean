/-!
# Patterns of paths

In a pattern `*` stands for any run of characters within one step of a path, so for none that holds
a `/`. Every other character stands for itself.
-/

namespace SheetFill.Pattern

/-- What can follow a run of characters without `/` at the start of a text, longest rest first. -/
def rests : List Char → List (List Char)
  | [] => [[]]
  | c :: cs => (c :: cs) :: if c = '/' then [] else rests cs

/-- Whether a text fits a pattern. -/
def fits : List Char → List Char → Bool
  | [], cs => cs.isEmpty
  | '*' :: pattern, cs => (rests cs).any (fits pattern)
  | _ :: _, [] => false
  | p :: pattern, c :: cs => p == c && fits pattern cs

example : fits "xl/worksheets/*.xml".toList "xl/worksheets/sheet1.xml".toList := by decide
example : ¬ fits "xl/worksheets/*.xml".toList "xl/worksheets/sub/sheet1.xml".toList := by decide
example : fits "a*b*c".toList "a-b-b-c".toList := by decide
example : ¬ fits "a*c".toList "abd".toList := by decide

end SheetFill.Pattern
