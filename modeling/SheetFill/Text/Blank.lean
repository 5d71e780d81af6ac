/-!
# Blank characters

A blank is a character with the property White_Space. Blanks are cut from the ends of a text
(`trim`) and separate the words of a list (`words`). A text that is cut at single characters, such
as the steps of a path at `/`, is read by `fields`.
-/

namespace SheetFill.Text

/-- Whether a character has the property White_Space. -/
def isBlank (c : Char) : Bool :=
  let n := c.toNat
  (0x09 ≤ n && n ≤ 0x0D) || n == 0x20 || n == 0x85 || n == 0xA0 || n == 0x1680 ||
    (0x2000 ≤ n && n ≤ 0x200A) || n == 0x2028 || n == 0x2029 || n == 0x202F || n == 0x205F ||
    n == 0x3000

/-- The text from its first character that is not blank. -/
def trimStart (cs : List Char) : List Char := cs.dropWhile isBlank

/-- The text up to its last character that does not satisfy `p`. -/
def dropEndWhile (p : Char → Bool) (cs : List Char) : List Char := (cs.reverse.dropWhile p).reverse

/-- The text up to its last character that is not blank. -/
def trimEnd (cs : List Char) : List Char := dropEndWhile isBlank cs

/-- The text without blanks at either end. -/
def trim (cs : List Char) : List Char := trimEnd (trimStart cs)

/-- The pieces between the characters that satisfy `p`, empty ones included: one more than there
are such characters. -/
def fields (p : Char → Bool) : List Char → List (List Char)
  | [] => [[]]
  | c :: cs => if p c then [] :: fields p cs else (fields p cs).modifyHead (c :: ·)

/-- The maximal runs of characters that are not blank. -/
def words (cs : List Char) : List (List Char) := (fields isBlank cs).filter (!·.isEmpty)

/-- The texts one after another, with `separator` between neighbours. -/
def join (separator : List Char) (texts : List (List Char)) : List Char :=
  (texts.intersperse separator).flatten

/-- The rest of a text that starts with `start`. -/
def dropStart? (start : List Char) (cs : List Char) : Option (List Char) :=
  match start, cs with
  | [], cs => some cs
  | _ :: _, [] => none
  | s :: ss, c :: cs => if s = c then dropStart? ss cs else none

/-- The text with each occurrence of `old`, from left to right, replaced by `new`. -/
def replaceAll (old new cs : List Char) : List Char :=
  match cs with
  | [] => []
  | c :: rest =>
      match dropStart? old (c :: rest) with
      | some _ => new ++ replaceAll old new (rest.drop (old.length - 1))
      | none => c :: replaceAll old new rest
termination_by cs.length
decreasing_by
  · simp only [List.length_drop, List.length_cons]
    omega
  · simp

/-- The text before and the text after the first occurrence of `mark`. -/
def splitFirst? (mark : Char) : List Char → Option (List Char × List Char)
  | [] => none
  | c :: cs =>
      if c = mark then some ([], cs)
      else (splitFirst? mark cs).map fun (before, after) => (c :: before, after)

/-- The text before and the text after the last occurrence of `mark`. -/
def splitLast? (mark : Char) : List Char → Option (List Char × List Char)
  | [] => none
  | c :: cs =>
      match splitLast? mark cs with
      | some (before, after) => some (c :: before, after)
      | none => if c = mark then some ([], cs) else none

/-- How many bytes a text takes in UTF-8. -/
def byteLength (cs : List Char) : Nat := (cs.map Char.utf8Size).foldr (· + ·) 0

/-- Whether the first text comes before the second in the order of code points, which is also the
order of their bytes in UTF-8. -/
def precedes : List Char → List Char → Bool
  | _, [] => false
  | [], _ :: _ => true
  | a :: as, b :: bs => a.toNat < b.toNat || (a == b && precedes as bs)

example : words "  A1 B2:C3\t".toList = ["A1".toList, "B2:C3".toList] := by decide
example : fields (· == '/') "a//b/".toList = ["a".toList, [], "b".toList, []] := by decide
example : splitLast? '/' "xl/a/b".toList = some ("xl/a".toList, "b".toList) := by decide

end SheetFill.Text
