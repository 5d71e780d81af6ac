import SheetFill.InsertionLog.Basic
import SheetFill.Text.Letter

/-!
# References to a sheet inside a formula

A formula is cut into parts (`parts`): references behind the name of a sheet and a `!`, and all
else. The name is a word or stands in single quotes; what follows the `!` is the longest run of
letters, digits, `$` and `:`. Text in double quotes is never looked into. Nothing is lost by the
cut, and moving the references to one sheet changes only those parts.
-/

namespace SheetFill.Formula

/-- A part of a formula. -/
inductive Part where
  /-- Text that refers to no sheet. -/
  | plain (text : List Char)
  /-- The name of a sheet as it is written, the name that is meant, and what follows the `!`. A
  quote that is not closed names nothing. -/
  | qualified (written : List Char) (name : Option (List Char)) (reference : List Char)
deriving DecidableEq

/-- Whether a character may start the name of a sheet without quotes. -/
def startsName (c : Char) : Bool := Text.isLetterOrNumber c || c == '_'

/-- Whether a character may stand in the name of a sheet without quotes. -/
def inName (c : Char) : Bool := startsName c || c == '.'

/-- Whether a character may stand in a reference. -/
def inReference (c : Char) : Bool := c.isAlphanum || c == '$' || c == ':'

/-- The rest of a text in double quotes, with its last quote, and what follows. A quote written
twice does not end the text. -/
def closeString : List Char → List Char × List Char
  | [] => ([], [])
  | '"' :: '"' :: cs =>
      let (inside, rest) := closeString cs
      ('"' :: '"' :: inside, rest)
  | '"' :: cs => (['"'], cs)
  | c :: cs =>
      let (inside, rest) := closeString cs
      (c :: inside, rest)

/-- The rest of a name in single quotes: as it is written, as it is meant, and what follows. A quote
written twice is meant once; without a last quote no name is meant. -/
def closeName : List Char → List Char × Option (List Char) × List Char
  | [] => ([], none, [])
  | '\'' :: '\'' :: cs =>
      let (written, name, rest) := closeName cs
      ('\'' :: '\'' :: written, name.map ('\'' :: ·), rest)
  | '\'' :: cs => (['\''], some [], cs)
  | c :: cs =>
      let (written, name, rest) := closeName cs
      (c :: written, name.map (c :: ·), rest)

theorem length_closeString_le (cs : List Char) : (closeString cs).2.length ≤ cs.length := by
  fun_induction closeString cs <;> simp_all <;> omega

theorem length_closeName_le (cs : List Char) : (closeName cs).2.2.length ≤ cs.length := by
  fun_induction closeName cs <;> simp_all <;> omega

/-- The part that a name begins, and what follows it: a reference if a `!` comes next. -/
def afterName (written : List Char) (name : Option (List Char)) :
    List Char → Part × List Char
  | '!' :: cs => (.qualified written name (cs.takeWhile inReference), cs.dropWhile inReference)
  | cs => (.plain written, cs)

theorem length_afterName_le (written : List Char) (name : Option (List Char)) (cs : List Char) :
    (afterName written name cs).2.length ≤ cs.length := by
  unfold afterName
  split
  · rename_i cs'
    have := (List.dropWhile_suffix inReference (l := cs')).length_le
    simp only [List.length_cons]
    omega
  · exact Nat.le_refl _

/-- The first part of a formula that starts with `c`, and what follows it. -/
def firstPart (c : Char) (cs : List Char) : Part × List Char :=
  if c = '"' then
    let (inside, rest) := closeString cs
    (.plain (c :: inside), rest)
  else if c = '\'' then
    let (written, name, rest) := closeName cs
    afterName (c :: written) name rest
  else if startsName c then
    let word := c :: cs.takeWhile inName
    afterName word (some word) (cs.dropWhile inName)
  else (.plain [c], cs)

theorem length_firstPart_le (c : Char) (cs : List Char) :
    (firstPart c cs).2.length ≤ cs.length := by
  unfold firstPart
  split
  · exact length_closeString_le cs
  · split
    · exact Nat.le_trans (length_afterName_le ..) (length_closeName_le cs)
    · split
      · exact Nat.le_trans (length_afterName_le ..) (List.dropWhile_suffix inName).length_le
      · exact Nat.le_refl _

/-- The parts of a formula. -/
def parts : List Char → List Part
  | [] => []
  | c :: cs => (firstPart c cs).1 :: parts (firstPart c cs).2
termination_by cs => cs.length
decreasing_by exact Nat.lt_succ_of_le (length_firstPart_le c cs)

/-- A part as it is written. -/
def Part.chars : Part → List Char
  | .plain text => text
  | .qualified written _ reference => written ++ '!' :: reference

/-- Whether two names of sheets are the same but for the case of Latin letters. -/
def sameName (a b : List Char) : Bool := a.map Char.toLower == b.map Char.toLower

/-- A part with its reference moved if it is a range of the given sheet. -/
def Part.adjusted (log : InsertionLog) (sheet : List Char) : Part → Part
  | .plain text => .plain text
  | .qualified written name reference =>
      if name.any (sameName sheet) then .qualified written name (log.adjustItem reference)
      else .qualified written name reference

end SheetFill.Formula

namespace SheetFill.InsertionLog

/-- A formula with all its references to a sheet moved. -/
def adjustFormula (log : InsertionLog) (formula sheet : String) : String :=
  String.ofList ((Formula.parts formula.toList).flatMap fun part =>
    (part.adjusted log sheet.toList).chars)

end SheetFill.InsertionLog
