import SheetFill.Text.Blank
import SheetFill.Text.Numeral

/-!
# What can be wrong with JSON text

A fault is found at a place of the text, which is told as a line, from one, and a number of bytes in
it. Where a fault is that a byte does not fit, that byte counts as well.
-/

namespace SheetFill.Json

/-- Why a text is no JSON value. -/
inductive Cause where
  /-- The text ends where a value should stand, or within one. -/
  | endInValue
  /-- The text ends within a string. -/
  | endInString
  /-- The text ends within an array. -/
  | endInArray
  /-- The text ends within an object. -/
  | endInObject
  /-- A key is not followed by a colon. -/
  | noColon
  /-- An item of an array is followed by neither a comma nor the end. -/
  | noCommaInArray
  /-- A field of an object is followed by neither a comma nor the end. -/
  | noCommaInObject
  /-- The last item of an array or the last field of an object is followed by a comma. -/
  | trailingComma
  /-- A key is no string. -/
  | keyNotString
  /-- Something follows the value. -/
  | trailingText
  /-- No value starts here. -/
  | noValue
  /-- A literal is misspelled. -/
  | badLiteral
  /-- A number is misspelled. -/
  | badNumber
  /-- A number is too large. -/
  | hugeNumber
  /-- A string holds a control character. -/
  | controlCharacter
  /-- A string holds an unknown escape. -/
  | badEscape
  /-- The first half of a pair of escapes is not followed by an escape. -/
  | brokenPair
  /-- Half of a pair of escapes stands alone. -/
  | loneSurrogate
  /-- There are too many arrays and objects inside each other. -/
  | tooDeep
deriving DecidableEq

/-- The wording of a cause. -/
def Cause.message : Cause → String
  | .endInValue => "EOF while parsing a value"
  | .endInString => "EOF while parsing a string"
  | .endInArray => "EOF while parsing a list"
  | .endInObject => "EOF while parsing an object"
  | .noColon => "expected \x60:\x60"
  | .noCommaInArray => "expected \x60,\x60 or \x60]\x60"
  | .noCommaInObject => "expected \x60,\x60 or \x60\x7d\x60"
  | .trailingComma => "trailing comma"
  | .keyNotString => "key must be a string"
  | .trailingText => "trailing characters"
  | .noValue => "expected value"
  | .badLiteral => "expected ident"
  | .badNumber => "invalid number"
  | .hugeNumber => "number out of range"
  | .controlCharacter => "control character (\\u0000-\\u001F) found while parsing a string"
  | .badEscape => "invalid escape"
  | .brokenPair => "unexpected end of hex escape"
  | .loneSurrogate => "lone leading surrogate in hex escape"
  | .tooDeep => "recursion limit exceeded"

/-- A fault, and how many bytes of the text follow its place. -/
structure Fault where
  /-- What is wrong. -/
  cause : Cause
  /-- How many bytes follow. -/
  left : Nat
deriving DecidableEq

namespace Fault

/-- A fault before the rest of a text. -/
def before (rest : List Char) (cause : Cause) : Fault := ⟨cause, Text.byteLength rest⟩

/-- A fault in the first byte of the rest of a text. -/
def within (rest : List Char) (cause : Cause) : Fault := ⟨cause, Text.byteLength rest - 1⟩

/-- A fault at the end of a text. -/
def atEnd (cause : Cause) : Fault := ⟨cause, 0⟩

end Fault

/-- The line and the column after a number of bytes, from a line and a column on. -/
def position (line column bytes : Nat) : List Char → Nat × Nat
  | [] => (line, column)
  | c :: cs =>
      if bytes = 0 then (line, column)
      else if bytes < c.utf8Size then (line, column + bytes)
      else if c = '\n' then position (line + 1) 0 (bytes - 1) cs
      else position line (column + c.utf8Size) (bytes - c.utf8Size) cs

/-- The wording of a fault in a text. -/
def Fault.message (text : String) (f : Fault) : String :=
  let cs := text.toList
  let (line, column) := position 1 0 (Text.byteLength cs - f.left) cs
  f.cause.message ++ " at line " ++ Text.Numeral.text line ++ " column " ++ Text.Numeral.text column

example : position 1 0 4 "\x7b\n  x".toList = (2, 2) := by decide

end SheetFill.Json
