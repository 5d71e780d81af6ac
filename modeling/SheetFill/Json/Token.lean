import SheetFill.Json.Basic
import SheetFill.Json.Error
import SheetFill.Json.Number

/-!
# The tokens of JSON text

A text is a sequence of brackets, separators and scalars, with blanks between them: space, line
feed, carriage return and tab. A number is refused if it is too large for a finite number, a string
if it holds a control character, an unknown escape or half of a surrogate pair. The tokens end at
the first of them that cannot be read, with its fault in its place.
-/

namespace SheetFill.Json

/-- A token of JSON text. -/
inductive Token where
  /-- The start of an array. -/
  | openArray
  /-- The end of an array. -/
  | closeArray
  /-- The start of an object. -/
  | openObject
  /-- The end of an object. -/
  | closeObject
  /-- A comma. -/
  | comma
  /-- A colon. -/
  | colon
  /-- A string. -/
  | string (text : String)
  /-- A literal. -/
  | literal (value : Json)
  /-- A number. -/
  | number (x : Binary64)
  /-- What cannot be read, and whether it starts like a string. -/
  | bad (quoted : Bool) (fault : Fault)

/-! ## Strings -/

/-- The code unit that four hexadecimal digits spell, and what follows it. -/
def codeUnit (cs : List Char) : Except Fault (Nat × List Char) :=
  if Text.byteLength (cs.take 4) < 4 then .error (.atEnd .endInString)
  else match cs with
    | a :: b :: c :: d :: rest =>
        match Text.Numeral.hexValue? a, Text.Numeral.hexValue? b, Text.Numeral.hexValue? c,
          Text.Numeral.hexValue? d with
        | some a, some b, some c, some d => .ok (((a * 16 + b) * 16 + c) * 16 + d, rest)
        | _, _, _, _ => .error ⟨.badEscape, Text.byteLength cs - 4⟩
    | _ => .error ⟨.badEscape, Text.byteLength cs - 4⟩

/-- What follows a character that must stand at the start of a text after half of a pair. -/
def pairMark (mark : Char) : List Char → Except Fault (List Char)
  | [] => .error (.atEnd .endInString)
  | c :: cs => if c = mark then .ok cs else .error (.within (c :: cs) .brokenPair)

/-- The character that an escape spells after its `u`, and what follows it. A character outside of
the basic plane is a pair of escapes. -/
def unicodeEscape (cs : List Char) : Except Fault (Char × List Char) := do
  let (unit, rest) ← codeUnit cs
  if 0xDC00 ≤ unit ∧ unit < 0xE000 then throw (.before rest .loneSurrogate)
  else if 0xD800 ≤ unit ∧ unit < 0xDC00 then
    let (low, rest) ← codeUnit (← pairMark 'u' (← pairMark '\\' rest))
    if 0xDC00 ≤ low ∧ low < 0xE000 then
      pure (Char.ofNat (0x10000 + (unit - 0xD800) * 0x400 + (low - 0xDC00)), rest)
    else throw (.before rest .loneSurrogate)
  else pure (Char.ofNat unit, rest)

/-- The character that an escape spells after its backslash, and what follows it. -/
def escape : List Char → Except Fault (Char × List Char)
  | [] => .error (.atEnd .endInString)
  | c :: cs =>
      if c = '"' ∨ c = '\\' ∨ c = '/' then .ok (c, cs)
      else if c = 'b' then .ok (Char.ofNat 8, cs)
      else if c = 'f' then .ok (Char.ofNat 12, cs)
      else if c = 'n' then .ok ('\n', cs)
      else if c = 'r' then .ok ('\r', cs)
      else if c = 't' then .ok ('\t', cs)
      else if c = 'u' then unicodeEscape cs
      else .error (.within (c :: cs) .badEscape)

/-- The rest of a string after some characters, last one first, and what follows its closing quote.
Every step takes characters off the front, so as many steps as there are characters suffice. -/
def closeString (steps : Nat) (done cs : List Char) : Except Fault (List Char × List Char) :=
  match steps, cs with
  | steps + 1, c :: cs =>
      if c = '"' then .ok (done.reverse, cs)
      else if c = '\\' then match escape cs with
        | .error fault => .error fault
        | .ok (c, cs) => closeString steps (c :: done) cs
      else if c.toNat < 0x20 then .error (.within (c :: cs) .controlCharacter)
      else closeString steps (c :: done) cs
  | _, _ => .error (.atEnd .endInString)

/-! ## Numbers -/

/-- The digits at the start of a text, at least one, and what follows them. -/
def readDigits (cs : List Char) : Except Fault (List Char × List Char) :=
  let digits := cs.takeWhile Char.isDigit
  if digits.isEmpty then
    .error (if cs.isEmpty then .atEnd .endInValue else .within cs .badNumber)
  else .ok (digits, cs.dropWhile Char.isDigit)

/-- The digits before the point of a number: one zero, or no zero in front. -/
def readWhole (cs : List Char) : Except Fault (List Char × List Char) :=
  match cs with
  | '0' :: c :: rest => if c.isDigit then .error (.within (c :: rest) .badNumber) else readDigits cs
  | _ => readDigits cs

/-- The fraction of a number, if it has one. -/
def readFraction : List Char → Except Fault (List Char × List Char)
  | '.' :: cs => readDigits cs
  | cs => .ok ([], cs)

/-- The largest exponent that is told from larger ones. -/
def maxExponent : Nat := 2147483647

/-- How many digits of an exponent are read before it is too large, if it is. -/
def hugeExponent? (digits : List Char) : Option Nat :=
  (List.range digits.length).find? fun n =>
    maxExponent < Text.Numeral.readFrom 0 (digits.take (n + 1))

/-- The exponent of a number other than zero, if it has one. -/
def readExponent (isZero : Bool) (cs : List Char) : Except Fault (Int × List Char) :=
  match cs with
  | [] => .ok (0, [])
  | c :: rest =>
      if c = 'e' ∨ c = 'E' then do
        let (negative, rest) := match rest with
          | '-' :: rest => (true, rest)
          | '+' :: rest => (false, rest)
          | rest => (false, rest)
        let (digits, after) ← readDigits rest
        let n : Int := Text.Numeral.readFrom 0 digits
        match hugeExponent? digits with
        | some read =>
            if isZero then pure (0, after)
            else if negative then pure (-n, after)
            else throw (.before (rest.drop (read + 1)) .hugeNumber)
        | none => pure (if negative then -n else n, after)
      else .ok (0, cs)

/-- The number at the start of a text, and what follows it. -/
def readNumber (rounding : Rounding) (cs : List Char) : Except Fault (Binary64 × List Char) := do
  let (negative, cs) := match cs with
    | '-' :: cs => (true, cs)
    | cs => (false, cs)
  let (whole, cs) ← readWhole cs
  let (fraction, cs) ← readFraction cs
  let (exponent, rest) ← readExponent ((whole ++ fraction).all (· == '0')) cs
  let x := WrittenNumber.value ⟨negative, whole, fraction, exponent⟩ rounding
  if x.isFinite then pure (x, rest) else throw (.before rest .hugeNumber)

/-! ## Literals -/

/-- What follows the rest of a literal. -/
def closeLiteral : List Char → List Char → Except Fault (List Char)
  | [], cs => .ok cs
  | _ :: _, [] => .error (.atEnd .endInValue)
  | a :: as, c :: cs => if a = c then closeLiteral as cs else .error (.within (c :: cs) .badLiteral)

/-! ## Tokens -/

/-- Whether a character may stand between tokens. -/
def isBlank (c : Char) : Bool := c == ' ' || c == '\n' || c == '\r' || c == '\t'

/-- A token and what follows it, or a token that cannot be read and nothing. -/
def orBad (quoted : Bool) : Except Fault (Token × List Char) → Token × List Char
  | .ok read => read
  | .error fault => (.bad quoted fault, [])

/-- The first token of a text that starts with `c` and has no more than `steps` characters after it,
and what follows it. -/
def firstToken (rounding : Rounding) (steps : Nat) (c : Char) (cs : List Char) :
    Token × List Char :=
  if c = '[' then (.openArray, cs)
  else if c = ']' then (.closeArray, cs)
  else if c = '{' then (.openObject, cs)
  else if c = '}' then (.closeObject, cs)
  else if c = ',' then (.comma, cs)
  else if c = ':' then (.colon, cs)
  else if c = '"' then
    orBad true ((closeString steps [] cs).map fun (text, rest) =>
      (.string (String.ofList text), rest))
  else if c = '-' ∨ c.isDigit then
    orBad false ((readNumber rounding (c :: cs)).map fun (x, rest) => (.number x, rest))
  else if c = 'n' then
    orBad false ((closeLiteral "ull".toList cs).map fun rest => (.literal .null, rest))
  else if c = 't' then
    orBad false ((closeLiteral "rue".toList cs).map fun rest => (.literal (.bool true), rest))
  else if c = 'f' then
    orBad false ((closeLiteral "alse".toList cs).map fun rest => (.literal (.bool false), rest))
  else (.bad false (.within (c :: cs) .noValue), [])

/-- A token at its place. -/
structure PlacedToken where
  /-- The token. -/
  token : Token
  /-- The text from the token on. -/
  text : List Char

/-- The tokens of a text, in at most as many steps as it has characters. -/
def tokensIn (rounding : Rounding) (steps : Nat) (cs : List Char) : List PlacedToken :=
  match steps, cs with
  | steps + 1, c :: cs =>
      if isBlank c then tokensIn rounding steps cs
      else
        let (token, rest) := firstToken rounding steps c cs
        ⟨token, c :: cs⟩ :: tokensIn rounding steps rest
  | _, _ => []

/-- The tokens of a text. -/
def tokens (rounding : Rounding) (text : String) : List PlacedToken :=
  let cs := text.toList
  tokensIn rounding cs.length cs

end SheetFill.Json
