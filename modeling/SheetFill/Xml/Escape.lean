import SheetFill.Text.Blank
import SheetFill.Xml.Error

/-!
# Escapes in XML text

`escapeText` and `escapeAttribute` write the characters that would be markup as escapes;
`unescape` resolves the five names and the numbers of code points.
-/

namespace SheetFill.Xml

/-- A character of text. -/
def escapeTextChar (c : Char) : List Char :=
  if c = '&' then "&amp;".toList
  else if c = '<' then "&lt;".toList
  else if c = '>' then "&gt;".toList
  else [c]

/-- A character of an attribute value. -/
def escapeAttributeChar (c : Char) : List Char :=
  if c = '"' then "&quot;".toList
  else if c = '\n' then "&#10;".toList
  else if c = '\r' then "&#13;".toList
  else if c = '\t' then "&#9;".toList
  else escapeTextChar c

/-- Text as it stands between tags. -/
def escapeText (cs : List Char) : List Char := cs.flatMap escapeTextChar

/-- An attribute value as it stands between double quotes. -/
def escapeAttribute (cs : List Char) : List Char := cs.flatMap escapeAttributeChar

/-- The number that digits spell, or the first character that is none. A character outside of ASCII
is named by its first byte. -/
def digitsValue (base : Nat) (value? : Char → Option Nat) (bad : Char → EscapeError) (n : Nat) :
    List Char → Except EscapeError Nat
  | [] => .ok n
  | c :: cs =>
      match value? c with
      | some v => digitsValue base value? bad (n * base + v) cs
      | none => .error (bad (Char.ofNat (firstByte c)))

/-- The value of a decimal digit. -/
def decimalValue? (c : Char) : Option Nat :=
  if c.isDigit then some (Text.Numeral.value c) else none

/-- The code point that the number of an escape spells, after its `#`. -/
def codePoint : List Char → Except EscapeError Nat
  | 'x' :: cs =>
      if 6 < Text.byteLength cs then .error .longHexadecimal
      else digitsValue 16 Text.Numeral.hexValue? .badHexadecimal 0 cs
  | cs =>
      if 7 < Text.byteLength cs then .error .longDecimal
      else digitsValue 10 decimalValue? .badDecimal 0 cs

/-- The character of an escape with a given name. -/
def named? (name : List Char) : Option Char :=
  if name = "lt".toList then some '<'
  else if name = "gt".toList then some '>'
  else if name = "amp".toList then some '&'
  else if name = "apos".toList then some '\''
  else if name = "quot".toList then some '"'
  else none

/-- The character of the escape between an ampersand at `start` and a semicolon at `stop`. -/
def entity (start stop : Nat) (name : List Char) : Except EscapeError Char :=
  match name with
  | '#' :: number => do
      let n ← codePoint number
      if n = 0 then .error (.nul start stop)
      else if n < 0xD800 ∨ 0xE000 ≤ n ∧ n < 0x110000 then .ok (Char.ofNat n)
      else .error (.noCodePoint n)
  | _ =>
      match named? name with
      | some c => .ok c
      | none => .error (.unknownName (start + 1) stop (String.ofList name))

/-- Whether a character may stand between an ampersand and its semicolon. -/
def inEntity (c : Char) : Bool := c != '&' && c != ';'

/-- Resolve the escapes of a text that starts at a given byte. -/
def unescapeFrom (place : Nat) (cs : List Char) : Except EscapeError (List Char) :=
  match cs with
  | [] => .ok []
  | c :: rest =>
      if c = '&' then
        let name := rest.takeWhile inEntity
        match _after : rest.dropWhile inEntity with
        | ';' :: tail => do
            let stop := place + 1 + Text.byteLength name
            let char ← entity place stop name
            let chars ← unescapeFrom (stop + 1) tail
            .ok (char :: chars)
        | _ => .error (.unclosed place (place + Text.byteLength (c :: rest)))
      else do
        let chars ← unescapeFrom (place + c.utf8Size) rest
        .ok (c :: chars)
termination_by cs.length
decreasing_by
  · have := (List.dropWhile_suffix inEntity (l := rest)).length_le
    rw [_after] at this
    simp only [List.length_cons] at this ⊢
    omega
  · simp

/-- Resolve the escapes of a text. -/
def unescape (cs : List Char) : Except EscapeError (List Char) := unescapeFrom 0 cs

end SheetFill.Xml
