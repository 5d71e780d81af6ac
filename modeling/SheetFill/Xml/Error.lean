import SheetFill.Text.Quoted

/-!
# What can be wrong with XML text

Faults of the markup, of an attribute and of an escape, with their wording. Places are counted in
bytes: those of an attribute from the start of its tag, those of an escape from the start of the
text or attribute value that holds it.
-/

namespace SheetFill.Xml

/-- Why the escapes of a text cannot be resolved. -/
inductive EscapeError where
  /-- An ampersand has no semicolon before the next ampersand. -/
  | unclosed (start stop : Nat)
  /-- The name between the ampersand and the semicolon is unknown. -/
  | unknownName (start stop : Nat) (name : String)
  /-- The escape stands for NUL. -/
  | nul (start stop : Nat)
  /-- The number is no code point. -/
  | noCodePoint (n : Nat)
  /-- The decimal number has more than seven characters. -/
  | longDecimal
  /-- The hexadecimal number has more than six characters. -/
  | longHexadecimal
  /-- A character of the decimal number is no digit. -/
  | badDecimal (c : Char)
  /-- A character of the hexadecimal number is no digit. -/
  | badHexadecimal (c : Char)
deriving DecidableEq

/-- Why an attribute cannot be read. -/
inductive AttributeError where
  /-- The key is not followed by an equals sign. -/
  | noEquals (place : Nat)
  /-- The key was used before. -/
  | duplicate (place previous : Nat)
  /-- There is no value. -/
  | noValue (place : Nat)
  /-- The value has no quotes. -/
  | unquoted (place : Nat)
  /-- The closing quote is missing. -/
  | unclosed (place : Nat) (quote : Char)
deriving DecidableEq

/-- Kinds of markup that have to be closed. -/
inductive Markup where
  /-- A processing instruction or the declaration. -/
  | instruction
  /-- A comment. -/
  | comment
  /-- A CDATA section. -/
  | cdata
  /-- A document type. -/
  | doctype
  /-- Markup that starts with an exclamation mark, before its kind is known. -/
  | bang
  /-- A tag. -/
  | tag
deriving DecidableEq

/-- Why a text is no XML markup. -/
inductive Error where
  /-- The markup is not closed, or not opened in full. -/
  | unclosed (markup : Markup)
  /-- The document type is empty. -/
  | emptyDoctype
  /-- No markup starts with an exclamation mark and this byte. -/
  | unknownBang (byte : Nat)
  /-- An end tag does not close the innermost open element. -/
  | wrongEnd (expected found : String)
  /-- An attribute cannot be read. -/
  | badAttribute (e : AttributeError)
  /-- An escape cannot be resolved. -/
  | badEscape (e : EscapeError)
deriving DecidableEq

/-- Why a text is no XML document. -/
inductive ReadError where
  /-- The text is no XML markup. -/
  | markup (e : Error)
  /-- An element is still open at the end. -/
  | unclosedElement
  /-- There is an element after the root. -/
  | secondRoot
  /-- There is no element. -/
  | noRoot
deriving DecidableEq

open Text (Numeral.text)

/-- A stretch of bytes. -/
def placeText (start stop : Nat) : String := Numeral.text start ++ ".." ++ Numeral.text stop

/-- The wording of a fault in an escape. -/
def EscapeError.message : EscapeError → String
  | .unclosed start stop =>
      "Error while escaping character at range " ++ placeText start stop ++
        ": Cannot find ';' after '&'"
  | .unknownName start stop name =>
      "Error while escaping character at range " ++ placeText start stop ++
        ": Unrecognized escape symbol: " ++ String.ofList (Text.quoted name.toList)
  | .nul start stop =>
      "Error while escaping character at range " ++ placeText start stop ++
        ": Null character entity not allowed"
  | .noCodePoint n => "'" ++ Numeral.text n ++ "' is not a valid codepoint"
  | .longDecimal => "Cannot convert decimal to utf8"
  | .longHexadecimal => "Cannot convert hexadecimal to utf8"
  | .badDecimal c => "'" ++ c.toString ++ "' is not a valid decimal character"
  | .badHexadecimal c => "'" ++ c.toString ++ "' is not a valid hexadecimal character"

/-- The wording of a fault in an attribute. -/
def AttributeError.message : AttributeError → String
  | .noEquals place =>
      "position " ++ Numeral.text place ++
        ": attribute key must be directly followed by \x60=\x60 or space"
  | .duplicate place previous =>
      "position " ++ Numeral.text place ++
        ": duplicated attribute, previous declaration at position " ++ Numeral.text previous
  | .noValue place =>
      "position " ++ Numeral.text place ++ ": \x60=\x60 must be followed by an attribute value"
  | .unquoted place =>
      "position " ++ Numeral.text place ++
        ": attribute value must be enclosed in \x60\"\x60 or \x60'\x60"
  | .unclosed place quote =>
      "position " ++ Numeral.text place ++ ": missing closing quote \x60" ++ quote.toString ++
        "\x60 in attribute value"

/-- The name of a kind of markup in messages. -/
def Markup.text : Markup → String
  | .instruction => "XmlDecl"
  | .comment => "Comment"
  | .cdata => "CData"
  | .doctype => "DOCTYPE"
  | .bang => "Bang"
  | .tag => "Element"

/-- The wording of a fault in the markup. -/
def Error.message : Error → String
  | .unclosed markup => "Unexpected EOF during reading " ++ markup.text
  | .emptyDoctype => "DOCTYPE declaration must not be empty"
  | .unknownBang byte =>
      "Only Comment (\x60--\x60), CDATA (\x60[CDATA[\x60) and DOCTYPE (\x60DOCTYPE\x60) nodes " ++
        "can start with a '!', but symbol \x60" ++ (Char.ofNat byte).toString ++ "\x60 found"
  | .wrongEnd expected found => "Expecting </" ++ expected ++ "> found </" ++ found ++ ">"
  | .badAttribute e => "error while parsing attribute: " ++ e.message
  | .badEscape e => e.message

/-- The wording of a fault in a document. -/
def ReadError.message : ReadError → String
  | .markup e => "XML error: " ++ e.message
  | .unclosedElement => "Parse error: unclosed element"
  | .secondRoot => "Parse error: multiple root elements"
  | .noRoot => "Parse error: document has no root element"

/-- The first byte of a character in UTF-8. -/
def firstByte (c : Char) : Nat :=
  let n := c.toNat
  if n < 0x80 then n
  else if n < 0x800 then 0xC0 + n / 0x40
  else if n < 0x10000 then 0xE0 + n / 0x1000
  else 0xF0 + n / 0x40000

end SheetFill.Xml
