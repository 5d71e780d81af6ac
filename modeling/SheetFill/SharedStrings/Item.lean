import SheetFill.Value.CellContent
import SheetFill.Xml.Reader

/-!
# Items of shared text

The text of a cell is kept in an item: an element with a text (`t`), or with runs (`r`) that have
texts and formats of their own. `visibleText` is what a reader sees. `fillItem` replaces the
placeholders of an item: in a plain item through the text of its first `t`, in one with runs through
its XML text, so that the formats stay. There a placeholder that is split by markup is left alone,
and an item that would no longer be XML stays as it is.
-/

namespace SheetFill

open Xml

/-- The text of a child of an item: runs count with their own text, phonetic runs do not. -/
def childText (child : Element) : String :=
  if child.name = "t" then child.text
  else if child.name = "r" then ((child.child? "t").map Element.text).getD ""
  else ""

/-- The text of an item that a reader sees. -/
def visibleText (item : Element) : String := String.join (item.elements.map childText)

/-- Whether blanks at the ends or line feeds in a text would be lost. -/
def keepsBlanks (text : String) : Bool :=
  let cs := text.toList
  cs.head?.any Text.isBlank || cs.getLast?.any Text.isBlank || cs.any (· == '\n')

/-- A `t` element with a given text. -/
def plainText (text : String) : Element :=
  let t := Element.ofName "t"
  let t := if keepsBlanks text then t.setAttr "xml:space" "preserve" else t
  if text.isEmpty then t else t.push (.text text)

/-- A plain item with a given text. -/
def plainItem (text : String) : Element := (Element.ofName "si").push (.element (plainText text))

/-- Text from between tags with the escapes of its three markup characters resolved. -/
def unescapeMarkup (cs : List Char) : List Char :=
  Text.replaceAll "&amp;".toList ['&']
    (Text.replaceAll "&gt;".toList ['>'] (Text.replaceAll "&lt;".toList ['<'] cs))

/-- A placeholder in XML text filled in, unless markup splits it. -/
def fillMarkup (data : Value) (body : List Char) : List Char :=
  if body.contains '<' then (Placeholder.Piece.placeholder body).chars
  else escapeText (data.textAt (String.ofList (unescapeMarkup body))).toList

/-- An item with its placeholders filled in. -/
def fillItem (data : Value) (item : Element) : Element :=
  if item.hasChild "r" then
    let inner := Placeholder.replace (fillMarkup data) (Placeholder.pieces item.innerXml.toList)
    match item.setInnerXml (String.ofList inner) with
    | .ok filled => filled
    | .error _ => item
  else item.modifyChild "t" fun t => plainText (data.fill t.text)

end SheetFill
