import SheetFill.Xml.Escape
import SheetFill.Xml.Tree

/-!
# Writing XML

An element without children is one empty tag. Nothing is added: no blanks, no declaration that is
not there.
-/

namespace SheetFill.Xml

/-- An attribute, with the blank before it. -/
def attributeChars (pair : String × String) : List Char :=
  ' ' :: pair.1.toList ++ '=' :: '"' :: escapeAttribute pair.2.toList ++ ['"']

mutual

/-- A node as XML text. -/
def Node.chars : Node → List Char
  | .element e => e.chars
  | .text chars => escapeText chars.toList
  | .cdata chars => "<![CDATA[".toList ++ chars.toList ++ "]]>".toList
  | .comment chars => "<!--".toList ++ chars.toList ++ "-->".toList
  | .instruction chars => '<' :: '?' :: chars.toList ++ ['?', '>']

/-- An element as XML text. -/
def Element.chars : Element → List Char
  | ⟨name, attributes, []⟩ => '<' :: name.toList ++ attributes.flatMap attributeChars ++ ['/', '>']
  | ⟨name, attributes, child :: children⟩ =>
      '<' :: name.toList ++ attributes.flatMap attributeChars ++
        '>' :: (child.chars ++ nodesChars children) ++ '<' :: '/' :: name.toList ++ ['>']

/-- Nodes as XML text, side by side. -/
def nodesChars : List Node → List Char
  | [] => []
  | node :: nodes => node.chars ++ nodesChars nodes

end

/-- An element as XML text. -/
def Element.toXml (e : Element) : String := String.ofList e.chars

/-- The children of an element as XML text. -/
def Element.innerXml (e : Element) : String := String.ofList (nodesChars e.children)

/-- A document as XML text; a declaration stands on a line of its own. -/
def Document.chars (d : Document) : List Char :=
  match d.declaration with
  | some declaration =>
      '<' :: '?' :: declaration.toList ++ '?' :: '>' :: '\n' :: d.root.chars
  | none => d.root.chars

/-- A document as XML text. -/
def Document.toXml (d : Document) : String := String.ofList d.chars

end SheetFill.Xml
