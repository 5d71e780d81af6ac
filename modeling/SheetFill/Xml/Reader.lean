import SheetFill.Xml.Attribute
import SheetFill.Xml.Writer

/-!
# Reading XML documents

A document is built from the tokens of its text with the open elements on a stack. Text, comments,
CDATA sections and instructions outside of the root are passed over unread; of several declarations
the last one counts. `startTags` reads a part for its tags alone, whether or not it is a document.
-/

namespace SheetFill.Xml

/-- An element that is still open, its children so far in reverse. -/
structure OpenElement where
  /-- Its name. -/
  name : String
  /-- Its attributes. -/
  attributes : List (String × String)
  /-- Its children so far, last one first. -/
  done : List Node

/-- A document that is being read. -/
structure Builder where
  /-- The declaration, if there was one. -/
  declaration : Option String
  /-- The open elements, innermost first. -/
  opened : List OpenElement
  /-- The root, once it is closed. -/
  root : Option Element

namespace Builder

/-- The builder before the first token. -/
def start : Builder := ⟨none, [], none⟩

/-- Add a node to the innermost open element; outside of all elements it is passed over. -/
def addNode (b : Builder) (node : Node) : Builder :=
  match b.opened with
  | [] => b
  | e :: outer => { b with opened := { e with done := node :: e.done } :: outer }

/-- Add a closed element: to the innermost open one, or as the root. -/
def addElement (b : Builder) (e : Element) : Except ReadError Builder :=
  match b.opened, b.root with
  | _ :: _, _ => .ok (b.addNode (.element e))
  | [], none => .ok { b with root := some e }
  | [], some _ => .error .secondRoot

/-- Take in one token. -/
def step (b : Builder) (t : Token) : Except ReadError Builder :=
  match t with
  | .start tag =>
      match readAttributes tag with
      | .error e => .error (.markup e)
      | .ok attributes =>
          .ok { b with opened := ⟨String.ofList (tagName tag), attributes, []⟩ :: b.opened }
  | .empty tag =>
      match readAttributes tag with
      | .error e => .error (.markup e)
      | .ok attributes => b.addElement ⟨String.ofList (tagName tag), attributes, []⟩
  | .close _ =>
      match b.opened with
      | [] => .ok b
      | e :: outer => { b with opened := outer }.addElement ⟨e.name, e.attributes, e.done.reverse⟩
  | .text chars =>
      if b.opened.isEmpty then .ok b
      else match unescape chars with
        | .error e => .error (.markup (.badEscape e))
        | .ok chars => .ok (b.addNode (.text (String.ofList chars)))
  | .cdata chars => .ok (b.addNode (.cdata (String.ofList chars)))
  | .comment chars => .ok (b.addNode (.comment (String.ofList chars)))
  | .instruction chars => .ok (b.addNode (.instruction (String.ofList chars)))
  | .declaration chars => .ok { b with declaration := some (String.ofList chars) }
  | .doctype => .ok b

/-- Take in tokens one after another. -/
def steps (b : Builder) : List Token → Except ReadError Builder
  | [] => .ok b
  | t :: tokens => match b.step t with
    | .error e => .error e
    | .ok b => b.steps tokens

/-- The document at the end of the text. -/
def finish (b : Builder) : Except ReadError Document :=
  if b.opened.isEmpty then
    match b.root with
    | some root => .ok ⟨b.declaration, root⟩
    | none => .error .noRoot
  else .error .unclosedElement

end Builder

/-- Read a document. The first fault in the text counts. -/
def Document.read (text : String) : Except ReadError Document :=
  let found := scan text
  match Builder.start.steps found.tokens with
  | .error e => .error e
  | .ok b => match found.fault with
    | some e => .error (.markup e)
    | none => b.finish

/-- The element with the nodes that a text spells as its children. -/
def Element.setInnerXml (e : Element) (xml : String) : Except ReadError Element :=
  match Document.read ("<" ++ e.name ++ ">" ++ xml ++ "</" ++ e.name ++ ">") with
  | .error fault => .error fault
  | .ok document => .ok { e with children := document.root.children }

/-- The start tags and empty tags of a given name, with the attributes that can be read. -/
def startTags (name text : String) : Except Error (List (List (String × Option String))) :=
  let found := scan text
  match found.fault with
  | some e => .error e
  | none => .ok <| found.tokens.filterMap fun t =>
      match t with
      | .start tag | .empty tag =>
          if tagName tag = name.toList then some (lenientAttributes tag) else none
      | _ => none

end SheetFill.Xml
