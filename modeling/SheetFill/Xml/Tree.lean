/-!
# XML trees

A document is a declaration and a root element. An element has a name, attributes in the order of
the text and child nodes, which are elements, text, CDATA sections, comments or processing
instructions. The functions that read an element look at child elements; those that change one keep
all else as it is.
-/

namespace SheetFill.Xml

mutual

/-- A child of an element. -/
inductive Node where
  /-- An element. -/
  | element (e : Element)
  /-- Text, without escapes. -/
  | text (chars : String)
  /-- The content of a CDATA section. -/
  | cdata (chars : String)
  /-- The content of a comment. -/
  | comment (chars : String)
  /-- The content of a processing instruction. -/
  | instruction (chars : String)

/-- An element. -/
structure Element where
  /-- The name as it is written, with its namespace mark. -/
  name : String
  /-- Keys and values of the attributes, without escapes. -/
  attributes : List (String × String)
  /-- The children. -/
  children : List Node

end

/-- A document. -/
structure Document where
  /-- The content of the XML declaration, if there is one. -/
  declaration : Option String
  /-- The element that holds all others. -/
  root : Element

/-! ## Equality -/

mutual

/-- Whether two nodes are equal. -/
def Node.decEq : (a b : Node) → Decidable (a = b)
  | .element a, .element b => match a.decEq b with
    | isTrue h => isTrue (by rw [h])
    | isFalse h => isFalse (by simpa using h)
  | .text a, .text b => if h : a = b then isTrue (by rw [h]) else isFalse (by simpa using h)
  | .cdata a, .cdata b => if h : a = b then isTrue (by rw [h]) else isFalse (by simpa using h)
  | .comment a, .comment b => if h : a = b then isTrue (by rw [h]) else isFalse (by simpa using h)
  | .instruction a, .instruction b =>
      if h : a = b then isTrue (by rw [h]) else isFalse (by simpa using h)
  | .element _, .text _ | .element _, .cdata _ | .element _, .comment _
  | .element _, .instruction _ => isFalse (by simp)
  | .text _, .element _ | .text _, .cdata _ | .text _, .comment _ | .text _, .instruction _ =>
      isFalse (by simp)
  | .cdata _, .element _ | .cdata _, .text _ | .cdata _, .comment _ | .cdata _, .instruction _ =>
      isFalse (by simp)
  | .comment _, .element _ | .comment _, .text _ | .comment _, .cdata _
  | .comment _, .instruction _ => isFalse (by simp)
  | .instruction _, .element _ | .instruction _, .text _ | .instruction _, .cdata _
  | .instruction _, .comment _ => isFalse (by simp)

/-- Whether two elements are equal. -/
def Element.decEq : (a b : Element) → Decidable (a = b)
  | ⟨n, as, cs⟩, ⟨m, bs, ds⟩ =>
      if h : n = m ∧ as = bs then match decEqNodes cs ds with
        | isTrue h' => isTrue (by rw [h.1, h.2, h'])
        | isFalse h' => isFalse (by simp [h'])
      else isFalse (by simp only [Element.mk.injEq]; exact fun e => h ⟨e.1, e.2.1⟩)

/-- Whether two lists of nodes are equal. -/
def decEqNodes : (as bs : List Node) → Decidable (as = bs)
  | [], [] => isTrue rfl
  | a :: as, b :: bs => match a.decEq b, decEqNodes as bs with
    | isTrue h, isTrue h' => isTrue (by rw [h, h'])
    | isFalse h, _ => isFalse (by simp [h])
    | _, isFalse h => isFalse (by simp [h])
  | [], _ :: _ => isFalse (by simp)
  | _ :: _, [] => isFalse (by simp)

end

instance : DecidableEq Node := Node.decEq

instance : DecidableEq Element := Element.decEq

deriving instance DecidableEq for Document

/-! ## Nodes -/

/-- The element that a node is. -/
def Node.element? : Node → Option Element
  | .element e => some e
  | _ => none

/-- The characters of a node that is text, escaped or not. -/
def Node.charData : Node → String
  | .text chars | .cdata chars => chars
  | _ => ""

/-- Whether a node is an element of a given name. -/
def Node.isNamed (name : String) : Node → Bool
  | .element e => e.name == name
  | _ => false

namespace Element

/-- An element of a given name, without attributes and children. -/
def ofName (name : String) : Element := ⟨name, [], []⟩

/-! ## Attributes -/

/-- The value of an attribute. -/
def attr? (e : Element) (key : String) : Option String :=
  (e.attributes.find? fun pair => pair.1 == key).map (·.2)

/-- Attributes with the first one of a key changed, or with a new one at the end. -/
def setIn (key value : String) : List (String × String) → List (String × String)
  | [] => [(key, value)]
  | (k, v) :: rest => if k = key then (k, value) :: rest else (k, v) :: setIn key value rest

/-- The element with an attribute changed in place, or added at the end. -/
def setAttr (e : Element) (key value : String) : Element :=
  { e with attributes := setIn key value e.attributes }

/-- The element without an attribute. -/
def removeAttr (e : Element) (key : String) : Element :=
  { e with attributes := e.attributes.filter fun pair => pair.1 != key }

/-! ## Children -/

/-- The child elements. -/
def elements (e : Element) : List Element := e.children.filterMap Node.element?

/-- The first child element of a given name. -/
def child? (e : Element) (name : String) : Option Element := e.elements.find? (·.name == name)

/-- Whether there is a child element of a given name. -/
def hasChild (e : Element) (name : String) : Bool := (e.child? name).isSome

/-- The element without its child elements of a given name. -/
def removeChildren (e : Element) (name : String) : Element :=
  { e with children := e.children.filter fun node => !node.isNamed name }

/-- The text of the children, side by side. -/
def text (e : Element) : String := String.join (e.children.map Node.charData)

/-- The element with a text as its only child. -/
def setText (e : Element) (text : String) : Element := { e with children := [.text text] }

/-- The element with a node after its children. -/
def push (e : Element) (node : Node) : Element := { e with children := e.children ++ [node] }

/-- Nodes with the first element of a given name changed. -/
def modifyFirst (name : String) (f : Element → Element) : List Node → List Node
  | [] => []
  | .element e :: rest =>
      if e.name = name then .element (f e) :: rest else .element e :: modifyFirst name f rest
  | node :: rest => node :: modifyFirst name f rest

/-- The element with its first child element of a given name changed. -/
def modifyChild (e : Element) (name : String) (f : Element → Element) : Element :=
  { e with children := modifyFirst name f e.children }

/-- A node with the element that it is changed. -/
def mapNode (f : Element → Element) : Node → Node
  | .element e => .element (f e)
  | node => node

/-- The element with all its child elements changed. -/
def mapElements (e : Element) (f : Element → Element) : Element :=
  { e with children := e.children.map (mapNode f) }

end Element

end SheetFill.Xml
