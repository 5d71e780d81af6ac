import SheetFill.Proofs.Xml.Everywhere

/-!
# Texts replaced in a tree

All texts of a tree can be replaced by nodes, with the tags around them kept (`Element.bindTexts`).
If no two texts stand side by side, reading the tree back removes the texts without characters and
changes nothing else (`merged_bindTexts`).
-/

namespace SheetFill.Xml

/-! ## Replacing texts -/

mutual

/-- A node, or the nodes in place of a text. -/
def Node.bindTexts (f : String → List Node) : Node → List Node
  | .element e => [.element (e.bindTexts f)]
  | .text chars => f chars
  | .cdata chars => [.cdata chars]
  | .comment chars => [.comment chars]
  | .instruction chars => [.instruction chars]

/-- An element with nodes in place of each text in it, at any depth. -/
def Element.bindTexts (f : String → List Node) : Element → Element
  | ⟨name, attributes, children⟩ => ⟨name, attributes, bindTextsIn f children⟩

/-- Nodes with other nodes in place of each text. -/
def bindTextsIn (f : String → List Node) : List Node → List Node
  | [] => []
  | node :: nodes => node.bindTexts f ++ bindTextsIn f nodes

end

section Bind

variable {rule : Rule} {f : String → List Node}

mutual

theorem Node.Obeys.bindTexts (texts : ∀ chars, NodesObey rule (f chars)) :
    ∀ {node : Node}, node.Obeys rule → NodesObey rule (node.bindTexts f)
  | .element _, h => ⟨Element.Obeys.bindTexts texts h, trivial⟩
  | .text chars, _ => texts chars
  | .cdata _, h => ⟨h, trivial⟩
  | .comment _, h => ⟨h, trivial⟩
  | .instruction _, h => ⟨h, trivial⟩

/-- A rule is kept if the new nodes obey it. -/
theorem Element.Obeys.bindTexts (texts : ∀ chars, NodesObey rule (f chars)) :
    ∀ {e : Element}, e.Obeys rule → (e.bindTexts f).Obeys rule
  | ⟨_, _, _⟩, ⟨tag, inner⟩ => ⟨tag, NodesObey.bindTexts texts inner⟩

theorem NodesObey.bindTexts (texts : ∀ chars, NodesObey rule (f chars)) :
    ∀ {nodes : List Node}, NodesObey rule nodes → NodesObey rule (bindTextsIn f nodes)
  | [], _ => trivial
  | _ :: _, ⟨first, rest⟩ =>
      nodesObey_append.mpr ⟨Node.Obeys.bindTexts texts first, NodesObey.bindTexts texts rest⟩

end

theorem bindTextsIn_ne_nil (some : ∀ chars, f chars ≠ []) {nodes : List Node}
    (nonempty : nodes ≠ []) : bindTextsIn f nodes ≠ [] := by
  obtain ⟨node, nodes, rfl⟩ := List.exists_cons_of_ne_nil nonempty
  rw [bindTextsIn]
  refine List.append_ne_nil_of_left_ne_nil ?_ _
  cases node with
  | text chars => exact some chars
  | element e => exact List.cons_ne_nil _ _
  | cdata chars => exact List.cons_ne_nil _ _
  | comment chars => exact List.cons_ne_nil _ _
  | instruction chars => exact List.cons_ne_nil _ _

end Bind

/-! ## Texts apart -/

/-- Whether the first node is a text. -/
def startsWithText : List Node → Bool
  | .text _ :: _ => true
  | _ => false

mutual

/-- Whether no two texts stand side by side in an element, at any depth. -/
def Element.textsApart : Element → Bool
  | ⟨_, _, children⟩ => nodesApart children

/-- Whether no two texts stand side by side in nodes, at any depth. -/
def nodesApart : List Node → Bool
  | [] => true
  | .text _ :: nodes => !startsWithText nodes && nodesApart nodes
  | .element e :: nodes => e.textsApart && nodesApart nodes
  | .cdata _ :: nodes => nodesApart nodes
  | .comment _ :: nodes => nodesApart nodes
  | .instruction _ :: nodes => nodesApart nodes

end

/-- The text before nodes stays apart from them. -/
theorem mergeTexts_of_startsWithText {nodes : List Node} (noText : startsWithText nodes = false)
    (pending : String) : mergeTexts pending nodes = textNodes pending ++ mergeTexts "" nodes := by
  cases nodes with
  | nil => simp [mergeTexts, textNodes]
  | cons node nodes =>
      cases node with
      | text chars => cases noText
      | element e => simp [mergeTexts, textNodes]
      | cdata chars => simp [mergeTexts, textNodes]
      | comment chars => simp [mergeTexts, textNodes]
      | instruction chars => simp [mergeTexts, textNodes]

section Map

variable (f : String → String)

/-- No text is first if none was first before. -/
theorem startsWithText_bindTextsIn {nodes : List Node} (noText : startsWithText nodes = false) :
    startsWithText (bindTextsIn (fun chars => [.text (f chars)]) nodes) = false := by
  cases nodes with
  | nil => rfl
  | cons node nodes =>
      cases node with
      | text chars => cases noText
      | element e => rfl
      | cdata chars => rfl
      | comment chars => rfl
      | instruction chars => rfl

mutual

/-- Merging removes the new texts that have no characters. -/
theorem Element.merged_bindTexts : ∀ (e : Element), e.textsApart = true →
    (e.bindTexts fun chars => [.text (f chars)]).merged =
      e.bindTexts fun chars => textNodes (f chars)
  | ⟨_, _, children⟩, apart => congrArg (Element.mk _ _) (mergeTexts_bindTextsIn children apart)

theorem mergeTexts_bindTextsIn : ∀ (nodes : List Node), nodesApart nodes = true →
    mergeTexts "" (bindTextsIn (fun chars => [.text (f chars)]) nodes) =
      bindTextsIn (fun chars => textNodes (f chars)) nodes
  | [], _ => rfl
  | .text chars :: nodes, apart => by
      rw [nodesApart, Bool.and_eq_true, Bool.not_eq_true'] at apart
      have first := startsWithText_bindTextsIn f apart.1
      rw [bindTextsIn, Node.bindTexts, List.singleton_append, mergeTexts, String.empty_append,
        mergeTexts_of_startsWithText first, mergeTexts_bindTextsIn nodes apart.2, bindTextsIn,
        Node.bindTexts]
  | .element e :: nodes, apart => by
      rw [nodesApart, Bool.and_eq_true] at apart
      rw [bindTextsIn, Node.bindTexts, List.singleton_append, mergeTexts,
        Element.merged_bindTexts e apart.1, mergeTexts_bindTextsIn nodes apart.2]
      rfl
  | .cdata chars :: nodes, apart => by
      rw [bindTextsIn, Node.bindTexts, List.singleton_append, mergeTexts,
        mergeTexts_bindTextsIn nodes apart]
      rfl
  | .comment chars :: nodes, apart => by
      rw [bindTextsIn, Node.bindTexts, List.singleton_append, mergeTexts,
        mergeTexts_bindTextsIn nodes apart]
      rfl
  | .instruction chars :: nodes, apart => by
      rw [bindTextsIn, Node.bindTexts, List.singleton_append, mergeTexts,
        mergeTexts_bindTextsIn nodes apart]
      rfl

end

end Map

/-! ## Children written and read -/

/-- An element with children has an end tag. -/
theorem Element.chars_of_children {name : String} {attributes : List (String × String)}
    {children : List Node} (some : children ≠ []) :
    (⟨name, attributes, children⟩ : Element).chars =
      '<' :: name.toList ++ attributes.flatMap attributeChars ++
        '>' :: nodesChars children ++ '<' :: '/' :: name.toList ++ ['>'] := by
  obtain ⟨child, children, rfl⟩ := List.exists_cons_of_ne_nil some
  rw [Element.chars, nodesChars]

/-- The XML text of nodes makes these nodes the children of an element, with their texts merged. -/
theorem Element.setInnerXml_nodesChars {e : Element} {nodes : List Node}
    (name : ElementName e.name) (written : WritableNodes nodes) (some : nodes ≠ []) :
    e.setInnerXml (String.ofList (nodesChars nodes)) =
      .ok { e with children := mergeTexts "" nodes } := by
  let wrapped : Document := ⟨none, ⟨e.name, [], nodes⟩⟩
  have writable : wrapped.Writable := ⟨by simp [wrapped], name, ⟨by simp, List.nodup_nil⟩, written⟩
  have text : "<" ++ e.name ++ ">" ++ String.ofList (nodesChars nodes) ++ "</" ++ e.name ++ ">" =
      wrapped.toXml := by
    refine String.toList_inj.mp ?_
    simp [wrapped, Document.toXml, Document.chars, Element.chars_of_children some]
  rw [Element.setInnerXml, text, Document.read, Document.scan_toXml writable,
    Document.steps_tokens writable]
  rfl

end SheetFill.Xml
