import SheetFill.Proofs.Xml.Accepted

/-!
# The tags of a document in order

A part is read in two ways: as a document, and for its tags alone (`startTags`). The tags of an
element stand before those of its children, and these in their order. While a document is built, the
root, the open elements from the outermost on and what they have inside so far give the tags in the
order of the text (`Builder.tags_step`). So the tags that are read from the text of a document are
those of the document, in order (`Document.startTags_of_tags`).
-/

namespace SheetFill.Xml

/-- What the start of an element says. -/
structure Tag where
  /-- The name of the element. -/
  name : String
  /-- Its attributes. -/
  attributes : List (String × String)
deriving DecidableEq

/-- The tag of an element. -/
def Element.tag (e : Element) : Tag := ⟨e.name, e.attributes⟩

mutual

/-- The tags in a node. -/
def Node.tags : Node → List Tag
  | .element e => e.tags
  | .text _ | .cdata _ | .comment _ | .instruction _ => []

/-- The tag of an element and those inside of it. -/
def Element.tags : Element → List Tag
  | ⟨name, attributes, children⟩ => ⟨name, attributes⟩ :: nodesTags children

/-- The tags in nodes. -/
def nodesTags : List Node → List Tag
  | [] => []
  | node :: nodes => node.tags ++ nodesTags nodes

end

/-- The attributes of the tags of a name. -/
def Element.tagsNamed (e : Element) (name : String) : List (List (String × String)) :=
  (e.tags.filter (·.name == name)).map Tag.attributes

theorem nodesTags_append (nodes more : List Node) :
    nodesTags (nodes ++ more) = nodesTags nodes ++ nodesTags more := by
  induction nodes with
  | nil => rfl
  | cons node nodes ih => rw [List.cons_append, nodesTags, nodesTags, ih, List.append_assoc]

/-! ## Trees that were changed -/

theorem nodesTags_textNodes (chars : String) : nodesTags (textNodes chars) = [] := by
  rw [textNodes]
  split
  · rfl
  · rfl

mutual

/-- Merging texts leaves all tags where they are. -/
theorem Element.tags_merged : ∀ e : Element, e.merged.tags = e.tags
  | ⟨name, attributes, children⟩ => by
      rw [Element.merged, Element.tags, Element.tags, nodesTags_mergeTexts "" children]

theorem nodesTags_mergeTexts (pending : String) :
    ∀ nodes : List Node, nodesTags (mergeTexts pending nodes) = nodesTags nodes
  | [] => nodesTags_textNodes pending
  | .element e :: nodes => by
      rw [mergeTexts, nodesTags_append, nodesTags_textNodes, nodesTags, nodesTags, Node.tags,
        Node.tags, e.tags_merged, nodesTags_mergeTexts "" nodes, List.nil_append]
  | .text chars :: nodes => by
      rw [mergeTexts, nodesTags_mergeTexts _ nodes]
      rfl
  | .cdata chars :: nodes | .comment chars :: nodes | .instruction chars :: nodes => by
      rw [mergeTexts, nodesTags_append, nodesTags_textNodes, nodesTags,
        nodesTags_mergeTexts "" nodes]
      rfl

end

/-- What is pushed comes last. -/
theorem Element.tags_push (e : Element) (node : Node) :
    (e.push node).tags = e.tags ++ node.tags := by
  obtain ⟨name, attributes, children⟩ := e
  rw [Element.push, Element.tags, Element.tags, nodesTags_append, nodesTags, nodesTags,
    List.append_nil, List.cons_append]

theorem Element.tagsNamed_merged (e : Element) (name : String) :
    e.merged.tagsNamed name = e.tagsNamed name := by
  rw [tagsNamed, tags_merged, tagsNamed]

theorem Element.tagsNamed_push (e child : Element) (name : String) :
    (e.push (.element child)).tagsNamed name = e.tagsNamed name ++ child.tagsNamed name := by
  rw [tagsNamed, tags_push, List.filter_append, List.map_append]
  rfl

/-! ## Building the tree -/

/-- What a tag says, if it can be read. -/
def readTag? (tag : List Char) : Option Tag :=
  (readAttributes tag).toOption.map (Tag.mk (String.ofList (tagName tag)))

theorem readTag?_of_readAttributes {tag : List Char} {attributes : List (String × String)}
    (read : readAttributes tag = .ok attributes) :
    readTag? tag = some ⟨String.ofList (tagName tag), attributes⟩ := by
  rw [readTag?, read]
  rfl

/-- The tags in an open element so far. -/
def OpenElement.tags (o : OpenElement) : List Tag :=
  ⟨o.name, o.attributes⟩ :: nodesTags o.done.reverse

namespace Builder

/-- The tags in all that is built so far: the open elements are the last ones, and the innermost of
them is the very last. -/
def tags (b : Builder) : List Tag :=
  (b.root.map Element.tags).getD [] ++ b.opened.reverse.flatMap OpenElement.tags

variable {b next : Builder}

theorem tags_cons (declaration : Option String) (o : OpenElement) (outer : List OpenElement)
    (root : Option Element) :
    tags ⟨declaration, o :: outer, root⟩ = tags ⟨declaration, outer, root⟩ ++ o.tags := by
  simp only [tags, List.reverse_cons, List.flatMap_append, List.flatMap_singleton,
    List.append_assoc]

theorem tags_addNode (b : Builder) (node : Node) :
    (b.addNode node).tags = b.tags ++ if b.opened.isEmpty then [] else node.tags := by
  obtain ⟨declaration, opened, root⟩ := b
  cases opened with
  | nil => exact (List.append_nil _).symm
  | cons o outer =>
      show tags ⟨declaration, { o with done := node :: o.done } :: outer, root⟩ = _ ++ node.tags
      rw [tags_cons, tags_cons, List.append_assoc]
      congr 1
      rw [OpenElement.tags, OpenElement.tags, List.reverse_cons, nodesTags_append, nodesTags,
        nodesTags, List.append_nil, List.cons_append]

/-- An element that is closed is the innermost one, or the root. -/
theorem tags_addElement {e : Element} (h : b.addElement e = .ok next) :
    next.tags = b.tags ++ e.tags := by
  obtain ⟨declaration, opened, root⟩ := b
  rw [addElement] at h
  dsimp only at h
  split at h
  · cases h
    exact tags_addNode _ _
  · cases h
    simp [tags]
  · cases h

theorem tags_of_isLeaf {t : Token} {node : Node} (leaf : t.IsLeaf node) : node.tags = [] := by
  cases leaf <;> rfl

/-- A token adds the tag that it is. -/
theorem tags_step {t : Token} (h : b.step t = .ok next) :
    next.tags = b.tags ++ (t.tag?.bind readTag?).toList := by
  cases takes_of_step h with
  | start read =>
      rw [tags_cons, Token.tag?, Option.bind_some, readTag?_of_readAttributes read]
      rfl
  | empty read added =>
      rw [tags_addElement added, Token.tag?, Option.bind_some, readTag?_of_readAttributes read]
      rfl
  | close innermost added =>
      -- Closing an element changes nothing: its tags were the last ones before.
      obtain ⟨declaration, opened, root⟩ := b
      cases innermost
      rw [tags_addElement added, tags_cons]
      exact (List.append_nil _).symm
  | leaf isLeaf =>
      rw [tags_addNode, tags_of_isLeaf isLeaf, ite_self, isLeaf.noTag]
      rfl
  | declaration => exact (List.append_nil _).symm
  | pass noTag =>
      rw [noTag]
      exact (List.append_nil _).symm

theorem tags_steps {tokens : List Token} (h : b.steps tokens = .ok next) :
    next.tags = b.tags ++ (tokens.filterMap Token.tag?).filterMap readTag? := by
  rw [List.filterMap_filterMap]
  induction tokens generalizing b with
  | nil =>
      cases h
      exact (List.append_nil _).symm
  | cons t tokens ih =>
      rw [steps] at h
      split at h
      · cases h
      · rename_i middle taken
        rw [ih h, tags_step taken, List.append_assoc, List.filterMap_cons]
        cases t.tag?.bind readTag? with
        | none => rfl
        | some tag => rfl

end Builder

/-! ## Documents -/

namespace Document

variable {text : String} {d : Document}

/-- The tags of a document that was read are those of its text. -/
theorem tags_of_read (h : Document.read text = .ok d) :
    d.root.tags = ((scan text).tokens.filterMap Token.tag?).filterMap readTag? := by
  have built := Builder.tags_steps (exists_of_read h).2
  simpa [Builder.tags, Builder.start] using built

/-- The tags of a name that are read from the text of a document are those of the document. -/
theorem startTags_of_tags (h : Document.read text = .ok d) (name : String) :
    startTags name text = .ok ((d.root.tagsNamed name).map fun attributes =>
      attributes.map fun pair => (pair.1, some pair.2)) := by
  have read := tag_of_read h (sound_of_read h)
  rw [startTags_eq (exists_of_read h).1, Element.tagsNamed, tags_of_read h]
  refine congrArg Except.ok ?_
  generalize (scan text).tokens.filterMap Token.tag? = written at read
  induction written with
  | nil => rfl
  | cons tag written ih =>
      obtain ⟨⟨attributes, first, -⟩, others⟩ := List.forall_mem_cons.mp read
      rw [List.filterMap_cons_some (readTag?_of_readAttributes first), List.filterMap_cons,
        List.filter_cons]
      by_cases named : tagName tag = name.toList
      · have named' : (String.ofList (tagName tag) == name) = true := by
          rw [named, String.ofList_toList, beq_self_eq_true]
        rw [if_pos named, if_pos named', ih others, lenientAttributes_of_readAttributes first]
        rfl
      · have named' : ¬ (String.ofList (tagName tag) == name) = true := by
          rw [beq_iff_eq]
          rintro rfl
          exact named String.toList_ofList.symm
        rw [if_neg named, if_neg named', ih others]

end Document

end SheetFill.Xml
