import SheetFill.Xml.Reader
import SheetFill.Proofs.Text.Blanks
import SheetFill.Proofs.Xml.Tokens

/-!
# Reading what was written

A document that can be written is read back from its XML text. What comes back has one text node
where text nodes stood side by side, and none where the text had no characters (`Document.merged`):
a reader cannot see where a text was cut.

The proof follows the reader. The end tags of a written tree match, so the reader takes in all of
its tokens (`matchEnds_element`), and the builder turns the tokens of an element into that element
(`steps_element`).
-/

namespace SheetFill.Xml

/-! ## Merged text -/

/-- The text node of a text, if the text has characters. -/
def textNodes (chars : String) : List Node := if chars = "" then [] else [.text chars]

mutual

/-- The element with merged text at every depth. -/
def Element.merged : Element → Element
  | ⟨name, attributes, children⟩ => ⟨name, attributes, mergeTexts "" children⟩

/-- Nodes after a pending text, with texts that stand side by side joined, texts without characters
left out and all elements merged. -/
def mergeTexts (pending : String) : List Node → List Node
  | [] => textNodes pending
  | .text chars :: nodes => mergeTexts (pending ++ chars) nodes
  | .element e :: nodes => textNodes pending ++ .element e.merged :: mergeTexts "" nodes
  | .cdata chars :: nodes => textNodes pending ++ .cdata chars :: mergeTexts "" nodes
  | .comment chars :: nodes => textNodes pending ++ .comment chars :: mergeTexts "" nodes
  | .instruction chars :: nodes => textNodes pending ++ .instruction chars :: mergeTexts "" nodes

end

/-- The document with merged text. -/
def Document.merged (d : Document) : Document := { d with root := d.root.merged }

/-! ## Matching end tags -/

theorem endName_name {name : String} (ordinary : OrdinaryName name) :
    endName name.toList = name.toList := by
  have noSpace : ∀ c ∈ name.toList, isSpace c = false :=
    fun c mem => (isNameChar_eq (ordinary.chars c mem)).1
  have notAll : name.toList.all isSpace = false := by
    obtain ⟨c, cs, start⟩ := ordinary.exists_cons
    rw [start, List.all_cons, noSpace c (start ▸ List.mem_cons_self ..)]
    rfl
  rw [endName, notAll]
  exact Text.dropEndWhile_of_none noSpace

theorem matchEnds_textTokens (fault : Option Error) (opened : List (List Char))
    (pending : List Char) (more : List Token) :
    matchEnds fault opened (textTokens pending ++ more) =
      (matchEnds fault opened more).prepend (textTokens pending) := by
  by_cases empty : pending = []
  · subst empty
    rfl
  · rw [textTokens, if_neg empty]
    rfl

/-- A token that is no tag stands between the tokens of two texts. -/
theorem matchEnds_between (fault : Option Error) (opened : List (List Char)) (pending : List Char)
    {t : Token} {after more : List Token}
    (here : ∀ tokens, matchEnds fault opened (t :: tokens) = .cons t (matchEnds fault opened tokens))
    (later : matchEnds fault opened (after ++ more) = (matchEnds fault opened more).prepend after) :
    matchEnds fault opened (textTokens pending ++ t :: after ++ more) =
      (matchEnds fault opened more).prepend (textTokens pending ++ t :: after) := by
  rw [List.append_assoc, matchEnds_textTokens, List.cons_append, here, later, Scan.prepend_append,
    Scan.prepend_cons]

mutual

/-- The end tags of a written element match its start tags. -/
theorem matchEnds_element (fault : Option Error) :
    ∀ (e : Element) (opened : List (List Char)) (more : List Token), e.Writable →
      matchEnds fault opened (e.tokens ++ more) = (matchEnds fault opened more).prepend e.tokens
  | ⟨name, attributes, []⟩, opened, more, _ => by
      rw [Element.tokens]
      rfl
  | ⟨name, attributes, child :: children⟩, opened, more, ⟨ordinary, _, inner⟩ => by
      have close : matchEnds fault (name.toList :: opened) (.close name.toList :: more) =
          .cons (.close name.toList) (matchEnds fault opened more) := by
        rw [matchEnds, endName_name ordinary.toOrdinaryName]
        exact if_pos rfl
      -- The end tag is not the children's: they are read with the name on the stack.
      have content := matchEnds_nodes fault (child :: children) [] (name.toList :: opened)
        (.close name.toList :: more) inner
      rw [close] at content
      rw [Element.tokens, List.cons_append, List.append_assoc, matchEnds,
        tagName_tagChars ordinary.toOrdinaryName, Scan.prepend_cons, Scan.prepend_append]
      exact congrArg _ content

/-- The end tags of written nodes match their start tags. -/
theorem matchEnds_nodes (fault : Option Error) :
    ∀ (nodes : List Node) (pending : List Char) (opened : List (List Char)) (more : List Token),
      WritableNodes nodes →
      matchEnds fault opened (nodesTokens pending nodes ++ more) =
        (matchEnds fault opened more).prepend (nodesTokens pending nodes)
  | [], pending, opened, more, _ => matchEnds_textTokens fault opened pending more
  | .text chars :: nodes, pending, opened, more, ⟨_, inner⟩ =>
      matchEnds_nodes fault nodes (pending ++ chars.toList) opened more inner
  | .element e :: nodes, pending, opened, more, ⟨outer, inner⟩ => by
      rw [nodesTokens, List.append_assoc, List.append_assoc, matchEnds_textTokens,
        matchEnds_element fault e opened _ outer, matchEnds_nodes fault nodes [] opened more inner,
        Scan.prepend_append, Scan.prepend_append]
  | .cdata _ :: nodes, pending, opened, more, ⟨_, inner⟩ =>
      matchEnds_between fault opened pending (fun _ => rfl)
        (matchEnds_nodes fault nodes [] opened more inner)
  | .comment _ :: nodes, pending, opened, more, ⟨_, inner⟩ =>
      matchEnds_between fault opened pending (fun _ => rfl)
        (matchEnds_nodes fault nodes [] opened more inner)
  | .instruction _ :: nodes, pending, opened, more, ⟨_, inner⟩ =>
      matchEnds_between fault opened pending (fun _ => rfl)
        (matchEnds_nodes fault nodes [] opened more inner)

end

/-! ## Building the tree -/

/-- An open element with more children. -/
def OpenElement.add (o : OpenElement) (nodes : List Node) : OpenElement :=
  { o with done := nodes.reverse ++ o.done }

@[simp] theorem OpenElement.add_append (o : OpenElement) (before after : List Node) :
    o.add (before ++ after) = (o.add before).add after := by
  simp [OpenElement.add]

theorem OpenElement.add_cons (o : OpenElement) (node : Node) (nodes : List Node) :
    o.add (node :: nodes) = (o.add [node]).add nodes := o.add_append [node] nodes

namespace Builder

theorem steps_cons {b next : Builder} {t : Token} (h : b.step t = .ok next) (more : List Token) :
    b.steps (t :: more) = next.steps more := by
  rw [steps, h]

variable (declaration : Option String) (root : Option Element)

/-- The text that was written since the last markup is read as one text node. -/
theorem steps_textTokens (o : OpenElement) (outer : List OpenElement) (pending : String)
    (more : List Token) :
    steps ⟨declaration, o :: outer, root⟩ (textTokens pending.toList ++ more) =
      steps ⟨declaration, o.add (textNodes pending) :: outer, root⟩ more := by
  by_cases empty : pending = ""
  · subst empty
    rfl
  · have chars : pending.toList ≠ [] := by
      intro none
      exact empty (String.toList_eq_nil_iff.mp none)
    have read : step ⟨declaration, o :: outer, root⟩ (.text (escapeText pending.toList)) =
        .ok ⟨declaration, o.add [.text pending] :: outer, root⟩ := by
      rw [step, unescape_escapeText]
      show Except.ok (addNode _ (.text (String.ofList pending.toList))) = _
      rw [String.ofList_toList]
      rfl
    rw [textTokens, if_neg chars, textNodes, if_neg empty]
    exact steps_cons read more

/-- A token that adds a node stands between the tokens of two texts. -/
theorem steps_between (o : OpenElement) (outer : List OpenElement) (pending : String)
    {t : Token} {node : Node} {after more : List Token} {nodes : List Node}
    (here : ∀ o, step ⟨declaration, o :: outer, root⟩ t =
      .ok ⟨declaration, o.add [node] :: outer, root⟩)
    (later : ∀ o, steps ⟨declaration, o :: outer, root⟩ (after ++ more) =
      steps ⟨declaration, o.add nodes :: outer, root⟩ more) :
    steps ⟨declaration, o :: outer, root⟩ (textTokens pending.toList ++ t :: after ++ more) =
      steps ⟨declaration, o.add (textNodes pending ++ node :: nodes) :: outer, root⟩ more := by
  rw [List.append_assoc, steps_textTokens, List.cons_append, steps_cons (here _), later,
    OpenElement.add_append, OpenElement.add_cons _ node nodes]

mutual

/-- The tokens of an element add that element, with its texts merged. -/
theorem steps_element : ∀ (e : Element) (b next : Builder) (more : List Token), e.Writable →
    b.addElement e.merged = .ok next → b.steps (e.tokens ++ more) = next.steps more
  | ⟨name, attributes, []⟩, b, next, more, ⟨ordinary, keys, _⟩, added => by
      have read : b.step (.empty (tagChars name attributes)) = .ok next := by
        rw [step, readAttributes_tagChars ordinary.toOrdinaryName keys,
          tagName_tagChars ordinary.toOrdinaryName, String.ofList_toList]
        exact added
      rw [Element.tokens]
      exact steps_cons read more
  | ⟨name, attributes, child :: children⟩, b, next, more, ⟨ordinary, keys, inner⟩, added => by
      have read : b.step (.start (tagChars name attributes)) =
          .ok ⟨b.declaration, ⟨name, attributes, []⟩ :: b.opened, b.root⟩ := by
        rw [step, readAttributes_tagChars ordinary.toOrdinaryName keys,
          tagName_tagChars ordinary.toOrdinaryName, String.ofList_toList]
      have content := steps_nodes b.declaration b.root (child :: children) ""
        ⟨name, attributes, []⟩ b.opened (.close name.toList :: more) inner
      have close : step ⟨b.declaration,
          OpenElement.add ⟨name, attributes, []⟩ (mergeTexts "" (child :: children)) :: b.opened,
          b.root⟩ (.close name.toList) = .ok next := by
        show b.addElement ⟨name, attributes,
          ((mergeTexts "" (child :: children)).reverse ++ []).reverse⟩ = .ok next
        rw [List.append_nil, List.reverse_reverse]
        exact added
      rw [Element.tokens, List.cons_append, List.append_assoc, steps_cons read]
      exact content.trans (steps_cons close more)

/-- The tokens of nodes add those nodes to the innermost open element, with their texts merged. -/
theorem steps_nodes (declaration : Option String) (root : Option Element) :
    ∀ (nodes : List Node) (pending : String) (o : OpenElement) (outer : List OpenElement)
      (more : List Token), WritableNodes nodes →
      steps ⟨declaration, o :: outer, root⟩ (nodesTokens pending.toList nodes ++ more) =
        steps ⟨declaration, o.add (mergeTexts pending nodes) :: outer, root⟩ more
  | [], pending, o, outer, more, _ => steps_textTokens declaration root o outer pending more
  | .text chars :: nodes, pending, o, outer, more, ⟨_, inner⟩ => by
      -- Nothing is written between two texts, so the second one only makes the first longer.
      have joined := steps_nodes declaration root nodes (pending ++ chars) o outer more inner
      rw [String.toList_append] at joined
      exact joined
  | .element e :: nodes, pending, o, outer, more, ⟨within, inner⟩ => by
      rw [nodesTokens, List.append_assoc, List.append_assoc, steps_textTokens,
        steps_element e _ _ _ within rfl]
      have later := steps_nodes declaration root nodes ""
        ((o.add (textNodes pending)).add [.element e.merged]) outer more inner
      rw [mergeTexts, OpenElement.add_append, OpenElement.add_cons _ _ (mergeTexts "" nodes)]
      exact later
  | .cdata chars :: nodes, pending, o, outer, more, ⟨_, inner⟩ => by
      refine steps_between declaration root o outer pending (fun o => ?_)
        fun o => steps_nodes declaration root nodes "" o outer more inner
      rw [step, String.ofList_toList]
      rfl
  | .comment chars :: nodes, pending, o, outer, more, ⟨_, inner⟩ => by
      refine steps_between declaration root o outer pending (fun o => ?_)
        fun o => steps_nodes declaration root nodes "" o outer more inner
      rw [step, String.ofList_toList]
      rfl
  | .instruction chars :: nodes, pending, o, outer, more, ⟨_, inner⟩ => by
      refine steps_between declaration root o outer pending (fun o => ?_)
        fun o => steps_nodes declaration root nodes "" o outer more inner
      rw [step, String.ofList_toList]
      rfl

end

end Builder

/-! ## Documents -/

/-- The tokens of a document. The line feed after a declaration is a text outside of the root. -/
def Document.tokens (d : Document) : List Token :=
  match d.declaration with
  | some declaration => .declaration declaration.toList :: .text ['\n'] :: d.root.tokens
  | none => d.root.tokens

theorem Element.lex_chars {e : Element} (h : e.Writable) : lex e.chars = ⟨e.tokens, none⟩ := by
  have read := lex_element e [] h
  rw [List.append_nil, lex] at read
  rw [read, Scan.prepend, List.append_nil]

theorem Document.lex_chars {d : Document} (h : d.Writable) : lex d.chars = ⟨d.tokens, none⟩ := by
  obtain ⟨declaration | content, root⟩ := d
  · exact Element.lex_chars h.root
  · obtain ⟨isOne, noClose⟩ := h.declaration content rfl
    have nonempty : content.toList ≠ [] := by
      intro none
      rw [none] at isOne
      cases isOne
    have opening := lex_instruction nonempty noClose ('\n' :: root.chars)
    have feed := lex_text ['\n'] (root.chars_head [])
    rw [List.append_nil, Element.lex_chars h.root] at feed
    rw [isOne] at opening
    have written : (⟨some content, root⟩ : Document).chars =
        '<' :: '?' :: content.toList ++ ['?', '>'] ++ '\n' :: root.chars := by
      simp only [Document.chars, List.cons_append, List.append_assoc, List.nil_append]
    rw [written, opening]
    exact congrArg _ feed

/-- The reader takes in all the tokens of a written document. -/
theorem Document.scan_toXml {d : Document} (h : d.Writable) : scan d.toXml = ⟨d.tokens, none⟩ := by
  obtain ⟨cs, start⟩ : ∃ cs, d.chars = '<' :: cs := by
    obtain ⟨declaration | content, root⟩ := d
    · exact root.exists_chars
    · exact ⟨_, rfl⟩
  have noMark : (Text.dropStart? ['\uFEFF'] d.chars).getD d.chars = d.chars := by
    rw [start]
    rfl
  have matching : matchEnds none [] d.tokens = ⟨d.tokens, none⟩ := by
    have tree := matchEnds_element none d.root [] [] h.root
    rw [List.append_nil, matchEnds, Scan.prepend, List.append_nil] at tree
    obtain ⟨declaration | content, root⟩ := d
    · exact tree
    · exact congrArg
        (fun found => Scan.cons (.declaration content.toList) (.cons (.text ['\n']) found)) tree
  rw [scan, Document.toXml, String.toList_ofList, noMark, Document.lex_chars h]
  exact matching

/-- The builder makes the document of its tokens. -/
theorem Document.steps_tokens {d : Document} (h : d.Writable) :
    Builder.start.steps d.tokens = .ok ⟨d.declaration, [], some d.root.merged⟩ := by
  have tree : ∀ declaration, Builder.steps ⟨declaration, [], none⟩ d.root.tokens =
      .ok ⟨declaration, [], some d.root.merged⟩ := by
    intro declaration
    have read := Builder.steps_element d.root ⟨declaration, [], none⟩
      ⟨declaration, [], some d.root.merged⟩ [] h.root rfl
    rw [List.append_nil] at read
    exact read
  obtain ⟨declaration | content, root⟩ := d
  · exact tree none
  · have declared : Builder.start.step (.declaration content.toList) =
        .ok ⟨some content, [], none⟩ := by
      rw [Builder.step, String.ofList_toList]
      rfl
    rw [Document.tokens, Builder.steps_cons declared]
    exact tree (some content)

/-- A text with the tokens of a document is read as this document, with its texts merged. -/
theorem Document.read_of_scan {d : Document} (h : d.Writable) {text : String}
    (scanned : scan text = ⟨d.tokens, none⟩) : Document.read text = .ok d.merged := by
  rw [Document.read, scanned, Document.steps_tokens h]
  rfl

/-- A written document is read back, with its texts merged. -/
theorem Document.read_toXml {d : Document} (h : d.Writable) :
    Document.read d.toXml = .ok d.merged :=
  read_of_scan h (scan_toXml h)

/-- Markup in texts and values, texts that are cut and texts without characters. -/
def tangled : Document :=
  ⟨some "xml version=\"1.0\"", ⟨"sst", [("a", "\"<&>'\n"), ("b:c", "")],
    [.text "", .text "1 < 2 && ", .text "]]>", .element ⟨"x", [], [.text ""]⟩,
      .cdata "<x/> ]] >", .comment " - - ", .text "&amp;", .instruction "pi a", .text " ",
      .element ⟨"y", [("k", "&lt;")], [.element ⟨"x", [], []⟩, .text "\""]⟩]⟩⟩

theorem read_toXml_tangled :
    tangled.Writable ∧ Document.read tangled.toXml = .ok
      ⟨some "xml version=\"1.0\"", ⟨"sst", [("a", "\"<&>'\n"), ("b:c", "")],
        [.text "1 < 2 && ]]>", .element ⟨"x", [], []⟩,
          .cdata "<x/> ]] >", .comment " - - ", .text "&amp;", .instruction "pi a", .text " ",
          .element ⟨"y", [("k", "&lt;")], [.element ⟨"x", [], []⟩, .text "\""]⟩]⟩⟩ := by
  have writable : tangled.Writable := by decide +kernel
  exact ⟨writable, Document.read_toXml writable⟩

end SheetFill.Xml
