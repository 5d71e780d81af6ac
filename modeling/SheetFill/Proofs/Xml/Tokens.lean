import Mathlib.Data.List.Infix
import SheetFill.Proofs.Xml.Tag

/-!
# The tokens of written nodes

Writing a tree and cutting the text into tokens again gives the tokens of the tree: a start tag and
an end tag around the tokens of the children, or one empty tag, and one token for each CDATA
section, comment and instruction. Text nodes that stand side by side leave one token, and text nodes
without characters leave none.

This needs a tree that can be written (`Element.Writable`). Its names are ordinary, and what stands
in its CDATA sections, comments and instructions does not end them early. Nothing is asked of text
and of attribute values.
-/

namespace SheetFill.Xml

/-! ## Trees that can be written -/

mutual

/-- A node whose XML text can be read. -/
def Node.Writable : Node → Prop
  | .element e => e.Writable
  | .text _ => True
  | .cdata chars => ¬ "]]>".toList <:+: chars.toList
  | .comment chars => ¬ "-->".toList <:+: chars.toList
  | .instruction chars =>
      chars.toList ≠ [] ∧ '>' ∉ chars.toList ∧ isDeclaration chars.toList = false

/-- An element whose XML text can be read. -/
def Element.Writable : Element → Prop
  | ⟨name, attributes, children⟩ =>
      ElementName name ∧ OrdinaryAttributes attributes ∧ WritableNodes children

/-- Nodes whose XML text can be read. -/
def WritableNodes : List Node → Prop
  | [] => True
  | node :: nodes => node.Writable ∧ WritableNodes nodes

end

mutual

/-- Whether a node can be written. -/
def Node.decWritable : (node : Node) → Decidable node.Writable
  | .element e => e.decWritable
  | .text _ => isTrue trivial
  | .cdata chars => inferInstanceAs (Decidable (¬ "]]>".toList <:+: chars.toList))
  | .comment chars => inferInstanceAs (Decidable (¬ "-->".toList <:+: chars.toList))
  | .instruction chars => inferInstanceAs (Decidable (chars.toList ≠ [] ∧ '>' ∉ chars.toList ∧
      isDeclaration chars.toList = false))

/-- Whether an element can be written. -/
def Element.decWritable : (e : Element) → Decidable e.Writable
  | ⟨name, attributes, children⟩ =>
      have : Decidable (WritableNodes children) := decWritableNodes children
      inferInstanceAs (Decidable
        (ElementName name ∧ OrdinaryAttributes attributes ∧ WritableNodes children))

/-- Whether nodes can be written. -/
def decWritableNodes : (nodes : List Node) → Decidable (WritableNodes nodes)
  | [] => isTrue trivial
  | node :: nodes => match node.decWritable, decWritableNodes nodes with
    | isTrue first, isTrue rest => isTrue ⟨first, rest⟩
    | isFalse first, _ => isFalse fun both => first both.1
    | _, isFalse rest => isFalse fun both => rest both.2

end

instance (e : Element) : Decidable e.Writable := e.decWritable

/-- A document whose XML text can be read. -/
structure Document.Writable (d : Document) : Prop where
  /-- The declaration is one, and it does not end early. -/
  declaration : ∀ content ∈ d.declaration,
    isDeclaration content.toList = true ∧ '>' ∉ content.toList
  /-- The root can be written. -/
  root : d.root.Writable

instance (d : Document) : Decidable d.Writable :=
  decidable_of_iff ((∀ content ∈ d.declaration,
      isDeclaration content.toList = true ∧ '>' ∉ content.toList) ∧ d.root.Writable)
    ⟨fun h => ⟨h.1, h.2⟩, fun h => ⟨h.declaration, h.root⟩⟩

/-! ## The tokens of a tree -/

/-- The token of the text that was written since the last markup, if there was any. -/
def textTokens (pending : List Char) : List Token :=
  if pending = [] then [] else [.text (escapeText pending)]

mutual

/-- The tokens of an element. -/
def Element.tokens : Element → List Token
  | ⟨name, attributes, []⟩ => [.empty (tagChars name attributes)]
  | ⟨name, attributes, child :: children⟩ =>
      .start (tagChars name attributes) ::
        (nodesTokens [] (child :: children) ++ [.close name.toList])

/-- The tokens of nodes after a pending text. -/
def nodesTokens (pending : List Char) : List Node → List Token
  | [] => textTokens pending
  | .text chars :: nodes => nodesTokens (pending ++ chars.toList) nodes
  | .element e :: nodes => textTokens pending ++ (e.tokens ++ nodesTokens [] nodes)
  | .cdata chars :: nodes => textTokens pending ++ .cdata chars.toList :: nodesTokens [] nodes
  | .comment chars :: nodes => textTokens pending ++ .comment chars.toList :: nodesTokens [] nodes
  | .instruction chars :: nodes =>
      textTokens pending ++ .instruction chars.toList :: nodesTokens [] nodes

end

/-! ## Marks -/

theorem dropStart?_append (start rest : List Char) :
    Text.dropStart? start (start ++ rest) = some rest := by
  induction start with
  | nil => simp [Text.dropStart?]
  | cons s start ih => simpa [Text.dropStart?] using ih

theorem eq_append_of_dropStart? {start cs rest : List Char}
    (h : Text.dropStart? start cs = some rest) : cs = start ++ rest := by
  induction start generalizing cs with
  | nil => simpa [Text.dropStart?] using h
  | cons s start ih =>
      cases cs with
      | nil => simp [Text.dropStart?] at h
      | cons c cs =>
          simp only [Text.dropStart?] at h
          split at h
          · rename_i same
            rw [same, ih h, List.cons_append]
          · cases h

/-- A mark of the form `aab` ends a text that does not have it: the mark overlaps itself nowhere. -/
theorem breakOn?_append {a b : Char} (different : a ≠ b) {cs : List Char}
    (absent : ¬ [a, a, b] <:+: cs) (rest : List Char) :
    breakOn? [a, a, b] (cs ++ ([a, a, b] ++ rest)) = some (cs, rest) := by
  induction cs with
  | nil =>
      rw [List.nil_append, List.cons_append, breakOn?, ← List.cons_append, dropStart?_append]
  | cons c cs ih =>
      have later : Text.dropStart? [a, a, b] (c :: (cs ++ ([a, a, b] ++ rest))) = none := by
        cases found : Text.dropStart? [a, a, b] (c :: (cs ++ ([a, a, b] ++ rest))) with
        | none => rfl
        | some after =>
            have same := eq_append_of_dropStart? found
            rcases cs with _ | ⟨d, _ | ⟨e, cs⟩⟩
            · simp only [List.nil_append, List.cons_append, List.cons.injEq] at same
              exact absurd same.2.2.1 different
            · simp only [List.nil_append, List.cons_append, List.cons.injEq] at same
              exact absurd same.2.2.1 different
            · simp only [List.nil_append, List.cons_append, List.cons.injEq] at same
              obtain ⟨rfl, rfl, rfl, -⟩ := same
              exact absurd ⟨[], cs, rfl⟩ absent
      have tail := ih fun inside => absent (inside.trans (List.suffix_cons c cs).isInfix)
      rw [List.cons_append, breakOn?, later, tail]
      rfl

theorem dropWord?_append {word : List Char} (capitals : word.map Char.toUpper = word)
    (rest : List Char) : dropWord? word (word ++ rest) = some rest := by
  rw [dropWord?, List.take_left, List.drop_left, if_pos capitals]

/-! ## One step -/

theorem lex_markup {cs rest : List Char} {t : Token} (h : markupStep cs = .token t rest) :
    lex ('<' :: cs) = .cons t (lex rest) := by
  rw [lex, if_pos rfl]
  split
  · rename_i found
    rw [h] at found
    cases found
    rfl
  · rename_i found
    rw [h] at found
    cases found
  · rename_i found
    rw [h] at found
    cases found

/-- After an opening bracket, an ordinary name starts a tag. -/
theorem markupStep_tagChars {name : String} (attributes : List (String × String))
    (ordinary : ElementName name) (rest : List Char) :
    markupStep (tagChars name attributes ++ rest) = tagStep (tagChars name attributes ++ rest) := by
  obtain ⟨c, cs, start⟩ := ordinary.exists_cons
  obtain ⟨-, -, -, -, noSlash, -⟩ := isNameChar_eq (ordinary.chars c (start ▸ List.mem_cons_self ..))
  obtain ⟨notBang, notQuestion⟩ := ordinary.head
  rw [start] at notBang notQuestion
  have noBang : ¬ c = '!' := fun same => notBang (congrArg some same)
  have noQuestion : ¬ c = '?' := fun same => notQuestion (congrArg some same)
  rw [tagChars, start, List.cons_append, List.cons_append, markupStep, if_neg noSlash,
    if_neg noQuestion, if_neg noBang]

theorem upToBracket_append {cs : List Char} (noClose : '>' ∉ cs) (rest : List Char) :
    upToBracket (cs ++ '>' :: rest) = (cs, rest) := by
  have inside : ∀ c ∈ cs, (c != '>') = true := by
    intro c mem
    rw [bne_iff_ne]
    rintro rfl
    exact noClose mem
  have stop : ∀ c ∈ ('>' :: rest).head?, (c != '>') = false := by
    intro c mem
    obtain rfl := Option.some.inj mem
    rfl
  rw [upToBracket, takeWhile_append_of_stop inside stop, dropWhile_append_of_stop inside stop]
  rfl

theorem lex_close {name : String} (ordinary : OrdinaryName name) (rest : List Char) :
    lex ('<' :: '/' :: (name.toList ++ '>' :: rest)) = .cons (.close name.toList) (lex rest) := by
  refine lex_markup ?_
  have noClose : '>' ∉ name.toList :=
    fun mem => (isNameChar_eq (ordinary.chars '>' mem)).2.2.1 rfl
  rw [markupStep, if_pos rfl, upToBracket_append noClose]

theorem lex_cdata {chars : List Char} (absent : ¬ "]]>".toList <:+: chars) (rest : List Char) :
    lex ("<![CDATA[".toList ++ chars ++ "]]>".toList ++ rest) =
      .cons (.cdata chars) (lex rest) := by
  have closed : breakOn? "]]>".toList (chars ++ ("]]>".toList ++ rest)) = some (chars, rest) :=
    breakOn?_append (by decide) absent rest
  have opened : dropWord? "[CDATA[".toList ("[CDATA[".toList ++ (chars ++ ("]]>".toList ++ rest))) =
      some (chars ++ ("]]>".toList ++ rest)) := dropWord?_append (by decide) _
  have step : cdataStep ("[CDATA[".toList ++ (chars ++ ("]]>".toList ++ rest))) =
      .token (.cdata chars) rest := by
    rw [cdataStep, opened, Option.bind_some, closed]
  rw [List.append_assoc, List.append_assoc]
  exact lex_markup step

theorem lex_comment {chars : List Char} (absent : ¬ "-->".toList <:+: chars) (rest : List Char) :
    lex ("<!--".toList ++ chars ++ "-->".toList ++ rest) = .cons (.comment chars) (lex rest) := by
  have closed : breakOn? "-->".toList (chars ++ ("-->".toList ++ rest)) = some (chars, rest) :=
    breakOn?_append (by decide) absent rest
  have step : commentStep ("--".toList ++ (chars ++ ("-->".toList ++ rest))) =
      .token (.comment chars) rest := by
    rw [commentStep, dropStart?_append, Option.bind_some, closed]
  rw [List.append_assoc, List.append_assoc]
  exact lex_markup step

/-- An instruction or a declaration ends at its own closing bracket. -/
theorem instructionStep_append {content : List Char} (nonempty : content ≠ [])
    (noClose : '>' ∉ content) (rest : List Char) :
    instructionStep (content ++ '?' :: '>' :: rest) =
      .token (if isDeclaration content then .declaration content else .instruction content)
        rest := by
  have inside : '>' ∉ content ++ ['?'] := by
    rw [List.mem_append, not_or]
    exact ⟨noClose, by decide⟩
  obtain ⟨c, more, reversed⟩ := List.exists_cons_of_ne_nil (List.reverse_ne_nil_iff.mpr nonempty)
  have back : (c :: more).reverse = content := by rw [← reversed, List.reverse_reverse]
  have cut : upToBracket (content ++ '?' :: '>' :: rest) = (content ++ ['?'], rest) := by
    have cut := upToBracket_append inside rest
    rwa [List.append_assoc] at cut
  rw [instructionStep, cut]
  simp only [List.reverse_append, List.reverse_cons, List.reverse_nil, List.nil_append,
    List.singleton_append, reversed, back]

theorem lex_instruction {content : List Char} (nonempty : content ≠ [])
    (noClose : '>' ∉ content) (rest : List Char) :
    lex ('<' :: '?' :: content ++ ['?', '>'] ++ rest) =
      .cons (if isDeclaration content then .declaration content else .instruction content)
        (lex rest) := by
  have step := instructionStep_append nonempty noClose rest
  rw [show '<' :: '?' :: content ++ ['?', '>'] ++ rest =
    '<' :: '?' :: (content ++ '?' :: '>' :: rest) by simp]
  exact lex_markup step

theorem lex_start {name : String} {attributes : List (String × String)} (rest : List Char)
    (ordinary : ElementName name) (keys : OrdinaryAttributes attributes) :
    lex ('<' :: (tagChars name attributes ++ '>' :: rest)) =
      .cons (.start (tagChars name attributes)) (lex rest) := by
  refine lex_markup ?_
  rw [markupStep_tagChars attributes ordinary]
  exact tagStep_start rest ordinary.toOrdinaryName keys.keys

theorem lex_empty {name : String} {attributes : List (String × String)} (rest : List Char)
    (ordinary : ElementName name) (keys : OrdinaryAttributes attributes) :
    lex ('<' :: (tagChars name attributes ++ '/' :: '>' :: rest)) =
      .cons (.empty (tagChars name attributes)) (lex rest) := by
  refine lex_markup ?_
  rw [markupStep_tagChars attributes ordinary]
  exact tagStep_empty rest ordinary.toOrdinaryName keys.keys

/-! ## Whole trees -/

/-- A scan with tokens in front. -/
def Scan.prepend (tokens : List Token) (scan : Scan) : Scan := ⟨tokens ++ scan.tokens, scan.fault⟩

@[simp] theorem Scan.prepend_cons (t : Token) (tokens : List Token) (scan : Scan) :
    scan.prepend (t :: tokens) = .cons t (scan.prepend tokens) := rfl

@[simp] theorem Scan.prepend_append (before after : List Token) (scan : Scan) :
    scan.prepend (before ++ after) = (scan.prepend after).prepend before := by
  simp [Scan.prepend]

/-- Text goes on up to the next markup or the end. -/
theorem lex_text (pending : List Char) {rest : List Char} (stop : ∀ c ∈ rest.head?, c = '<') :
    lex (escapeText pending ++ rest) = (lex rest).prepend (textTokens pending) := by
  by_cases empty : pending = []
  · subst empty
    rfl
  · obtain ⟨c, cs, written⟩ :=
      List.exists_cons_of_ne_nil fun none => empty (escapeText_eq_nil none)
    have noBracket : ∀ d ∈ c :: cs, d ≠ '<' := by
      rintro d mem rfl
      exact bracket_notMem_escapeText pending (written ▸ mem)
    have inside : ∀ d ∈ cs, (d != '<') = true := by
      intro d mem
      exact bne_iff_ne.mpr (noBracket d (List.mem_cons_of_mem _ mem))
    have stops : ∀ d ∈ rest.head?, (d != '<') = false := by
      intro d mem
      rw [stop d mem]
      rfl
    rw [textTokens, if_neg empty, written, List.cons_append, lex,
      if_neg (noBracket c (List.mem_cons_self ..)), takeWhile_append_of_stop inside stops,
      dropWhile_append_of_stop inside stops]
    rfl

/-- A written element starts with an opening bracket. -/
theorem Element.exists_chars (e : Element) : ∃ cs, e.chars = '<' :: cs := by
  obtain ⟨name, attributes, _ | ⟨child, children⟩⟩ := e
  · exact ⟨_, rfl⟩
  · exact ⟨_, rfl⟩

theorem Element.chars_head (e : Element) (rest : List Char) :
    ∀ c ∈ (e.chars ++ rest).head?, c = '<' := by
  intro c mem
  obtain ⟨cs, start⟩ := e.exists_chars
  rw [start] at mem
  exact (Option.some.inj mem).symm

/-- Markup between two texts leaves its own token between theirs. -/
theorem lex_between (pending : List Char) {markup rest : List Char} {tokens after : List Token}
    {scan : Scan} (stop : ∀ c ∈ (markup ++ rest).head?, c = '<')
    (here : lex (markup ++ rest) = (lex rest).prepend tokens)
    (later : lex (escapeText [] ++ rest) = scan.prepend after) :
    lex (escapeText pending ++ (markup ++ rest)) =
      scan.prepend (textTokens pending ++ (tokens ++ after)) := by
  rw [lex_text pending stop, here, Scan.prepend_append, Scan.prepend_append]
  exact congrArg (fun found => (found.prepend tokens).prepend (textTokens pending)) later

mutual

/-- A written element is cut into its tokens. -/
theorem lex_element : ∀ (e : Element) (rest : List Char), e.Writable →
    lex (e.chars ++ rest) = (lex rest).prepend e.tokens
  | ⟨name, attributes, []⟩, rest, ⟨ordinary, keys, _⟩ => by
      have written : (⟨name, attributes, []⟩ : Element).chars ++ rest =
          '<' :: (tagChars name attributes ++ '/' :: '>' :: rest) := by
        simp only [Element.chars, tagChars, List.cons_append, List.append_assoc, List.nil_append]
      rw [written, lex_empty rest ordinary keys, Element.tokens]
      rfl
  | ⟨name, attributes, child :: children⟩, rest, ⟨ordinary, keys, inner⟩ => by
      have written : (⟨name, attributes, child :: children⟩ : Element).chars ++ rest =
          '<' :: (tagChars name attributes ++ '>' :: (nodesChars (child :: children) ++
            '<' :: '/' :: (name.toList ++ '>' :: rest))) := by
        simp only [Element.chars, nodesChars, tagChars, List.cons_append, List.append_assoc,
          List.nil_append]
      have stop : ∀ c ∈ ('<' :: '/' :: (name.toList ++ '>' :: rest)).head?, c = '<' := by
        intro c mem
        rw [List.head?_cons] at mem
        exact (Option.some.inj mem).symm
      have content := lex_nodes (child :: children) [] _ stop inner
      rw [lex_close ordinary.toOrdinaryName] at content
      rw [written, lex_start _ ordinary keys, Element.tokens, Scan.prepend_cons,
        Scan.prepend_append]
      exact congrArg _ content

/-- Written nodes after a pending text are cut into their tokens. -/
theorem lex_nodes : ∀ (nodes : List Node) (pending rest : List Char),
    (∀ c ∈ rest.head?, c = '<') → WritableNodes nodes →
    lex (escapeText pending ++ (nodesChars nodes ++ rest)) =
      (lex rest).prepend (nodesTokens pending nodes)
  | [], pending, rest, stop, _ => lex_text pending stop
  | .text chars :: nodes, pending, rest, stop, ⟨_, inner⟩ => by
      have joined : escapeText pending ++ (nodesChars (.text chars :: nodes) ++ rest) =
          escapeText (pending ++ chars.toList) ++ (nodesChars nodes ++ rest) := by
        rw [escapeText_append, List.append_assoc]
        exact congrArg _ (List.append_assoc ..)
      rw [joined]
      exact lex_nodes nodes (pending ++ chars.toList) rest stop inner
  | .element e :: nodes, pending, rest, stop, ⟨outer, inner⟩ => by
      have later := lex_nodes nodes [] rest stop inner
      have here := lex_element e (nodesChars nodes ++ rest) outer
      rw [nodesChars, List.append_assoc, nodesTokens]
      exact lex_between pending (e.chars_head _) here later
  | .cdata chars :: nodes, pending, rest, stop, ⟨outer, inner⟩ => by
      have later := lex_nodes nodes [] rest stop inner
      have here : lex (Node.chars (.cdata chars) ++ (nodesChars nodes ++ rest)) =
          (lex (nodesChars nodes ++ rest)).prepend [.cdata chars.toList] := lex_cdata outer _
      rw [nodesChars, List.append_assoc, nodesTokens]
      refine lex_between pending ?_ here later
      intro c mem
      exact (Option.some.inj mem).symm
  | .comment chars :: nodes, pending, rest, stop, ⟨outer, inner⟩ => by
      have later := lex_nodes nodes [] rest stop inner
      have here : lex (Node.chars (.comment chars) ++ (nodesChars nodes ++ rest)) =
          (lex (nodesChars nodes ++ rest)).prepend [.comment chars.toList] := lex_comment outer _
      rw [nodesChars, List.append_assoc, nodesTokens]
      refine lex_between pending ?_ here later
      intro c mem
      exact (Option.some.inj mem).symm
  | .instruction chars :: nodes, pending, rest, stop, ⟨⟨nonempty, noClose, kind⟩, inner⟩ => by
      have later := lex_nodes nodes [] rest stop inner
      have here : lex (Node.chars (.instruction chars) ++ (nodesChars nodes ++ rest)) =
          (lex (nodesChars nodes ++ rest)).prepend [.instruction chars.toList] := by
        have read := lex_instruction nonempty noClose (nodesChars nodes ++ rest)
        rw [kind] at read
        exact read
      rw [nodesChars, List.append_assoc, nodesTokens]
      refine lex_between pending ?_ here later
      intro c mem
      exact (Option.some.inj mem).symm

end

end SheetFill.Xml
