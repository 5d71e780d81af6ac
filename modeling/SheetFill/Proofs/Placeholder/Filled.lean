import SheetFill.Proofs.Placeholder.Markup
import SheetFill.Proofs.Xml.Texts

/-!
# XML text filled in

Replacing the placeholders in the XML text of a tree writes the tree with the placeholders of each
of its texts replaced (`replace_innerXml`). The bodies stand in the XML text escaped, and so do the
texts that are put in their place. This needs that every placeholder that starts in a text ends in
that text, and that none starts elsewhere.
-/

namespace SheetFill.Placeholder

open Xml

/-! ## Text in front -/

section Replace

variable {f : List Char → List Char}

theorem replace_consText (c : Char) (all : List Piece) :
    replace f (consText c all) = c :: replace f all := by
  rw [consText.eq_def]
  split
  · rfl
  · rfl

theorem replace_cons {c : Char} {cs : List Char} (plain : c = '$' → cs.head? ≠ some '{') :
    replace f (pieces (c :: cs)) = c :: replace f (pieces cs) := by
  rw [pieces_cons plain, replace_consText]

theorem replace_cons_of_ne {c : Char} (other : c ≠ '$') (cs : List Char) :
    replace f (pieces (c :: cs)) = c :: replace f (pieces cs) :=
  replace_cons fun dollar => absurd dollar other

/-- Text in front stays if no placeholder starts in it or where it ends. -/
theorem replace_append {before cs : List Char} (none : NoOpening before)
    (apart : before.getLast? = some '$' → cs.head? ≠ some '{') :
    replace f (pieces (before ++ cs)) = before ++ replace f (pieces cs) := by
  rw [pieces_append none apart]
  clear none apart
  induction before with
  | nil => rfl
  | cons c before ih => rw [List.foldr_cons, replace_consText, ih, List.cons_append]

end Replace

/-! ## Trees -/

/-- In place of an escaped body comes the text for the body, escaped. -/
def FillsEscaped (f : List Char → List Char) (textOf : String → String) : Prop :=
  ∀ body, f (escapeText body) = escapeText (textOf (String.ofList body)).toList

/-- Text from the data is put into XML text escaped. -/
theorem fillsEscaped_fillMarkup (data : Value) : FillsEscaped (fillMarkup data) data.textAt := by
  intro body
  have whole : ¬ (escapeText body).contains '<' = true := by
    rw [List.contains_iff_mem]
    exact bracket_notMem_escapeText body
  rw [fillMarkup, if_neg whole, unescapeMarkup_escapeText]

section Fill

variable {f : List Char → List Char} {textOf : String → String} {asked : String → Prop}

/-- In escaped text the placeholders are replaced as in the text itself. -/
theorem replace_escapeText (fills : FillsEscaped f textOf) {cs more : List Char}
    (closed : Closed cs) (apart : more.head? ≠ some '{') :
    replace f (pieces (escapeText cs ++ more)) =
      escapeText (replace (fun body => (textOf (String.ofList body)).toList) (pieces cs)) ++
        replace f (pieces more) := by
  induction cs using pieces.induct with
  | case1 =>
      rw [pieces]
      rfl
  | case2 cs body rest found ih =>
      have quoted : Context.plain.Quoted := trivial
      have found' := closeBody?_escapeText_append quoted found more
      have opened : escapeText ('$' :: '{' :: cs) ++ more = '$' :: '{' :: (escapeText cs ++ more) :=
        rfl
      -- The closing brace of the escaped body is the one of the body.
      rw [opened, pieces_found found', pieces_found found]
      show f (escapeText body) ++ replace f (pieces (escapeText rest ++ more)) =
        escapeText ((textOf (String.ofList body)).toList ++ replace _ (pieces rest)) ++ _
      rw [fills, ih (closed.rest found), escapeText_append, List.append_assoc]
  | case3 cs unclosed =>
      obtain ⟨body, rest, found⟩ := closed.exists_body
      cases unclosed.symm.trans found
  | case4 c cs other ih =>
      have plain := head?_ne_of_forall other
      rw [escapeText_cons, List.append_assoc, pieces_cons plain, replace_consText, escapeText_cons,
        List.append_assoc, ← ih (closed.tail plain)]
      exact replace_append (noOpening_escape escapes_text c) fun ends =>
        head?_flatMap escapes_text (plain (eq_dollar_of_escape escapes_text ends)) apart

theorem chars_text (chars : String) : (Node.text chars).chars = escapeText chars.toList := rfl

theorem chars_element (e : Element) : (Node.element e).chars = e.chars := rfl

/-- Nodes that do not start with a text do not start with a brace. -/
theorem head?_nodesChars {nodes : List Node} {more : List Char}
    (noText : startsWithText nodes = false) (apart : more.head? ≠ some '{') :
    (nodesChars nodes ++ more).head? ≠ some '{' := by
  cases nodes with
  | nil => exact apart
  | cons node nodes =>
      obtain ⟨cs, start⟩ : ∃ cs, node.chars = '<' :: cs := by
        cases node with
        | text chars => cases noText
        | element e => exact e.exists_chars
        | cdata chars => exact ⟨_, rfl⟩
        | comment chars => exact ⟨_, rfl⟩
        | instruction chars => exact ⟨_, rfl⟩
      rw [nodesChars, start]
      exact head?_cons_ne (by decide) _

mutual

/-- In the XML text of an element the placeholders of its texts are replaced. -/
theorem replace_element (fills : FillsEscaped f textOf) : ∀ (e : Element) {more : List Char},
    e.Obeys (closedTexts asked) → e.textsApart = true →
      replace f (pieces (e.chars ++ more)) =
        (e.bindTexts fun chars => [.text (expand chars textOf)]).chars ++ replace f (pieces more)
  | ⟨name, attributes, []⟩, more, ⟨tag, _⟩, _ => by
      have opened := replace_append (f := f) (noOpening_tag tag) fun _ =>
        head?_cons_ne (by decide : '/' ≠ '{') ('>' :: more)
      rw [replace_cons_of_ne (by decide), replace_cons_of_ne (by decide)] at opened
      simpa [Element.chars, Element.bindTexts, bindTextsIn] using opened
  | ⟨name, attributes, child :: children⟩, more, ⟨tag, inner⟩, apart => by
      have some := bindTextsIn_ne_nil (f := fun chars => [.text (expand chars textOf)])
        (fun _ => List.cons_ne_nil _ _) (List.cons_ne_nil child children)
      -- From the end tag back to the start tag: each part stands in front of one that is settled.
      have closed := replace_append (f := f) (noOpening_closeTag tag.1) fun _ =>
        head?_cons_ne (by decide : '>' ≠ '{') more
      rw [replace_cons_of_ne (by decide)] at closed
      have inside := replace_nodes fills (child :: children) inner apart
        (head?_cons_ne (by decide : '<' ≠ '{') ('/' :: name.toList ++ '>' :: more))
      have opened := replace_append (f := f) (noOpening_tag tag) fun _ =>
        head?_cons_ne (by decide : '>' ≠ '{')
          (nodesChars (child :: children) ++ ('<' :: '/' :: name.toList ++ '>' :: more))
      rw [replace_cons_of_ne (by decide)] at opened
      rw [Element.bindTexts, Element.chars_of_children (List.cons_ne_nil _ _),
        Element.chars_of_children some]
      simp only [List.append_assoc, List.cons_append, List.nil_append] at closed inside opened ⊢
      rw [opened, inside, closed]

/-- In the XML text of nodes the placeholders of their texts are replaced. -/
theorem replace_nodes (fills : FillsEscaped f textOf) : ∀ (nodes : List Node) {more : List Char},
    NodesObey (closedTexts asked) nodes → nodesApart nodes = true → more.head? ≠ some '{' →
      replace f (pieces (nodesChars nodes ++ more)) =
        nodesChars (bindTextsIn (fun chars => [.text (expand chars textOf)]) nodes) ++
          replace f (pieces more)
  | [], _, _, _, _ => rfl
  | .text _ :: nodes, more, ⟨⟨chars, same, closed, _⟩, inner⟩, apart, noBrace => by
      cases same
      rw [nodesApart, Bool.and_eq_true, Bool.not_eq_true'] at apart
      -- What follows is a tag or the end, so a dollar sign at the end of the text stays one.
      have first := head?_nodesChars apart.1 noBrace
      have later := replace_nodes fills nodes inner apart.2 noBrace
      rw [nodesChars, chars_text, List.append_assoc, replace_escapeText fills closed first, later]
      simp [nodesChars, bindTextsIn, Node.bindTexts, chars_text, expand]
  | .element e :: nodes, more, ⟨within, inner⟩, apart, noBrace => by
      rw [nodesApart, Bool.and_eq_true] at apart
      have later := replace_nodes fills nodes inner apart.2 noBrace
      rw [nodesChars, chars_element, List.append_assoc, replace_element fills e within apart.1,
        later]
      simp [nodesChars, bindTextsIn, Node.bindTexts, chars_element]
  | .cdata chars :: nodes, _, ⟨⟨_, other, _⟩, _⟩, _, _ => by cases other
  | .comment chars :: nodes, _, ⟨⟨_, other, _⟩, _⟩, _, _ => by cases other
  | .instruction chars :: nodes, _, ⟨⟨_, other, _⟩, _⟩, _, _ => by cases other

end

/-- In the XML text of what is in an element the placeholders of its texts are replaced. -/
theorem replace_innerXml (fills : FillsEscaped f textOf) {name : String}
    {attributes : List (String × String)} {children : List Node}
    (obeys : NodesObey (closedTexts asked) children) (apart : nodesApart children = true) :
    replace f (pieces (Element.innerXml ⟨name, attributes, children⟩).toList) =
      nodesChars (bindTextsIn (fun chars => [.text (expand chars textOf)]) children) := by
  have nothing : ([] : List Char).head? ≠ some '{' := by decide
  have inside := replace_nodes fills children obeys apart nothing
  rw [List.append_nil, pieces] at inside
  rw [Element.innerXml, String.toList_ofList, inside]
  exact List.append_nil _

end Fill

end SheetFill.Placeholder
