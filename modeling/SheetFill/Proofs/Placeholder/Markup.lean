import SheetFill.Proofs.Placeholder.Asks
import SheetFill.Proofs.SharedStrings.Items
import SheetFill.Proofs.Xml.Everywhere
import SheetFill.Proofs.Xml.Unescape

/-!
# What XML text asks for

In XML text the placeholders are those of the texts between the tags, with their bodies escaped, if
every placeholder that starts in one of these texts ends there and none starts elsewhere
(`asks_innerXml`). Texts that stand side by side count as one, since they are written as one.
-/

namespace SheetFill

open Xml

namespace Placeholder

/-! ## Escaped bodies -/

/-- A quoted key is quoted by a quotation mark. -/
def Context.Quoted : Context → Prop
  | .plain | .bracket => True
  | .quote mark | .escape mark => mark = '"' ∨ mark = '\''

theorem Context.Quoted.next {context : Context} (h : context.Quoted) (c : Char) :
    (context.next c).Quoted := by
  cases context with
  | plain =>
      rw [Context.next]
      split
      · trivial
      · trivial
  | bracket =>
      rw [Context.next]
      split
      · trivial
      · split
        · assumption
        · trivial
  | quote mark =>
      rw [Context.next]
      split
      · exact h
      · split
        · trivial
        · exact h
  | escape mark => exact h

/-- Characters without a closing brace are read one after another. -/
theorem closeBody?_run {run : List Char} (noBrace : '}' ∉ run) (context : Context)
    (cs : List Char) :
    closeBody? context (run ++ cs) = (closeBody? (run.foldl Context.next context) cs).map
      fun found => (run ++ found.1, found.2) := by
  induction run generalizing context with
  | nil =>
      rw [List.nil_append, List.foldl_nil]
      exact Option.map_id'.symm
  | cons c run ih =>
      have plain : ¬ (context.isOpen ∧ c = '}') :=
        fun ends => noBrace (ends.2 ▸ List.mem_cons_self ..)
      rw [List.cons_append, closeBody?, if_neg plain,
        ih fun mem => noBrace (List.mem_cons_of_mem _ mem), Option.map_map, List.foldl_cons]
      rfl

/-- The characters of text that are escaped, and their escapes. -/
def textEscapes : List (Char × List Char) :=
  [('&', "&amp;".toList), ('<', "&lt;".toList), ('>', "&gt;".toList)]

theorem escapeTextChar_cases (c : Char) :
    escapeTextChar c = [c] ∨ (c, escapeTextChar c) ∈ textEscapes := by
  rw [escapeTextChar]
  split
  · rename_i same
    exact .inr (same ▸ by decide)
  · split
    · rename_i same
      exact .inr (same ▸ by decide)
    · split
      · rename_i same
        exact .inr (same ▸ by decide)
      · exact .inl rfl

theorem escapeText_cons (c : Char) (cs : List Char) :
    escapeText (c :: cs) = escapeTextChar c ++ escapeText cs := List.flatMap_cons

/-- An escape is one character to the scan for the closing brace. -/
theorem foldl_next_escape {context : Context} (quoted : context.Quoted) :
    ∀ escape ∈ textEscapes, escape.2.foldl Context.next context = context.next escape.1 := by
  cases context with
  | plain => decide
  | bracket => decide
  | quote mark =>
      rcases quoted with rfl | rfl
      · decide
      · decide
  | escape mark =>
      rcases quoted with rfl | rfl
      · decide
      · decide

/-- The closing brace of escaped text is the one of the text. -/
theorem closeBody?_escapeText {context : Context} (quoted : context.Quoted) (cs : List Char) :
    closeBody? context (escapeText cs) = (closeBody? context cs).map
      fun found => (escapeText found.1, escapeText found.2) := by
  induction cs generalizing context with
  | nil => rfl
  | cons c cs ih =>
      have later := ih (quoted.next c)
      rw [escapeText_cons, closeBody?]
      by_cases ends : context.isOpen ∧ c = '}'
      · rw [if_pos ends]
        obtain ⟨isOpen, rfl⟩ := ends
        exact if_pos ⟨isOpen, rfl⟩
      · have step : closeBody? context (escapeTextChar c ++ escapeText cs) =
            (closeBody? (context.next c) (escapeText cs)).map
              fun found => (escapeTextChar c ++ found.1, found.2) := by
          rcases escapeTextChar_cases c with same | escape
          · rw [same, List.singleton_append, closeBody?, if_neg ends]
            rfl
          · have noBrace : ∀ escape ∈ textEscapes, '}' ∉ escape.2 := by decide
            rw [closeBody?_run (noBrace _ escape), foldl_next_escape quoted _ escape]
        rw [if_neg ends, step, later, Option.map_map, Option.map_map]
        refine congrArg (Option.map · _) (funext fun found => ?_)
        exact congrArg (·, _) (escapeText_cons c found.1).symm

/-- A body is found in escaped text with more behind it. -/
theorem closeBody?_escapeText_append {context : Context} (quoted : context.Quoted)
    {cs body rest : List Char} (found : closeBody? context cs = some (body, rest))
    (more : List Char) :
    closeBody? context (escapeText cs ++ more) =
      some (escapeText body, escapeText rest ++ more) := by
  refine closeBody?_append ?_ more
  rw [closeBody?_escapeText quoted, found]
  rfl

/-! ## Escapes resolved -/

/-- A character of text with some characters left as they are. -/
def escapeExcept (kept : List Char) (c : Char) : List Char :=
  if c ∈ kept then [c] else escapeTextChar c

theorem replaceAll_other {old new : List Char} (start : old.head? = some '&') {c : Char}
    (other : c ≠ '&') (more : List Char) :
    Text.replaceAll old new (c :: more) = c :: Text.replaceAll old new more := by
  obtain ⟨name, rfl⟩ := List.head?_eq_some_iff.mp start
  rw [Text.replaceAll, Text.dropStart?, if_neg fun same => other same.symm]

/-- Resolving one escape leaves the others alone. -/
theorem replaceAll_escape : ∀ mark ∈ textEscapes, ∀ escape ∈ textEscapes, ∀ more,
    Text.replaceAll mark.2 [mark.1] (escape.2 ++ more) =
      (if escape.1 = mark.1 then [escape.1] else escape.2) ++
        Text.replaceAll mark.2 [mark.1] more := by
  simp [textEscapes, Text.replaceAll, Text.dropStart?]

/-- Resolving an escape leaves one character less escaped. -/
theorem replaceAll_escapeExcept {mark : Char × List Char} (known : mark ∈ textEscapes)
    {kept : List Char} (escaped : '&' ∉ kept) (cs : List Char) :
    Text.replaceAll mark.2 [mark.1] (cs.flatMap (escapeExcept kept)) =
      cs.flatMap (escapeExcept (mark.1 :: kept)) := by
  have start : mark.2.head? = some '&' := by
    revert mark
    decide
  induction cs with
  | nil =>
      rw [List.flatMap_nil, Text.replaceAll]
      rfl
  | cons c cs ih =>
      rw [List.flatMap_cons, List.flatMap_cons, ← ih]
      by_cases left : c ∈ kept
      · have other : c ≠ '&' := fun same => escaped (same ▸ left)
        rw [escapeExcept, if_pos left, escapeExcept, if_pos (List.mem_cons_of_mem _ left)]
        exact replaceAll_other start other _
      · rw [escapeExcept, if_neg left]
        rcases escapeTextChar_cases c with same | escape
        · have other : c ≠ '&' := by
            rintro rfl
            cases same
          have itself : escapeExcept (mark.1 :: kept) c = [c] := by
            rw [escapeExcept]
            split
            · rfl
            · exact same
          rw [same, itself]
          exact replaceAll_other start other _
        · rw [replaceAll_escape mark known _ escape]
          refine congrArg (· ++ _) ?_
          rw [escapeExcept]
          by_cases resolved : c = mark.1
          · rw [if_pos resolved, if_pos (resolved ▸ List.mem_cons_self ..)]
          · rw [if_neg resolved, if_neg]
            exact fun mem => (List.mem_cons.mp mem).elim resolved left

theorem unescapeMarkup_escapeText (cs : List Char) : unescapeMarkup (escapeText cs) = cs := by
  have lessKnown : ('<', "&lt;".toList) ∈ textEscapes := by decide
  have greaterKnown : ('>', "&gt;".toList) ∈ textEscapes := by decide
  have ampersandKnown : ('&', "&amp;".toList) ∈ textEscapes := by decide
  have all : escapeText cs = cs.flatMap (escapeExcept []) := by
    refine List.flatMap_congr fun c _ => ?_
    rw [escapeExcept, if_neg List.not_mem_nil]
  have less := replaceAll_escapeExcept lessKnown List.not_mem_nil cs
  have greater := replaceAll_escapeExcept greaterKnown (by decide : '&' ∉ ['<']) cs
  have ampersand := replaceAll_escapeExcept ampersandKnown (by decide : '&' ∉ ['>', '<']) cs
  have none : cs.flatMap (escapeExcept ['&', '>', '<']) = cs := by
    refine Eq.trans (List.flatMap_congr fun c _ => ?_) (List.flatMap_singleton' cs)
    rw [escapeExcept]
    split
    · rfl
    · rename_i other
      have keys : ∀ escape ∈ textEscapes, escape.1 ∈ ['&', '>', '<'] := by decide
      exact (escapeTextChar_cases c).resolve_right fun escape => other (keys _ escape)
  rw [unescapeMarkup, all, less, greater, ampersand, none]

/-! ## Escaped text -/

/-- Characters are written as themselves or as an ampersand and more, with no dollar sign. -/
def Escapes (escape : Char → List Char) : Prop :=
  ∀ c, escape c = [c] ∨ ∃ name, escape c = '&' :: name ∧ '$' ∉ name

theorem escapes_text : Escapes escapeTextChar := by
  intro c
  rcases escapeTextChar_cases c with same | escape
  · exact .inl same
  · have start : ∀ escape ∈ textEscapes,
        '&' :: escape.2.tail = escape.2 ∧ '$' ∉ escape.2.tail := by decide
    exact .inr ⟨_, (start _ escape).1.symm, (start _ escape).2⟩

theorem escapes_attribute : Escapes escapeAttributeChar := by
  intro c
  rw [escapeAttributeChar]
  split
  · exact .inr ⟨_, rfl, by decide⟩
  · split
    · exact .inr ⟨_, rfl, by decide⟩
    · split
      · exact .inr ⟨_, rfl, by decide⟩
      · split
        · exact .inr ⟨_, rfl, by decide⟩
        · exact escapes_text c

section Escaped

variable {allowed : List Char → Prop} {escape : Char → List Char} {cs more : List Char}

/-- An opening brace comes first only where it was first before. -/
theorem head?_flatMap (escapes : Escapes escape) (start : cs.head? ≠ some '{')
    (apart : more.head? ≠ some '{') : (cs.flatMap escape ++ more).head? ≠ some '{' := by
  cases cs with
  | nil => exact apart
  | cons c cs =>
      rw [List.flatMap_cons]
      rcases escapes c with same | ⟨name, same, -⟩
      · rw [same]
        exact start
      · rw [same]
        intro brace
        cases brace

theorem noOpening_escape (escapes : Escapes escape) (c : Char) : NoOpening (escape c) := by
  rcases escapes c with same | ⟨name, same, noDollar⟩
  · rw [same]
    exact NoOpening.cons (fun _ brace => by cases brace) (noOpening_of_notMem List.not_mem_nil)
  · rw [same]
    exact noOpening_of_notMem (List.not_mem_cons_of_ne_of_not_mem (by decide) noDollar)

/-- A dollar sign is escaped as itself, and no other character ends in one. -/
theorem eq_dollar_of_escape (escapes : Escapes escape) {c : Char}
    (ends : (escape c).getLast? = some '$') : c = '$' := by
  rcases escapes c with same | ⟨name, same, noDollar⟩
  · rw [same] at ends
    exact Option.some.inj ends
  · rw [same] at ends
    have noDollar : '$' ∉ '&' :: name :=
      List.not_mem_cons_of_ne_of_not_mem (by decide) noDollar
    exact absurd (List.mem_of_getLast? ends) noDollar

/-- Escaping opens no placeholder. -/
theorem NoOpening.escaped (escapes : Escapes escape) (none : NoOpening cs) :
    NoOpening (cs.flatMap escape) := by
  induction cs with
  | nil => exact none
  | cons c cs ih =>
      have nothing : ([] : List Char).head? ≠ some '{' := by decide
      rw [List.flatMap_cons]
      refine (noOpening_escape escapes c).append (fun ends => ?_) (ih none.tail)
      have apart := head?_flatMap escapes (none.plain (eq_dollar_of_escape escapes ends)) nothing
      rwa [List.append_nil] at apart

/-- Escaped text asks for the bodies of its placeholders, escaped. -/
theorem Asks.text (closed : Closed cs)
    (bodies : ∀ body, .placeholder body ∈ pieces cs → allowed (escapeText body))
    (apart : more.head? ≠ some '{') (h : Asks allowed more) :
    Asks allowed (escapeText cs ++ more) := by
  induction cs using pieces.induct with
  | case1 => exact h
  | case2 cs body rest found ih =>
      rw [pieces_found found] at bodies
      have first := bodies body (List.mem_cons_self ..)
      have later := ih (closed.rest found) fun inner mem =>
        bodies inner (List.mem_cons_of_mem _ mem)
      have quoted : Context.plain.Quoted := trivial
      have found' := closeBody?_escapeText_append quoted found more
      intro inner mem
      rw [escapeText_cons, escapeText_cons] at mem
      rw [show escapeTextChar '$' ++ (escapeTextChar '{' ++ escapeText cs) ++ more =
        '$' :: '{' :: (escapeText cs ++ more) from rfl, pieces_found found'] at mem
      rcases List.mem_cons.mp mem with same | mem
      · cases same
        exact first
      · exact later inner mem
  | case3 cs unclosed =>
      obtain ⟨body, rest, found⟩ := closed.exists_body
      cases unclosed.symm.trans found
  | case4 c cs other ih =>
      have plain := head?_ne_of_forall other
      rw [pieces_cons plain] at bodies
      have later := ih (closed.tail plain) fun body mem =>
        bodies body (placeholder_mem_consText.mpr mem)
      rw [escapeText_cons, List.append_assoc]
      exact later.append (noOpening_escape escapes_text c) fun ends =>
        head?_flatMap escapes_text (plain (eq_dollar_of_escape escapes_text ends)) apart

end Escaped

/-! ## XML text -/

/-- The rule that placeholders stand in texts only, each of them in one text, and that their bodies
have a property. -/
def closedTexts (asked : String → Prop) : Rule :=
  ⟨fun name attributes => NoOpening name.toList ∧
      ∀ pair ∈ attributes, NoOpening pair.1.toList ∧ NoOpening pair.2.toList,
    fun node => ∃ chars, node = .text chars ∧ Closed chars.toList ∧
      ∀ body ∈ Placeholder.bodies chars, asked body⟩

/-- The body of a placeholder in XML text is split by markup, or stands for one with a property. -/
def AskedMarkup (asked : String → Prop) (body : List Char) : Prop :=
  '<' ∈ body ∨ asked (String.ofList (unescapeMarkup body))

theorem head?_cons_ne {c : Char} (other : c ≠ '{') (cs : List Char) :
    (c :: cs).head? ≠ some '{' := fun brace => other (Option.some.inj brace)

/-! ## Tags -/

section Tags

variable {asked : String → Prop} {name : String} {attributes : List (String × String)}

theorem NoOpening.cons_of_ne {c : Char} {cs : List Char} (other : c ≠ '$')
    (none : NoOpening cs) : NoOpening (c :: cs) := none.cons fun dollar => absurd dollar other

theorem noOpening_attribute {pair : String × String}
    (none : NoOpening pair.1.toList ∧ NoOpening pair.2.toList) :
    NoOpening (attributeChars pair) := by
  have ended : NoOpening ['"'] := by decide
  have quoted : NoOpening (escapeAttribute pair.2.toList ++ ['"']) :=
    (none.2.escaped escapes_attribute).append (fun _ => by decide) ended
  have valued : NoOpening ('=' :: '"' :: (escapeAttribute pair.2.toList ++ ['"'])) :=
    (quoted.cons_of_ne (by decide)).cons_of_ne (by decide)
  have keyed := (none.1.append (fun _ => head?_cons_ne (by decide) _) valued).cons_of_ne
    (c := ' ') (by decide)
  simpa [attributeChars] using keyed

theorem noOpening_attributes
    (none : ∀ pair ∈ attributes, NoOpening pair.1.toList ∧ NoOpening pair.2.toList) :
    NoOpening (attributes.flatMap attributeChars) := by
  induction attributes with
  | nil => decide
  | cons pair attributes ih =>
      obtain ⟨first, rest⟩ := List.forall_mem_cons.mp none
      rw [List.flatMap_cons]
      refine (noOpening_attribute first).append (fun ends => ?_) (ih rest)
      rw [attributeChars, List.getLast?_append] at ends
      cases ends

/-- In a tag no placeholder starts, up to its end. -/
theorem noOpening_tag (tag : (closedTexts asked).tag name attributes) :
    NoOpening ('<' :: name.toList ++ attributes.flatMap attributeChars) := by
  refine (tag.1.append (fun _ => ?_) (noOpening_attributes tag.2)).cons_of_ne (by decide)
  cases attributes with
  | nil => decide
  | cons pair attributes => exact head?_cons_ne (by decide) _

theorem noOpening_closeTag (none : NoOpening name.toList) :
    NoOpening ('<' :: '/' :: name.toList) :=
  (none.cons_of_ne (by decide)).cons_of_ne (by decide)

end Tags

/-! ## Elements -/

section Markup

variable {asked : String → Prop}

theorem asks_textNodes {pending : String}
    (obeys : NodesObey (closedTexts asked) (textNodes pending)) {more : List Char}
    (apart : more.head? ≠ some '{') (h : Asks (AskedMarkup asked) more) :
    Asks (AskedMarkup asked) (escapeText pending.toList ++ more) := by
  rw [textNodes] at obeys
  split at obeys
  · rename_i empty
    rw [empty]
    exact h
  · obtain ⟨chars, same, closed, bodies⟩ := obeys.1
    cases same
    refine Asks.text closed (fun body mem => .inr ?_) apart h
    rw [unescapeMarkup_escapeText]
    refine bodies _ (List.mem_map.mpr ⟨body, List.mem_filterMap.mpr ⟨_, mem, rfl⟩, rfl⟩)

theorem escapeText_empty : escapeText "".toList = [] := rfl

mutual

/-- An element asks for the placeholders of its texts, merged. -/
theorem asks_element : ∀ (e : Element) {more : List Char},
    e.merged.Obeys (closedTexts asked) → Asks (AskedMarkup asked) more →
      Asks (AskedMarkup asked) (e.chars ++ more)
  | ⟨name, attributes, []⟩, more, obeys, h => by
      rw [Element.merged] at obeys
      have ended := (h.cons_of_ne (c := '>') (by decide)).cons_of_ne (c := '/') (by decide)
      have tag := ended.append (noOpening_tag obeys.1) fun _ => head?_cons_ne (by decide) _
      simpa [Element.chars] using tag
  | ⟨name, attributes, child :: children⟩, more, obeys, h => by
      rw [Element.merged] at obeys
      have ended := h.cons_of_ne (c := '>') (by decide)
      have closed := ended.append (noOpening_closeTag obeys.1.1) fun _ =>
        head?_cons_ne (by decide) _
      have inside := asks_nodes (child :: children) "" obeys.2 (head?_cons_ne (by decide) _) closed
      have opened := (inside.cons_of_ne (c := '>') (by decide)).append (noOpening_tag obeys.1)
        fun _ => head?_cons_ne (by decide) _
      simpa [Element.chars, nodesChars, escapeText] using opened

/-- Nodes ask for the placeholders of their texts, merged with the text before them. -/
theorem asks_nodes : ∀ (nodes : List Node) (pending : String) {more : List Char},
    NodesObey (closedTexts asked) (mergeTexts pending nodes) → more.head? ≠ some '{' →
      Asks (AskedMarkup asked) more →
        Asks (AskedMarkup asked) (escapeText pending.toList ++ (nodesChars nodes ++ more))
  | [], pending, more, obeys, apart, h => by
      rw [mergeTexts] at obeys
      exact asks_textNodes obeys apart h
  | .text chars :: nodes, pending, more, obeys, apart, h => by
      rw [mergeTexts] at obeys
      have later := asks_nodes nodes (pending ++ chars) obeys apart h
      rw [String.toList_append, escapeText_append, List.append_assoc] at later
      rw [nodesChars, List.append_assoc]
      exact later
  | .element e :: nodes, pending, more, obeys, apart, h => by
      rw [mergeTexts, nodesObey_append, NodesObey, Node.Obeys] at obeys
      obtain ⟨before, inside, after⟩ := obeys
      have later := asks_nodes nodes "" after apart h
      rw [escapeText_empty, List.nil_append] at later
      have element := asks_element e inside later
      rw [nodesChars, List.append_assoc]
      refine asks_textNodes before ?_ element
      show (e.chars ++ (nodesChars nodes ++ more)).head? ≠ some '{'
      obtain ⟨cs, start⟩ := e.exists_chars
      rw [start, List.cons_append]
      exact head?_cons_ne (by decide) _
  | .cdata chars :: nodes, pending, more, obeys, _, _ => by
      rw [mergeTexts, nodesObey_append] at obeys
      obtain ⟨_, other, -⟩ := obeys.2.1
      cases other
  | .comment chars :: nodes, pending, more, obeys, _, _ => by
      rw [mergeTexts, nodesObey_append] at obeys
      obtain ⟨_, other, -⟩ := obeys.2.1
      cases other
  | .instruction chars :: nodes, pending, more, obeys, _, _ => by
      rw [mergeTexts, nodesObey_append] at obeys
      obtain ⟨_, other, -⟩ := obeys.2.1
      cases other

end

/-- The XML text of what is in an element asks for the placeholders of its texts, merged. -/
theorem asks_innerXml {e : Element} (obeys : e.merged.Obeys (closedTexts asked)) :
    Asks (AskedMarkup asked) e.innerXml.toList := by
  obtain ⟨name, attributes, children⟩ := e
  rw [Element.merged] at obeys
  have apart : ([] : List Char).head? ≠ some '{' := by decide
  have inside := asks_nodes children "" obeys.2 apart asks_nil
  rw [escapeText_empty, List.nil_append, List.append_nil] at inside
  rw [Element.innerXml, String.toList_ofList]
  exact inside

end Markup

end Placeholder

end SheetFill
