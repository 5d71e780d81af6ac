import SheetFill.Proofs.Placeholder.Markup
import SheetFill.SharedStrings.Table

/-!
# Regular items

In an item with runs the placeholders are looked for in its XML text. The item is regular if this
finds nothing that a reader of its text does not see as a placeholder (`Regular`). Then filling the
item asks for what its visible text asks for, and so does filling an item without runs
(`fillItem_congr`).
-/

namespace SheetFill

open Xml Placeholder

/-! ## The texts of an item -/

/-- The `t` elements that a reader sees the texts of, in a child of an item. -/
def readIn (child : Element) : List Element :=
  if child.name = "t" then [child]
  else if child.name = "r" then (child.child? "t").toList
  else []

/-- The text of a node, if it is a text node. -/
def textOf? : Node → Option String
  | .text chars => some chars
  | _ => none

/-- The text nodes among the children of an element. -/
def directTexts (t : Element) : List String := t.children.filterMap textOf?

/-- An element without the text nodes among its children. -/
def hideTexts (t : Element) : Element :=
  { t with children := t.children.filter fun node => (textOf? node).isNone }

/-- A child of an item without the text nodes that a reader sees. -/
def hideIn (child : Element) : Element :=
  if child.name = "t" then hideTexts child
  else if child.name = "r" then child.modifyChild "t" hideTexts
  else child

/-- The rule that there are elements and text nodes only. -/
def onlyTexts : Rule := ⟨fun _ _ => True, fun node => (textOf? node).isSome⟩

/-- The rule that no placeholder starts in a text node or within a tag. -/
def noOpenings : Rule :=
  ⟨fun name attributes => NoOpening name.toList ∧
      ∀ pair ∈ attributes, NoOpening pair.1.toList ∧ NoOpening pair.2.toList,
    fun node => ∀ chars ∈ textOf? node, NoOpening chars.toList⟩

/-- The placeholders of an item are those that a reader of its text sees. -/
structure Regular (item : Element) : Prop where
  /-- There are elements and text nodes only. -/
  nodes : item.Obeys onlyTexts
  /-- Placeholders start in the text nodes that a reader sees only. -/
  openings : (item.mapElements hideIn).Obeys noOpenings
  /-- They end in the same text node. -/
  closed : ∀ text ∈ (item.elements.flatMap readIn).flatMap directTexts, Closed text.toList
  /-- The visible text has the placeholders of these text nodes. -/
  bodies : Placeholder.bodies (visibleText item) =
    ((item.elements.flatMap readIn).flatMap directTexts).flatMap Placeholder.bodies

instance : ∀ name attributes, Decidable (onlyTexts.tag name attributes) :=
  fun _ _ => inferInstanceAs (Decidable True)

instance : DecidablePred onlyTexts.leaf :=
  fun node => inferInstanceAs (Decidable ((textOf? node).isSome = true))

instance : ∀ name attributes, Decidable (noOpenings.tag name attributes) :=
  fun name attributes => inferInstanceAs (Decidable (NoOpening name.toList ∧
    ∀ pair ∈ attributes, NoOpening pair.1.toList ∧ NoOpening pair.2.toList))

instance : DecidablePred noOpenings.leaf :=
  fun node => inferInstanceAs (Decidable (∀ chars ∈ textOf? node, NoOpening chars.toList))

instance : DecidablePred Regular :=
  fun _ => decidable_of_iff (_ ∧ _ ∧ _ ∧ _)
    ⟨fun ⟨nodes, openings, closed, bodies⟩ => ⟨nodes, openings, closed, bodies⟩,
      fun regular => ⟨regular.nodes, regular.openings, regular.closed, regular.bodies⟩⟩

theorem eq_text_of_textOf? {node : Node} {chars : String} (found : textOf? node = some chars) :
    node = .text chars := by
  cases node <;> cases found
  rfl

/-! ## One rule for all texts -/

section Rules

variable {asked : String → Prop}

theorem onlyTexts_and_noOpenings : (onlyTexts.and noOpenings).Implies (closedTexts asked) where
  tag _ _ h := h.2
  leaf := by
    rintro node ⟨isText, plain⟩
    obtain ⟨chars, found⟩ := Option.isSome_iff_exists.mp isText
    have none : NoOpening chars.toList := plain chars found
    cases eq_text_of_textOf? found
    refine ⟨chars, rfl, none.closed, fun body mem => ?_⟩
    obtain ⟨cs, mem, -⟩ := List.mem_map.mp mem
    obtain ⟨piece, mem, isBody⟩ := List.mem_filterMap.mp mem
    cases piece with
    | text chars => cases isBody
    | placeholder body => exact absurd mem (none.notMem body)

/-- The texts of an element that are seen are closed, and the others have no placeholders. -/
theorem obeys_of_hideTexts {t : Element} (nodes : t.Obeys onlyTexts)
    (openings : (hideTexts t).Obeys noOpenings)
    (texts : ∀ text ∈ directTexts t,
      Closed text.toList ∧ ∀ body ∈ Placeholder.bodies text, asked body) :
    t.Obeys (closedTexts asked) := by
  rw [Element.obeys_iff] at nodes openings ⊢
  refine ⟨openings.1, fun node mem => ?_⟩
  cases found : textOf? node with
  | some chars =>
      have direct : chars ∈ directTexts t := List.mem_filterMap.mpr ⟨_, mem, found⟩
      cases eq_text_of_textOf? found
      exact ⟨chars, rfl, texts chars direct⟩
  | none =>
      have kept : node ∈ (hideTexts t).children :=
        List.mem_filter.mpr ⟨mem, Option.isNone_iff_eq_none.mpr found⟩
      exact ((nodes.2 node mem).and (openings.2 node kept)).mono onlyTexts_and_noOpenings

/-- A child stays when the first child of a name is changed, or it is the changed one. -/
theorem mem_modifyFirst_of_mem {nodes : List Node} (name : String) (f : Element → Element)
    {node : Node} (mem : node ∈ nodes) :
    node ∈ Element.modifyFirst name f nodes ∨
      ∃ child, node = .element child ∧
        (nodes.filterMap Node.element?).find? (·.name == name) = some child ∧
        .element (f child) ∈ Element.modifyFirst name f nodes := by
  induction nodes with
  | nil => cases mem
  | cons first nodes ih =>
      have keep : (∀ e, first = .element e → e.name ≠ name) →
          Element.modifyFirst name f (first :: nodes) =
            first :: Element.modifyFirst name f nodes ∧
          ((first :: nodes).filterMap Node.element?).find? (·.name == name) =
            (nodes.filterMap Node.element?).find? (·.name == name) := by
        intro other
        cases first with
        | element e =>
            have different := other e rfl
            exact ⟨by rw [Element.modifyFirst, if_neg different],
              by simp [Node.element?, different]⟩
        | text chars => exact ⟨rfl, rfl⟩
        | cdata chars => exact ⟨rfl, rfl⟩
        | comment chars => exact ⟨rfl, rfl⟩
        | instruction chars => exact ⟨rfl, rfl⟩
      by_cases here : ∃ e, first = .element e ∧ e.name = name
      · obtain ⟨e, rfl, same⟩ := here
        rw [Element.modifyFirst, if_pos same]
        rcases List.mem_cons.mp mem with rfl | mem
        · exact .inr ⟨e, rfl, by simp [Node.element?, same], List.mem_cons_self ..⟩
        · exact .inl (List.mem_cons_of_mem _ mem)
      · obtain ⟨changed, found⟩ := keep fun e same named => here ⟨e, same, named⟩
        rw [changed, found]
        rcases List.mem_cons.mp mem with rfl | mem
        · exact .inl (List.mem_cons_self ..)
        · rcases ih mem with kept | ⟨child, same, first, kept⟩
          · exact .inl (List.mem_cons_of_mem _ kept)
          · exact .inr ⟨child, same, first, List.mem_cons_of_mem _ kept⟩

theorem obeys_of_hideIn {child : Element} (nodes : child.Obeys onlyTexts)
    (openings : (hideIn child).Obeys noOpenings)
    (texts : ∀ t ∈ readIn child, ∀ text ∈ directTexts t,
      Closed text.toList ∧ ∀ body ∈ Placeholder.bodies text, asked body) :
    child.Obeys (closedTexts asked) := by
  rw [hideIn] at openings
  rw [readIn] at texts
  split at openings
  · rename_i isText
    rw [if_pos isText] at texts
    exact obeys_of_hideTexts nodes openings (texts child (List.mem_singleton_self _))
  · rename_i noText
    rw [if_neg noText] at texts
    split at openings
    · rename_i isRun
      rw [if_pos isRun] at texts
      rw [Element.obeys_iff] at nodes openings ⊢
      refine ⟨openings.1, fun node mem => ?_⟩
      rcases mem_modifyFirst_of_mem "t" hideTexts mem with kept | ⟨t, rfl, first, hidden⟩
      · exact ((nodes.2 node mem).and (openings.2 node kept)).mono onlyTexts_and_noOpenings
      · exact obeys_of_hideTexts (nodes.2 _ mem) (openings.2 _ hidden)
          (texts t (Option.mem_toList.mpr first))
    · exact (nodes.and openings).mono onlyTexts_and_noOpenings

/-- All texts of a regular item ask for placeholders of the visible text. -/
theorem Regular.obeys {item : Element} (regular : Regular item) :
    item.Obeys (closedTexts (· ∈ Placeholder.bodies (visibleText item))) := by
  have nodes := Element.obeys_iff.mp regular.nodes
  have openings := Element.obeys_iff.mp regular.openings
  refine Element.obeys_iff.mpr ⟨openings.1, fun node mem => ?_⟩
  have only := nodes.2 node mem
  have hidden := openings.2 _ (List.mem_map.mpr ⟨node, mem, rfl⟩)
  cases node with
  | element child =>
      have inside : child ∈ item.elements := List.mem_filterMap.mpr ⟨_, mem, rfl⟩
      refine obeys_of_hideIn only hidden fun t read text direct => ?_
      have here : text ∈ (item.elements.flatMap readIn).flatMap directTexts :=
        List.mem_flatMap.mpr ⟨t, List.mem_flatMap.mpr ⟨child, inside, read⟩, direct⟩
      refine ⟨regular.closed text here, fun body mem => ?_⟩
      rw [regular.bodies]
      exact List.mem_flatMap.mpr ⟨text, here, mem⟩
  | text chars => exact (Node.Obeys.and only hidden).mono onlyTexts_and_noOpenings
  | cdata chars => exact (Node.Obeys.and only hidden).mono onlyTexts_and_noOpenings
  | comment chars => exact (Node.Obeys.and only hidden).mono onlyTexts_and_noOpenings
  | instruction chars => exact (Node.Obeys.and only hidden).mono onlyTexts_and_noOpenings

end Rules

/-! ## Filling an item -/

section Fill

variable {a b : Value} {item : Element}

theorem replace_congr {f g : List Char → List Char} {all : List Piece}
    (same : ∀ body, .placeholder body ∈ all → f body = g body) :
    replace f all = replace g all := by
  refine List.flatMap_congr fun piece mem => ?_
  cases piece with
  | text chars => rfl
  | placeholder body => exact same body mem

theorem mem_bodies {text : String} {body : List Char}
    (mem : .placeholder body ∈ pieces text.toList) :
    String.ofList body ∈ Placeholder.bodies text :=
  List.mem_map.mpr ⟨body, List.mem_filterMap.mpr ⟨_, mem, rfl⟩, rfl⟩

/-- The placeholders of a text are among those of a longer one. -/
theorem mem_bodies_append {text body : String} (mem : body ∈ Placeholder.bodies text)
    (more : String) : body ∈ Placeholder.bodies (text ++ more) := by
  obtain ⟨cs, found, rfl⟩ := List.mem_map.mp mem
  obtain ⟨piece, here, isBody⟩ := List.mem_filterMap.mp found
  cases piece with
  | text chars => cases isBody
  | placeholder inner =>
      cases isBody
      refine mem_bodies ?_
      rw [String.toList_append]
      exact mem_pieces_append here _

theorem fill_congr {text : String}
    (same : ∀ body ∈ Placeholder.bodies text, a.textAt body = b.textAt body) :
    a.fill text = b.fill text :=
  congrArg String.ofList (replace_congr fun _ mem => congrArg String.toList (same _ (mem_bodies mem)))

/-- An item without runs shows the text of its first `t` first. -/
theorem visibleText_of_child? {t : Element} (noRuns : item.hasChild "r" = false)
    (found : item.child? "t" = some t) : ∃ more, visibleText item = t.text ++ more := by
  have noRuns : ∀ e ∈ item.elements, e.name ≠ "r" := by
    rw [Element.hasChild, Element.child?, Option.isSome_eq_false_iff, Option.isNone_iff_eq_none,
      List.find?_eq_none] at noRuns
    exact fun e mem same => noRuns e mem (beq_of_eq same)
  have first : (item.elements.filter fun e => e.name == "t").head? = some t := by
    rw [List.head?_filter]
    exact found
  obtain ⟨others, split⟩ := List.head?_eq_some_iff.mp first
  exact ⟨_, by rw [visibleText, join_childText noRuns, split, List.map_cons, String.join_cons]⟩

/-- Filling an item asks for the placeholders of its visible text, if it has no runs or is
regular. -/
theorem fillItem_congr (regular : item.hasChild "r" = true → Regular item.merged)
    (same : ∀ body ∈ Placeholder.bodies (visibleText item), a.textAt body = b.textAt body) :
    fillItem a item = fillItem b item := by
  rw [fillItem, fillItem]
  cases runs : item.hasChild "r" with
  | true =>
      have asks := asks_innerXml (regular runs).obeys
      have inner : replace (fillMarkup a) (pieces item.innerXml.toList) =
          replace (fillMarkup b) (pieces item.innerXml.toList) := by
        refine replace_congr fun body mem => ?_
        rw [fillMarkup, fillMarkup]
        split
        · rfl
        · rename_i whole
          rcases asks body mem with split | asked
          · exact absurd (List.contains_iff_mem.mpr split) whole
          · rw [visibleText_merged] at asked
            rw [same _ asked]
      rw [if_pos rfl, if_pos rfl, inner]
  | false =>
      rw [if_neg Bool.false_ne_true, if_neg Bool.false_ne_true]
      refine Element.modifyChild_congr fun t found =>
        congrArg plainText (fill_congr fun body mem => ?_)
      obtain ⟨more, shown⟩ := visibleText_of_child? runs found
      exact same body (shown ▸ mem_bodies_append mem more)

end Fill

end SheetFill
