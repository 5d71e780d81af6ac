import SheetFill.Proofs.Xml.Elements
import SheetFill.Proofs.Xml.RoundTrip
import SheetFill.SharedStrings.Item

/-!
# What a reader sees of an item

Merging the texts of an item, as writing and reading does, changes nothing that a reader sees. A new
item shows the text it was made from, whatever characters that has, and filling a plain item fills
the text that it shows.
-/

namespace SheetFill

open Xml

/-! ## Merged texts -/

namespace Xml

theorem join_textNodes (chars : String) :
    String.join ((textNodes chars).map Node.charData) = chars := by
  rw [textNodes]
  split
  · rename_i empty
    rw [empty]
    rfl
  · simp [Node.charData]

theorem join_mergeTexts (pending : String) (nodes : List Node) :
    String.join ((mergeTexts pending nodes).map Node.charData) =
      pending ++ String.join (nodes.map Node.charData) := by
  induction nodes generalizing pending with
  | nil =>
      rw [mergeTexts, join_textNodes]
      simp
  | cons node nodes ih =>
      cases node with
      | text chars =>
          rw [mergeTexts, ih, List.map_cons, String.join_cons, String.append_assoc]
          rfl
      | element e => simp [mergeTexts, join_textNodes, ih, Node.charData]
      | cdata chars => simp [mergeTexts, join_textNodes, ih, Node.charData]
      | comment chars => simp [mergeTexts, join_textNodes, ih, Node.charData]
      | instruction chars => simp [mergeTexts, join_textNodes, ih, Node.charData]

theorem elements_textNodes (chars : String) :
    (textNodes chars).filterMap Node.element? = [] := by
  rw [textNodes]
  split
  · rfl
  · rfl

theorem elements_mergeTexts (pending : String) (nodes : List Node) :
    (mergeTexts pending nodes).filterMap Node.element? =
      (nodes.filterMap Node.element?).map Element.merged := by
  induction nodes generalizing pending with
  | nil => exact elements_textNodes pending
  | cons node nodes ih =>
      cases node with
      | text chars => exact ih _
      | element e => simp [mergeTexts, elements_textNodes, ih, Node.element?]
      | cdata chars =>
          rw [mergeTexts, List.filterMap_append, elements_textNodes]
          exact ih ""
      | comment chars =>
          rw [mergeTexts, List.filterMap_append, elements_textNodes]
          exact ih ""
      | instruction chars =>
          rw [mergeTexts, List.filterMap_append, elements_textNodes]
          exact ih ""

namespace Element

theorem name_merged (e : Element) : e.merged.name = e.name := by
  obtain ⟨name, attributes, children⟩ := e
  rw [merged]

theorem attr?_merged (e : Element) (key : String) : e.merged.attr? key = e.attr? key := by
  obtain ⟨name, attributes, children⟩ := e
  rw [merged]
  rfl

theorem text_merged (e : Element) : e.merged.text = e.text := by
  obtain ⟨name, attributes, children⟩ := e
  rw [merged, text, join_mergeTexts]
  exact String.empty_append

theorem elements_merged (e : Element) : e.merged.elements = e.elements.map merged := by
  obtain ⟨name, attributes, children⟩ := e
  rw [merged]
  exact elements_mergeTexts "" children

theorem child?_merged (e : Element) (name : String) :
    e.merged.child? name = (e.child? name).map merged := by
  rw [child?, elements_merged, List.find?_map, child?]
  have same : ((fun child : Element => child.name == name) ∘ merged) =
      fun child => child.name == name := by
    funext child
    rw [Function.comp_apply, name_merged]
  rw [same]

end Element

end Xml

theorem childText_merged (child : Element) : childText child.merged = childText child := by
  rw [childText, childText, child.name_merged, child.text_merged, child.child?_merged]
  cases child.child? "t" with
  | none => rfl
  | some t => rw [Option.map_some, Option.map_some, Option.map_some, t.text_merged]

/-- Writing an item and reading it again keeps what it shows. -/
theorem visibleText_merged (item : Element) : visibleText item.merged = visibleText item := by
  rw [visibleText, item.elements_merged, List.map_map, visibleText]
  exact congrArg String.join (List.map_congr_left fun child _ => childText_merged child)

/-! ## New items -/

theorem plainText_eq (text : String) :
    plainText text = ⟨"t", if keepsBlanks text then [("xml:space", "preserve")] else [],
      if text.isEmpty then [] else [.text text]⟩ := by
  cases blanks : keepsBlanks text with
  | true => cases empty : text.isEmpty <;> simp [plainText, blanks, empty] <;> rfl
  | false => cases empty : text.isEmpty <;> simp [plainText, blanks, empty] <;> rfl

theorem text_plainText (text : String) : (plainText text).text = text := by
  rw [plainText_eq, Element.text]
  cases empty : text.isEmpty with
  | true =>
      rw [String.isEmpty_iff] at empty
      rw [empty]
      rfl
  | false => simp [Node.charData]

/-- A new item shows its text. -/
theorem visibleText_plainItem (text : String) : visibleText (plainItem text) = text := by
  have named : (plainText text).name = "t" := by rw [plainText_eq]
  show String.join [childText (plainText text)] = text
  rw [childText, if_pos named, text_plainText, String.join_cons, String.join_nil,
    String.append_empty]

/-! ## Plain items -/

/-- An item with one text and no runs. -/
structure PlainItem (item : Element) : Prop where
  /-- It has one text. -/
  oneText : (item.elements.filter fun e => e.name == "t").length = 1
  /-- It has no runs. -/
  noRuns : ∀ e ∈ item.elements, e.name ≠ "r"

instance (item : Element) : Decidable (PlainItem item) :=
  decidable_of_iff ((item.elements.filter fun e => e.name == "t").length = 1 ∧
      ∀ e ∈ item.elements, e.name ≠ "r")
    ⟨fun h => ⟨h.1, h.2⟩, fun h => ⟨h.oneText, h.noRuns⟩⟩

theorem join_childText {children : List Element} (noRuns : ∀ e ∈ children, e.name ≠ "r") :
    String.join (children.map childText) =
      String.join ((children.filter fun e => e.name == "t").map Element.text) := by
  induction children with
  | nil => rfl
  | cons child children ih =>
      have rest := ih fun e mem => noRuns e (List.mem_cons_of_mem _ mem)
      have noRun := noRuns child (List.mem_cons_self ..)
      rw [List.map_cons, String.join_cons, rest, childText]
      by_cases isText : child.name = "t"
      · simp [isText]
      · simp [isText, noRun]

/-- A plain item shows the text of its one text. -/
theorem visibleText_of_filter {item t : Element} (noRuns : ∀ e ∈ item.elements, e.name ≠ "r")
    (one : item.elements.filter (fun e => e.name == "t") = [t]) : visibleText item = t.text := by
  rw [visibleText, join_childText noRuns, one, List.map_singleton, String.join_cons,
    String.join_nil, String.append_empty]

theorem PlainItem.hasChild_r {item : Element} (plain : PlainItem item) :
    item.hasChild "r" = false := by
  rw [Element.hasChild, Element.child?, Option.isSome_eq_false_iff, Option.isNone_iff_eq_none,
    List.find?_eq_none]
  intro e mem
  simpa using plain.noRuns e mem

/-- Filling a plain item fills the text that it shows. -/
theorem visibleText_fillItem {item : Element} (plain : PlainItem item) (data : Value) :
    visibleText (fillItem data item) = data.fill (visibleText item) := by
  obtain ⟨t, one⟩ := List.length_eq_one_iff.mp plain.oneText
  have keeps : ∀ child : Element, child.name = "t" →
      (plainText (data.fill child.text)).name = "t" := by
    intro child _
    rw [plainText_eq]
  have filled : (item.modifyChild "t" fun t => plainText (data.fill t.text)).elements.filter
      (fun e => e.name == "t") = [plainText (data.fill t.text)] := by
    rw [item.filter_eq_modifyChild keeps, one]
    rfl
  have noRuns : ∀ e ∈ (item.modifyChild "t" fun t => plainText (data.fill t.text)).elements,
      e.name ≠ "r" := by
    intro e mem run
    have others : e ∈ item.elements.filter fun child => child.name != "t" := by
      rw [← Element.filter_ne_modifyChild item keeps]
      exact List.mem_filter.mpr ⟨mem, by simp [run]⟩
    exact plain.noRuns e (List.mem_filter.mp others).1 run
  rw [fillItem, plain.hasChild_r]
  show visibleText (item.modifyChild "t" fun t => plainText (data.fill t.text)) = _
  rw [visibleText_of_filter noRuns filled, visibleText_of_filter plain.noRuns one, text_plainText]

end SheetFill
