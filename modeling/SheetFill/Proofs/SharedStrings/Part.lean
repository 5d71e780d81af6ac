import SheetFill.Proofs.SharedStrings.Growth
import SheetFill.Proofs.SharedStrings.Items

/-!
# Reading the written table of strings

The part of the table is written once, after all sheets. If the part of the template can be written
and its items are plain, then the part of the table can be read back, and the item with an index
shows the text that the table has under that index (`texts_read`). Texts of the data go through
unchanged, with all the markup characters that they may have.
-/

namespace SheetFill

open Xml

/-! ## Elements that can be written -/

namespace Xml

theorem writableNodes_iff {nodes : List Node} :
    WritableNodes nodes ↔ ∀ node ∈ nodes, node.Writable := by
  induction nodes with
  | nil =>
      refine ⟨fun _ node mem => ?_, fun _ => trivial⟩
      cases mem
  | cons node nodes ih =>
      constructor
      · intro h n mem
        rcases List.mem_cons.mp mem with rfl | mem
        · exact h.1
        · exact ih.mp h.2 n mem
      · intro h
        exact ⟨h node (List.mem_cons_self ..), ih.mpr fun n mem => h n (List.mem_cons_of_mem _ mem)⟩

theorem Element.writable_iff {e : Element} : e.Writable ↔
    ElementName e.name ∧ OrdinaryAttributes e.attributes ∧ ∀ node ∈ e.children, node.Writable := by
  obtain ⟨name, attributes, children⟩ := e
  rw [Element.Writable, writableNodes_iff]

theorem mem_setIn {key value : String} {attributes : List (String × String)}
    {pair : String × String} (mem : pair ∈ Element.setIn key value attributes) :
    pair.1 = key ∨ pair ∈ attributes := by
  induction attributes with
  | nil =>
      rw [List.mem_singleton.mp mem]
      exact Or.inl rfl
  | cons first attributes ih =>
      obtain ⟨k, v⟩ := first
      rw [Element.setIn] at mem
      split at mem
      · rename_i same
        rcases List.mem_cons.mp mem with rfl | mem
        · exact Or.inl same
        · exact Or.inr (List.mem_cons_of_mem _ mem)
      · rcases List.mem_cons.mp mem with rfl | mem
        · exact Or.inr (List.mem_cons_self ..)
        · rcases ih mem with same | mem
          · exact Or.inl same
          · exact Or.inr (List.mem_cons_of_mem _ mem)

theorem nodup_setIn {attributes : List (String × String)} (key value : String)
    (distinct : (attributes.map (·.1)).Nodup) :
    ((Element.setIn key value attributes).map (·.1)).Nodup := by
  induction attributes with
  | nil => exact List.pairwise_singleton _ _
  | cons first attributes ih =>
      obtain ⟨k, v⟩ := first
      rw [Element.setIn]
      split
      · exact distinct
      · rename_i different
        obtain ⟨fresh, others⟩ := List.nodup_cons.mp distinct
        refine List.nodup_cons.mpr ⟨?_, ih others⟩
        intro mem
        obtain ⟨pair, mem, same⟩ := List.mem_map.mp mem
        rcases mem_setIn mem with isKey | mem
        · exact different (same.symm.trans isKey)
        · exact fresh (List.mem_map.mpr ⟨pair, mem, same⟩)

theorem OrdinaryAttributes.setIn {attributes : List (String × String)} {key : String}
    (h : OrdinaryAttributes attributes) (ordinary : OrdinaryName key) (value : String) :
    OrdinaryAttributes (Element.setIn key value attributes) where
  keys := by
    intro pair mem
    rcases mem_setIn mem with same | mem
    · rw [same]
      exact ordinary
    · exact h.keys pair mem
  distinct := nodup_setIn key value h.distinct

theorem Element.Writable.setAttr {e : Element} {key : String} (h : e.Writable)
    (ordinary : OrdinaryName key) (value : String) : (e.setAttr key value).Writable := by
  rw [Element.writable_iff] at h ⊢
  exact ⟨h.1, h.2.1.setIn ordinary value, h.2.2⟩

theorem mem_modifyFirst {name : String} {f : Element → Element} {nodes : List Node} {node : Node}
    (mem : node ∈ Element.modifyFirst name f nodes) :
    node ∈ nodes ∨ ∃ child, .element child ∈ nodes ∧ node = .element (f child) := by
  induction nodes with
  | nil => cases mem
  | cons first nodes ih =>
      have later : node ∈ Element.modifyFirst name f nodes →
          node ∈ first :: nodes ∨
            ∃ child, .element child ∈ first :: nodes ∧ node = .element (f child) := by
        intro mem
        rcases ih mem with mem | ⟨child, mem, same⟩
        · exact Or.inl (List.mem_cons_of_mem _ mem)
        · exact Or.inr ⟨child, List.mem_cons_of_mem _ mem, same⟩
      have here : node = first → node ∈ first :: nodes ∨
          ∃ child, .element child ∈ first :: nodes ∧ node = .element (f child) := by
        intro same
        exact Or.inl (same ▸ List.mem_cons_self ..)
      cases first with
      | element child =>
          rw [Element.modifyFirst] at mem
          split at mem
          · rcases List.mem_cons.mp mem with same | mem
            · exact Or.inr ⟨child, List.mem_cons_self .., same⟩
            · exact Or.inl (List.mem_cons_of_mem _ mem)
          · exact (List.mem_cons.mp mem).elim here later
      | text chars => exact (List.mem_cons.mp mem).elim here later
      | cdata chars => exact (List.mem_cons.mp mem).elim here later
      | comment chars => exact (List.mem_cons.mp mem).elim here later
      | instruction chars => exact (List.mem_cons.mp mem).elim here later

theorem Element.Writable.modifyChild {e : Element} {f : Element → Element} (h : e.Writable)
    (name : String) (keeps : ∀ child, (f child).Writable) : (e.modifyChild name f).Writable := by
  rw [Element.writable_iff] at h ⊢
  refine ⟨h.1, h.2.1, fun node mem => ?_⟩
  rcases mem_modifyFirst mem with mem | ⟨child, -, rfl⟩
  · exact h.2.2 node mem
  · exact keeps child

theorem Element.Writable.of_mem_elements {e child : Element} (h : e.Writable)
    (mem : child ∈ e.elements) : child.Writable := by
  obtain ⟨node, mem, same⟩ := List.mem_filterMap.mp mem
  have written := (Element.writable_iff.mp h).2.2 node mem
  cases node with
  | element e =>
      cases same
      exact written
  | text chars => cases same
  | cdata chars => cases same
  | comment chars => cases same
  | instruction chars => cases same

end Xml

/-! ## The items of the part -/

theorem writable_plainText (text : String) : (plainText text).Writable := by
  have name : ElementName "t" := by decide
  have none : OrdinaryAttributes [] := by decide
  have preserve : OrdinaryAttributes [("xml:space", "preserve")] := by decide
  rw [plainText_eq, Element.writable_iff]
  refine ⟨name, ?_, ?_⟩
  · cases keepsBlanks text with
    | true => exact preserve
    | false => exact none
  · cases text.isEmpty with
    | true =>
        intro node mem
        cases mem
    | false =>
        intro node mem
        rw [List.mem_singleton.mp mem]
        trivial

theorem writable_plainItem (text : String) : (plainItem text).Writable := by
  have name : ElementName "si" := by decide
  have none : OrdinaryAttributes [] := by decide
  rw [Element.writable_iff]
  refine ⟨name, none, fun node mem => ?_⟩
  rw [List.mem_singleton.mp mem]
  exact writable_plainText text

/-- The items of a part of shared strings. -/
def sharedItems (d : Document) : List Element := d.root.elements.filter fun e => e.name == "si"

theorem name_fillItem (data : Value) (item : Element) :
    (fillItem data item).name = item.name := by
  rw [fillItem]
  split
  · simp only [Element.setInnerXml]
    cases Document.read _ <;> rfl
  · rfl

namespace Entry

variable {item : Element} (data : Value)

theorem writable_ofItem (plain : PlainItem item) (h : item.Writable) :
    (Entry.ofItem data item).item.Writable := by
  rw [ofItem]
  split
  · exact h
  · split
    · show (fillItem data item).Writable
      rw [fillItem, plain.hasChild_r]
      exact h.modifyChild "t" fun child => writable_plainText _
    · exact h

theorem name_ofItem (named : item.name = "si") : (Entry.ofItem data item).item.name = "si" := by
  rw [ofItem]
  split
  · exact named
  · split
    · exact (name_fillItem data item).trans named
    · exact named

end Entry

/-! ## The part -/

/-- A part of shared strings that can be written and has plain items only. -/
structure PlainPart (d : Document) : Prop where
  /-- It can be written. -/
  writable : d.Writable
  /-- Its items are plain. -/
  plain : ∀ item ∈ sharedItems d, PlainItem item

instance (d : Document) : Decidable (PlainPart d) :=
  decidable_of_iff (d.Writable ∧ ∀ item ∈ sharedItems d, PlainItem item)
    ⟨fun h => ⟨h.1, h.2⟩, fun h => ⟨h.writable, h.plain⟩⟩

namespace StringTable

/-- The texts of a table, as the reader of a cell should see them. -/
def texts (table : StringTable) : List String :=
  table.entries.map (fun entry => visibleText entry.item) ++ table.added

theorem texts_intern {table : StringTable} {text : String} (mem : text ∈ table.added) :
    table.texts[(table.intern text).1]? = some text := by
  have inside := List.idxOf_lt_length_iff.mpr mem
  rw [texts, intern, List.getElem?_append_right (by simp), List.length_map, Nat.add_sub_cancel_left,
    List.getElem?_eq_getElem inside, List.getElem_idxOf]

section Part

variable {document : Option Document} {data : Value} {table : StringTable}

/-- A table comes from a plain part; without one in the template, from the empty part. -/
theorem exists_plainPart (plain : ∀ d ∈ document, PlainPart d)
    (grown : (ofDocument document data).GrowsTo table) :
    ∃ d, PlainPart d ∧ table.document.getD emptyDocument = d ∧
      table.entries = (sharedItems d).map (Entry.ofItem data) := by
  rw [grown.document, grown.entries]
  cases document with
  | none => exact ⟨emptyDocument, by decide +kernel, rfl, rfl⟩
  | some d => exact ⟨d, plain d rfl, rfl, rfl⟩

/-- The entries of a table are the items of the template's part, planned against the data. -/
theorem GrowsTo.entries_eq (grown : (ofDocument document data).GrowsTo table) :
    table.entries = ((document.map sharedItems).getD []).map (Entry.ofItem data) := by
  rw [grown.entries]
  cases document <;> rfl

theorem sharedItems_toPart (grown : (ofDocument document data).GrowsTo table) :
    sharedItems table.toPart = table.entries.map Entry.item ++ table.added.map plainItem := by
  have named : ∀ item ∈ table.entries.map Entry.item ++ table.added.map plainItem,
      (item.name == "si") = true := by
    intro item mem
    rcases List.mem_append.mp mem with mem | mem
    · rw [grown.entries_eq, List.map_map] at mem
      obtain ⟨old, source, rfl⟩ := List.mem_map.mp mem
      have name : old.name = "si" := by
        cases document with
        | none => cases source
        | some d => exact eq_of_beq (List.mem_filter.mp source).2
      exact beq_of_eq (Entry.name_ofItem data name)
    · obtain ⟨text, -, rfl⟩ := List.mem_map.mp mem
      rfl
  have others : ((table.document.getD emptyDocument).root.elements.filter
      fun e => e.name != "si").filter (fun e => e.name == "si") = [] := by
    rw [List.filter_eq_nil_iff]
    intro e mem
    have other := (List.mem_filter.mp mem).2
    simpa using other
  rw [sharedItems, toPart]
  simp only [Element.elements_setAttr, Element.elements_children, List.filter_append, others,
    List.append_nil]
  rw [← List.filter_append]
  exact List.filter_eq_self.mpr named

theorem writable_toPart (plain : ∀ d ∈ document, PlainPart d)
    (grown : (ofDocument document data).GrowsTo table) : table.toPart.Writable := by
  obtain ⟨d, part, base, entries⟩ := exists_plainPart plain grown
  have root := Element.writable_iff.mp part.writable.root
  have items : ∀ item ∈ table.entries.map Entry.item ++ table.added.map plainItem,
      item.Writable := by
    intro item mem
    rcases List.mem_append.mp mem with mem | mem
    · rw [entries, List.map_map] at mem
      obtain ⟨old, source, rfl⟩ := List.mem_map.mp mem
      exact Entry.writable_ofItem data (part.plain old source)
        (part.writable.root.of_mem_elements (List.mem_filter.mp source).1)
    · obtain ⟨text, -, rfl⟩ := List.mem_map.mp mem
      exact writable_plainItem text
  have count : OrdinaryName "count" := by decide
  have uniqueCount : OrdinaryName "uniqueCount" := by decide
  rw [toPart, base]
  refine ⟨part.writable.declaration, ?_⟩
  refine Element.Writable.setAttr (Element.Writable.setAttr ?_ count _) uniqueCount _
  rw [Element.writable_iff]
  refine ⟨root.1, root.2.1, fun node mem => ?_⟩
  obtain ⟨e, source, rfl⟩ := List.mem_map.mp mem
  rcases List.mem_append.mp source with mem | mem
  · exact items e mem
  · exact part.writable.root.of_mem_elements (List.mem_filter.mp mem).1

/-- The written part is read back, and its items show the texts of the table. -/
theorem texts_read (plain : ∀ d ∈ document, PlainPart d)
    (grown : (ofDocument document data).GrowsTo table) :
    ∃ strings, Document.read table.toPart.toXml = .ok strings ∧
      (sharedItems strings).map visibleText = table.texts := by
  have writable := writable_toPart plain grown
  refine ⟨table.toPart.merged, ?_, ?_⟩
  · rw [Document.read, Document.scan_toXml writable, Document.steps_tokens writable]
    rfl
  · have items : sharedItems table.toPart.merged =
        (sharedItems table.toPart).map Element.merged := by
      show List.filter _ table.toPart.root.merged.elements = _
      rw [Element.elements_merged, List.filter_map, sharedItems]
      refine congrArg _ (List.filter_congr fun e _ => ?_)
      rw [Function.comp_apply, e.name_merged]
    have shown : ∀ item : Element, (visibleText ∘ Element.merged) item = visibleText item :=
      visibleText_merged
    have new : ∀ text : String, (visibleText ∘ plainItem) text = text := visibleText_plainItem
    rw [items, List.map_map, List.map_congr_left fun item _ => shown item,
      sharedItems_toPart grown, List.map_append, List.map_map, List.map_map, texts,
      List.map_congr_left fun text _ => new text, List.map_id']
    rfl

end Part

end StringTable

end SheetFill
