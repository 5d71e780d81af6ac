import SheetFill.Proofs.Placeholder.Filled
import SheetFill.Proofs.SharedStrings.Regular
import SheetFill.Proofs.Xml.Accepted

/-!
# Filling items with runs

The placeholders of an item with runs are replaced in its XML text, and what comes out is read
again. This is the same as filling in the texts of the item one by one (`entries_of_regularRuns`),
whatever characters the texts of the data have: they are escaped before and read back after.
-/

namespace SheetFill

open Xml Placeholder

/-! ## Regular runs -/

/-- The rule that no placeholder starts in an attribute value, that all other nodes than elements
are texts, and that a placeholder that starts in a text ends in it. -/
def closedRuns : Rule :=
  ⟨fun _ attributes => ∀ pair ∈ attributes, NoOpening pair.2.toList,
    fun node => (textOf? node).isSome = true ∧ ∀ chars ∈ textOf? node, Closed chars.toList⟩

/-- The rule that no placeholder starts in a name. -/
def plainNames : Rule :=
  ⟨fun name attributes => NoOpening name.toList ∧ ∀ pair ∈ attributes, NoOpening pair.1.toList,
    fun _ => True⟩

/-- An item with runs in which each text has placeholders of its own. -/
structure RegularRuns (item : Element) : Prop where
  /-- There are runs. -/
  runs : item.hasChild "r" = true
  /-- Names and keys are ordinary. -/
  names : item.Obeys ordinaryNames
  /-- There are elements and texts only, and placeholders do not reach over markup. -/
  closed : item.Obeys closedRuns
  /-- No two texts stand side by side. -/
  apart : item.textsApart = true

instance : ∀ name attributes, Decidable (closedRuns.tag name attributes) :=
  fun _ attributes => inferInstanceAs (Decidable (∀ pair ∈ attributes, NoOpening pair.2.toList))

instance : DecidablePred closedRuns.leaf :=
  fun node => inferInstanceAs (Decidable ((textOf? node).isSome = true ∧
    ∀ chars ∈ textOf? node, Closed chars.toList))

instance : ∀ name attributes, Decidable (plainNames.tag name attributes) :=
  fun name attributes => inferInstanceAs (Decidable (NoOpening name.toList ∧
    ∀ pair ∈ attributes, NoOpening pair.1.toList))

instance : DecidablePred plainNames.leaf := fun _ => inferInstanceAs (Decidable True)

instance : ∀ name attributes, Decidable (ordinaryNames.tag name attributes) :=
  fun name attributes => inferInstanceAs (Decidable (OrdinaryName name ∧
    ∀ pair ∈ attributes, OrdinaryName pair.1))

instance : DecidablePred ordinaryNames.leaf := fun _ => inferInstanceAs (Decidable True)

instance : DecidablePred RegularRuns :=
  fun _ => decidable_of_iff (_ ∧ _ ∧ _ ∧ _)
    ⟨fun ⟨runs, names, closed, apart⟩ => ⟨runs, names, closed, apart⟩,
      fun regular => ⟨regular.runs, regular.names, regular.closed, regular.apart⟩⟩

theorem closedRuns_and_plainNames : (closedRuns.and plainNames).Implies (closedTexts fun _ => True)
    where
  tag := by
    rintro name attributes ⟨values, named, keys⟩
    exact ⟨named, fun pair mem => ⟨keys pair mem, values pair mem⟩⟩
  leaf := by
    rintro node ⟨⟨isText, closed⟩, -⟩
    obtain ⟨chars, found⟩ := Option.isSome_iff_exists.mp isText
    exact ⟨chars, eq_text_of_textOf? found, closed chars found, fun _ _ => trivial⟩

/-! ## Filling text by text -/

/-- An item with each of its texts filled in, and without those that are empty then. -/
def fillTexts (data : Value) (item : Element) : Element :=
  item.bindTexts fun chars => textNodes (data.fill chars)

/-- An item with runs is filled text by text. -/
theorem fillItem_of_regularRuns {item : Element} (sound : item.Obeys sound)
    (regular : RegularRuns item) (plain : item.Obeys plainNames) (data : Value) :
    fillItem data item = fillTexts data item := by
  have closed := (regular.closed.and plain).mono closedRuns_and_plainNames
  have writable := (sound.and regular.names).mono sound_and_ordinaryNames
  obtain ⟨name, attributes, children⟩ := item
  have inner : replace (fillMarkup data)
      (pieces (Element.innerXml ⟨name, attributes, children⟩).toList) =
        nodesChars (bindTextsIn (fun chars => [.text (data.fill chars)]) children) :=
    replace_innerXml (fillsEscaped_fillMarkup data) closed.2 regular.apart
  have texts : ∀ chars, NodesObey Xml.writable [.text (data.fill chars)] :=
    fun _ => ⟨trivial, trivial⟩
  have written := writableNodes_iff_obey.mpr (NodesObey.bindTexts texts writable.2)
  have nonempty : children ≠ [] := by
    rintro rfl
    exact Bool.false_ne_true regular.runs
  have some := bindTextsIn_ne_nil (fun chars => List.cons_ne_nil (.text (data.fill chars)) [])
    nonempty
  have read := Element.setInnerXml_nodesChars (e := ⟨name, attributes, children⟩) writable.1.1
    written some
  rw [mergeTexts_bindTextsIn data.fill children regular.apart] at read
  rw [fillItem, if_pos regular.runs, inner]
  simp only [read]
  rfl

namespace StringTable

/-- In the table, an item with runs that has placeholders and other text is filled text by text. -/
theorem entries_of_regularRuns {xml : String} {d : Document} (read : Document.read xml = .ok d)
    {i : Nat} {item : Element} (found : (sharedItems d)[i]? = some item)
    (regular : RegularRuns item) (plain : item.Obeys plainNames)
    (several : Placeholder.sole? (visibleText item) = none)
    (asks : Placeholder.occursIn (visibleText item) = true) (data : Value) :
    (ofDocument (some d) data).entries[i]? = some ⟨fillTexts data item, .mixed⟩ := by
  have inside : item ∈ d.root.elements := (List.mem_filter.mp (List.mem_of_getElem? found)).1
  have sound := (Document.sound_of_read read).of_mem_elements inside
  have entry : (ofDocument (some d) data).entries[i]? = some (Entry.ofItem data item) := by
    show ((sharedItems d).map (Entry.ofItem data))[i]? = _
    rw [List.getElem?_map, found]
    rfl
  rw [entry, Entry.ofItem, several]
  show some (if _ then _ else _) = _
  rw [if_pos asks, fillItem_of_regularRuns sound regular plain]

/-- A label, a name and a note in three runs. -/
def clientRuns (client note : List Node) : Element := ⟨"si", [], [
  .element ⟨"r", [], [.element ⟨"rPr", [], [.element ⟨"b", [], []⟩]⟩,
    .element ⟨"t", [("xml:space", "preserve")], [.text "Client: "]⟩]⟩,
  .element ⟨"r", [], [.element ⟨"t", [], client⟩]⟩,
  .element ⟨"r", [], [.element ⟨"t", [], note⟩]⟩]⟩

/-- A part with placeholders for the name and the note, as it is written. -/
def clientPart : String :=
  "<sst><si><r><rPr><b/></rPr><t xml:space=\"preserve\">Client: </t></r>" ++
    "<r><t>${client}</t></r><r><t>${note}</t></r></si></sst>"

/-- Markup in a text of the data stays text, and the text of the missing note is removed. -/
theorem entries_of_regularRuns_client :
    let item := clientRuns [.text "${client}"] [.text "${note}"]
    let d : Document := ⟨none, ⟨"sst", [], [.element item]⟩⟩
    let data : Value := .mapping [("client", .text "\"Smith\" & <Sons>")]
    Document.read clientPart = .ok d ∧ RegularRuns item ∧ item.Obeys plainNames ∧
      Placeholder.sole? (visibleText item) = none ∧
      Placeholder.occursIn (visibleText item) = true ∧
      (ofDocument (some d) data).entries[0]? =
        some ⟨clientRuns [.text "\"Smith\" & <Sons>"] [], .mixed⟩ := by
  intro item d data
  have read : Document.read clientPart = .ok d := by decide +kernel
  have regular : RegularRuns item := by decide +kernel
  have plain : item.Obeys plainNames := by decide +kernel
  have several : Placeholder.sole? (visibleText item) = none := by decide +kernel
  have asks : Placeholder.occursIn (visibleText item) = true := by decide +kernel
  have filled : fillTexts data item = clientRuns [.text "\"Smith\" & <Sons>"] [] := by
    decide +kernel
  refine ⟨read, regular, plain, several, asks, ?_⟩
  rw [← filled]
  exact entries_of_regularRuns read rfl regular plain several asks data

/-- A run with a format whose name has a placeholder in it. -/
def taggedRuns : Element := ⟨"si", [], [.element ⟨"r", [],
  [.element ⟨"rPr", [], [.element ⟨"b${x}", [], []⟩]⟩, .element ⟨"t", [], [.text "Total ${x}"]⟩]⟩]⟩

/-- In names placeholders are replaced too, so an item with such a name is not filled text by
text only. -/
theorem entries_of_taggedRuns :
    let d : Document := ⟨none, ⟨"sst", [], [.element taggedRuns]⟩⟩
    let data : Value := .mapping [("x", .text "v")]
    Document.read "<sst><si><r><rPr><b${x}/></rPr><t>Total ${x}</t></r></si></sst>" = .ok d ∧
      (sharedItems d)[0]? = some taggedRuns ∧ RegularRuns taggedRuns ∧
      Placeholder.sole? (visibleText taggedRuns) = none ∧
      Placeholder.occursIn (visibleText taggedRuns) = true ∧
      (ofDocument (some d) data).entries[0]? ≠ some ⟨fillTexts data taggedRuns, .mixed⟩ := by
  decide +kernel

end StringTable

end SheetFill
