import SheetFill.Proofs.Folds
import SheetFill.Proofs.Template.Usable
import SheetFill.Proofs.Text.Numerals
import SheetFill.Proofs.Xml.TagOrder

/-!
# The table of shared strings is declared once

Each of the two lists in which the table is declared gets one element, behind all others, if it does
not declare the table yet. The relationships are read from the tags of the text and the list of
content types from its document, so what was there before stays because the tags of a document keep
their order. The identifier of the new relationship is a number above all others. A list that
declares the table is left alone, and one that was given the new element declares it.
-/

namespace SheetFill

open Xml

theorem Xml.Document.writable_push {text : String} {d : Document} {e : Element}
    (h : Document.read text = .ok d) (names : d.root.Obeys ordinaryNames)
    (new : e.Obeys writable) : (d.push e).Writable :=
  writable_withRoot h names ((obeys_writable_of_read h names).push new)

/-! ## Relationships of a document -/

namespace Relationship

variable {attributes : List (String × String)}

/-- The relationship that a tag with these attributes describes. -/
def ofTag? (attributes : List (String × String)) : Option Relationship :=
  ofAttributes? (attributes.map fun pair => (pair.1, some pair.2))

theorem exists_value? {key : String} (mem : key ∈ attributes.map Prod.fst) :
    ∃ value, value? (attributes.map fun pair => (pair.1, some pair.2)) key = some value ∧
      (key, value) ∈ attributes := by
  rw [value?_map, Element.attr?]
  obtain ⟨pair, listed, same⟩ := List.mem_map.mp mem
  have present : (attributes.find? fun pair => pair.1 == key).isSome := by
    rw [List.find?_isSome]
    exact ⟨pair, listed, beq_iff_eq.mpr same⟩
  obtain ⟨⟨key', value⟩, found⟩ := Option.isSome_iff_exists.mp present
  obtain rfl : key' = key := by simpa using List.find?_some found
  exact ⟨value, by rw [found]; rfl, List.mem_of_find?_eq_some found⟩

/-- A tag with all three attributes describes a relationship. -/
theorem exists_ofTag? (complete : ∀ key ∈ ["Id", "Type", "Target"], key ∈ attributes.map Prod.fst) :
    ∃ r, ofTag? attributes = some r ∧ ("Id", r.id) ∈ attributes := by
  obtain ⟨id, readId, mem⟩ := exists_value? (complete "Id" (by decide))
  obtain ⟨type, readType, -⟩ := exists_value? (complete "Type" (by decide))
  obtain ⟨target, readTarget, -⟩ := exists_value? (complete "Target" (by decide))
  exact ⟨⟨id, type, target⟩, by rw [ofTag?, ofAttributes?, readId, readType, readTarget], mem⟩

theorem map_ofTag? {tags : List (List (String × String))}
    (complete : ∀ tag ∈ tags, ∀ key ∈ ["Id", "Type", "Target"], key ∈ tag.map Prod.fst) :
    tags.map ofTag? = (tags.filterMap ofTag?).map some := by
  induction tags with
  | nil => rfl
  | cons tag tags ih =>
      obtain ⟨first, others⟩ := List.forall_mem_cons.mp complete
      obtain ⟨r, read, -⟩ := exists_ofTag? first
      rw [List.map_cons, List.filterMap_cons_some read, List.map_cons, ih others, read]

theorem readAll_of_tags {text : String} {d : Document} (h : Document.read text = .ok d) :
    readAll text = .ok ((d.root.tagsNamed "Relationship").filterMap ofTag?) := by
  rw [readAll, Document.startTags_of_tags h]
  dsimp only
  rw [List.filterMap_map]
  rfl

/-- A new relationship is the last one. -/
theorem readAll_push {text id : String} {d : Document} {listed : List Relationship}
    (h : Document.read text = .ok d)
    (written : (d.push (Workbook.stringsRelationship id)).Writable)
    (found : readAll text = .ok listed) :
    readAll (d.push (Workbook.stringsRelationship id)).toXml =
      .ok (listed ++ [⟨id, Workbook.stringsType, "sharedStrings.xml"⟩]) := by
  have own : ((Workbook.stringsRelationship id).tagsNamed "Relationship").filterMap ofTag? =
      [⟨id, Workbook.stringsType, "sharedStrings.xml"⟩] := by
    rfl
  rw [readAll_of_tags h] at found
  rw [readAll_of_tags (Document.read_toXml written), Document.merged, Document.push,
    Element.tagsNamed_merged, Element.tagsNamed_push, List.filterMap_append, own,
    Except.ok.inj found]

end Relationship

namespace Workbook

/-! ## Identifiers -/

theorem idNumber?_text {n : Nat} (small : n ≤ Text.Numeral.maxWord32) :
    idNumber? ("rId" ++ Text.Numeral.text n) = some n := by
  rw [idNumber?, String.toList_append, dropStart?_append, Option.bind_some, Text.Numeral.text,
    String.toList_ofList, Text.Numeral.unsigned?_write small]

/-- The next identifier has a number that is in range and that no other identifier has. -/
theorem exists_nextId {relationships : List Relationship}
    (small : ∀ r ∈ relationships, ∀ n ∈ idNumber? r.id, n < Text.Numeral.maxWord32) :
    (∃ n ≤ Text.Numeral.maxWord32, nextId relationships = "rId" ++ Text.Numeral.text n) ∧
      ∀ r ∈ relationships, r.id ≠ nextId relationships := by
  have inRange : (relationships.filterMap fun r => idNumber? r.id).foldr Nat.max 0 + 1 ≤
      Text.Numeral.maxWord32 := by
    refine Nat.add_le_of_le_sub (by decide) (foldr_max_le (Nat.zero_le _) fun n mem => ?_)
    obtain ⟨r, listed, number⟩ := List.mem_filterMap.mp mem
    exact Nat.le_sub_one_of_lt (small r listed n number)
  refine ⟨⟨_, inRange, rfl⟩, fun r mem same => ?_⟩
  have number : idNumber? r.id = some _ := (congrArg idNumber? same).trans (idNumber?_text inRange)
  have listed := List.mem_filterMap (f := fun r => idNumber? r.id).mpr ⟨r, mem, number⟩
  exact Nat.not_succ_le_self _ (le_foldr_max listed)

example : nextId [⟨"rId007", "a/worksheet", "a.xml"⟩, ⟨"rId4294967296", "a/styles", "b.xml"⟩] =
    "rId8" := by
  cbv

/-! ## The two elements -/

theorem isStringsOverride_iff {e : Element} : isStringsOverride e = true ↔
    e.name = "Override" ∧ e.attr? "PartName" = some "/xl/sharedStrings.xml" := by
  rw [isStringsOverride, Bool.and_eq_true, beq_iff_eq, beq_iff_eq]
  exact Iff.rfl

theorem file_stringsType : PartPath.file stringsType = "sharedStrings" := by decide +kernel

theorem obeys_stringsOverride : stringsOverride.Obeys writable := by
  have name : ElementName "Override" := by decide
  have attributes : OrdinaryAttributes stringsOverride.attributes := by decide +kernel
  exact ⟨⟨name, attributes⟩, trivial⟩

theorem obeys_stringsRelationship (id : String) : (stringsRelationship id).Obeys writable := by
  have name : ElementName "Relationship" := by decide
  have keys : ∀ key ∈ ["Id", "Type", "Target"], OrdinaryName key := by decide
  refine ⟨⟨name, ?_, ?_⟩, trivial⟩
  · intro pair mem
    exact keys pair.1 (List.mem_map_of_mem mem)
  · show ["Id", "Type", "Target"].Nodup
    decide

end Workbook

namespace Package

variable {p : Package}

/-! ## The list of content types -/

section ContentType

variable {text : String} {types : Document}

theorem registerContentType_of_declared (found : p.text? Workbook.typesPath = .ok (some text))
    (read : Document.read text = .ok types)
    (declared : types.root.elements.any Workbook.isStringsOverride = true) :
    p.registerContentType = .ok p := by
  rw [registerContentType, bind_of_ok found]
  simp only [read, if_pos declared]
  rfl

/-- The list declares the table afterwards, and still has its elements, each with all tags inside
of it. -/
theorem exists_registerContentType_declared (read : p.document Workbook.typesPath = .ok types)
    (names : types.root.Obeys ordinaryNames) :
    ∃ q types', p.registerContentType = .ok q ∧
      (∀ path, path ≠ Workbook.typesPath → q.text? path = p.text? path) ∧
      q.document Workbook.typesPath = .ok types' ∧
      types.root.elements.map Element.tags <+: types'.root.elements.map Element.tags ∧
      types'.root.elements.any Workbook.isStringsOverride = true := by
  obtain ⟨text, found, spelled⟩ := exists_text?_of_document read
  by_cases declared : types.root.elements.any Workbook.isStringsOverride = true
  · exact ⟨p, types, registerContentType_of_declared found spelled declared, fun _ _ => rfl, read,
      List.prefix_rfl, declared⟩
  · have written := Document.writable_push spelled names Workbook.obeys_stringsOverride
    have elements : (types.push Workbook.stringsOverride).merged.root.elements =
        (types.root.elements ++ [Workbook.stringsOverride]).map Element.merged := by
      rw [Document.merged, Document.push, Element.elements_merged, Element.elements_push]
      rfl
    refine ⟨p.write Workbook.typesPath (types.push Workbook.stringsOverride).toXml,
      (types.push Workbook.stringsOverride).merged, ?_, fun path different => ?_, ?_, ?_, ?_⟩
    · rw [registerContentType, bind_of_ok found]
      simp only [spelled, if_neg declared]
      rfl
    · exact text?_write_of_ne p _ different
    · exact document_of_text (p.text_write_toXml _ _) (Document.read_toXml written)
    · rw [elements, List.map_map, List.map_append]
      have same : Element.tags ∘ Element.merged = Element.tags := funext Element.tags_merged
      rw [same]
      exact List.prefix_append _ _
    · rw [elements, List.any_map, List.any_append, Bool.or_eq_true]
      exact .inr (by decide +kernel)

end ContentType

/-! ## The list of relationships -/

section Relationships

variable {listed : List Relationship} {document : Document}

theorem registerRelationship_of_related
    (found : p.relationships Workbook.relationshipsPath = .ok listed)
    (related : ∃ r ∈ listed, r.kind = "sharedStrings") : p.registerRelationship = .ok p := by
  obtain ⟨r, mem, kind⟩ := related
  have one : (listed.any fun r => r.kind == "sharedStrings") = true :=
    List.any_eq_true.mpr ⟨r, mem, beq_iff_eq.mpr kind⟩
  rw [relationships] at found
  cases decoded : p.text? Workbook.relationshipsPath with
  | error e =>
      rw [decoded] at found
      cases found
  | ok text? =>
      rw [decoded] at found
      rw [registerRelationship, bind_of_ok decoded]
      cases text? with
      | none => rfl
      | some text =>
          dsimp only
          rw [bind_of_ok found, if_pos one]
          rfl

/-- A relationship to the table that is added to others. -/
structure Added (old : List Relationship) (r : Relationship) : Prop where
  /-- It leads to a table of shared strings. -/
  kind : r.kind = "sharedStrings"
  /-- No other one has its identifier. -/
  fresh : ∀ other ∈ old, other.id ≠ r.id
  /-- Its identifier has a number in 32 bits. -/
  numbered : ∃ n ≤ Text.Numeral.maxWord32, r.id = "rId" ++ Text.Numeral.text n

/-- The list is as it was, or has one relationship more, and leads to the table. -/
theorem exists_registerRelationship_related
    (read : p.document Workbook.relationshipsPath = .ok document)
    (names : document.root.Obeys ordinaryNames)
    (found : p.relationships Workbook.relationshipsPath = .ok listed)
    (small : ∀ r ∈ listed, ∀ n ∈ Workbook.idNumber? r.id, n < Text.Numeral.maxWord32) :
    ∃ q added, p.registerRelationship = .ok q ∧
      (∀ path, path ≠ Workbook.relationshipsPath → q.text? path = p.text? path) ∧
      q.relationships Workbook.relationshipsPath = .ok (listed ++ Option.toList added) ∧
      (∀ r ∈ added, Added listed r) ∧
      ∃ r ∈ listed ++ Option.toList added, r.kind = "sharedStrings" := by
  by_cases related : ∃ r ∈ listed, r.kind = "sharedStrings"
  · refine ⟨p, none, registerRelationship_of_related found related, fun _ _ => rfl, ?_, ?_, ?_⟩
    · rw [Option.toList_none, List.append_nil, found]
    · rintro r ⟨⟩
    · rwa [Option.toList_none, List.append_nil]
  · obtain ⟨text, decoded, spelled⟩ := exists_text?_of_document read
    have readAll : Relationship.readAll text = .ok listed := by
      rw [relationships, decoded] at found
      exact found
    have missing : ¬ (listed.any fun r => r.kind == "sharedStrings") = true := by
      simpa using related
    obtain ⟨numbered, fresh⟩ := Workbook.exists_nextId small
    generalize same : Workbook.nextId listed = id at numbered fresh
    have written := Document.writable_push spelled names (Workbook.obeys_stringsRelationship id)
    refine ⟨p.write Workbook.relationshipsPath
      (document.push (Workbook.stringsRelationship id)).toXml,
      some ⟨id, Workbook.stringsType, "sharedStrings.xml"⟩, ?_, fun path different => ?_, ?_, ?_,
      ?_⟩
    · rw [registerRelationship, bind_of_ok decoded]
      dsimp only
      rw [bind_of_ok readAll, if_neg missing]
      simp only [spelled, same]
      rfl
    · exact text?_write_of_ne p _ different
    · rw [relationships, text?_write_toXml]
      dsimp only
      exact Relationship.readAll_push spelled written readAll
    · rintro r ⟨⟩
      exact ⟨Workbook.file_stringsType, fresh, numbered⟩
    · exact ⟨_, List.mem_append_right _ (List.mem_singleton_self _), Workbook.file_stringsType⟩

end Relationships

/-! ## Both lists -/

/-- Both lists are documents with ordinary names, every relationship is complete, and no identifier
has the largest number. -/
structure Registrable (p : Package) (types document : Document) : Prop where
  /-- The list of content types can be read. -/
  readTypes : p.document Workbook.typesPath = .ok types
  /-- Its names are ordinary. -/
  typeNames : types.root.Obeys ordinaryNames
  /-- The list of relationships can be read. -/
  readRelationships : p.document Workbook.relationshipsPath = .ok document
  /-- Its names are ordinary. -/
  names : document.root.Obeys ordinaryNames
  /-- A relationship has an identifier, a type and a target. -/
  complete : ∀ tag ∈ document.root.tagsNamed "Relationship", ∀ key ∈ ["Id", "Type", "Target"],
    key ∈ tag.map Prod.fst
  /-- There is a number after that of an identifier. -/
  numbers : ∀ tag ∈ document.root.tagsNamed "Relationship", ∀ pair ∈ tag, pair.1 = "Id" →
    ∀ n ∈ Workbook.idNumber? pair.2, n < Text.Numeral.maxWord32

/-- A package `q` is `p` with the table of shared strings declared. -/
structure Registered (p q : Package) (types document : Document) (old : List Relationship)
    (added : Option Relationship) : Prop where
  /-- These are the relationships before. -/
  before : p.relationships Workbook.relationshipsPath = .ok old
  /-- They are those of the document, in order. -/
  tags : (document.root.tagsNamed "Relationship").map Relationship.ofTag? = old.map some
  /-- They stay, and at most one follows them. -/
  after : q.relationships Workbook.relationshipsPath = .ok (old ++ added.toList)
  /-- It is new. -/
  new : ∀ r ∈ added, Added old r
  /-- One of them leads to a table of shared strings. -/
  related : ∃ r ∈ old ++ added.toList, r.kind = "sharedStrings"
  /-- The content types are there as well, and that of the table is. -/
  declared : ∃ types', q.document Workbook.typesPath = .ok types' ∧
    types.root.elements.map Element.tags <+: types'.root.elements.map Element.tags ∧
    ∃ e ∈ types'.root.elements, e.name = "Override" ∧
      e.attr? "PartName" = some "/xl/sharedStrings.xml"
  /-- To declare the table again changes nothing. -/
  again : q.registerStrings = .ok q

theorem document_congr {q : Package} {path : String} {d : Document}
    (same : q.text? path = p.text? path) (read : p.document path = .ok d) :
    q.document path = .ok d := by
  obtain ⟨text, found, spelled⟩ := exists_text?_of_document read
  exact document_of_text (text_of_text? (same.trans found)) spelled

/-- The table of shared strings can be declared, and what the package lists of content types and
relationships before it lists afterwards, too. -/
theorem registerStrings_declares {types document : Document} (h : p.Registrable types document) :
    ∃ q old added, p.registerStrings = .ok q ∧ p.Registered q types document old added := by
  have apart : Workbook.relationshipsPath ≠ Workbook.typesPath := by decide
  obtain ⟨text, decoded, spelled⟩ := exists_text?_of_document h.readRelationships
  obtain ⟨old, same⟩ : ∃ old, (document.root.tagsNamed "Relationship").filterMap
    Relationship.ofTag? = old := ⟨_, rfl⟩
  have listed : p.relationships Workbook.relationshipsPath = .ok old := by
    rw [relationships, decoded]
    exact (Relationship.readAll_of_tags spelled).trans (congrArg _ same)
  have small : ∀ r ∈ old, ∀ n ∈ Workbook.idNumber? r.id, n < Text.Numeral.maxWord32 := by
    intro r mem
    rw [← same] at mem
    obtain ⟨tag, written, read⟩ := List.mem_filterMap.mp mem
    obtain ⟨r', read', id⟩ := Relationship.exists_ofTag? (h.complete tag written)
    cases read.symm.trans read'
    exact h.numbers tag written _ id rfl
  -- The two steps write to different parts, so each finds its own as it was.
  obtain ⟨middle, types', first, others, readTypes, kept, declared⟩ :=
    exists_registerContentType_declared h.readTypes h.typeNames
  have listed' : middle.relationships Workbook.relationshipsPath = .ok old := by
    rw [relationships, others _ apart]
    exact listed
  obtain ⟨q, added, second, others', now, new, related⟩ :=
    exists_registerRelationship_related (document_congr (others _ apart) h.readRelationships)
      h.names listed' small
  have readTypes' := document_congr (others' _ apart.symm) readTypes
  obtain ⟨typesText, typesFound, typesSpelled⟩ := exists_text?_of_document readTypes'
  have fixed : q.registerContentType = .ok q :=
    registerContentType_of_declared typesFound typesSpelled declared
  obtain ⟨e, inside, isOverride⟩ := List.any_eq_true.mp declared
  refine ⟨q, old, added, (bind_of_ok first _).trans second, ?_⟩
  exact {
    before := listed
    tags := (Relationship.map_ofTag? h.complete).trans (congrArg (List.map some) same)
    after := now
    new := new
    related := related
    declared := ⟨types', readTypes', kept, e, inside, Workbook.isStringsOverride_iff.mp isOverride⟩
    again := (bind_of_ok fixed _).trans (registerRelationship_of_related now related) }

/-! ## A package without shared strings -/

/-- Content types, among them none of a table. -/
def plainTypes : Document :=
  ⟨some "xml version=\"1.0\"", ⟨"Types", [],
    [.element ⟨"Default", [("Extension", "xml"), ("ContentType", "application/xml")], []⟩,
      .text "\n",
      .element ⟨"Override", [("PartName", "/xl/workbook.xml"), ("ContentType", "a/main")], []⟩]⟩⟩

/-- Relationships with a number that has zeros in front and with one that is out of range. -/
def plainRelationships : Document :=
  ⟨none, ⟨"Relationships", [],
    [.element ⟨"Relationship", [("Id", "rId007"), ("Type", "a/worksheet"),
      ("Target", "worksheets/sheet1.xml")], []⟩,
      .element ⟨"Relationship", [("Target", "styles.xml"), ("Type", "a/styles"),
        ("Id", "rId4294967296")], []⟩]⟩⟩

/-- The two parts that are written to. -/
def plainParts : List (String × Document) :=
  [("[Content_Types].xml", plainTypes), ("xl/_rels/workbook.xml.rels", plainRelationships)]

theorem registrable_plain :
    (ofDocuments plainParts).Registrable plainTypes plainRelationships := by
  have written : ∀ part ∈ plainParts, part.2.Writable := by decide +kernel
  have joined : ∀ part ∈ plainParts, part.2.merged = part.2 := by decide +kernel
  have types : plainParts.find? (·.1 == Workbook.typesPath) =
      some ("[Content_Types].xml", plainTypes) := by decide
  have relationships : plainParts.find? (·.1 == Workbook.relationshipsPath) =
      some ("xl/_rels/workbook.xml.rels", plainRelationships) := by decide
  have readTypes := document_ofDocuments written joined types
  have readRelationships := document_ofDocuments written joined relationships
  exact {
    readTypes := readTypes
    typeNames := (obeys_of_document_ofDocuments written readTypes).mono
      writable_implies_ordinaryNames
    readRelationships := readRelationships
    names := (obeys_of_document_ofDocuments written readRelationships).mono
      writable_implies_ordinaryNames
    complete := by decide +kernel
    numbers := by decide +kernel }

/-- The package gets a content type and a relationship. -/
theorem registerStrings_declares_plain :
    (ofDocuments plainParts).Registrable plainTypes plainRelationships ∧
      ∃ q old added, (ofDocuments plainParts).registerStrings = .ok q ∧
        (ofDocuments plainParts).Registered q plainTypes plainRelationships old added :=
  ⟨registrable_plain, registerStrings_declares registrable_plain⟩

end Package

end SheetFill
