import SheetFill.Proofs.Worksheet.Kept
import SheetFill.Proofs.Xml.Accepted
import SheetFill.Workbook.References

/-!
# Parts that are read after they were changed

A worksheet may be read as a table or as a list of relationships too, and so may be read after it
was filled. What matters to those who read a part again is that it can be written
(`stable_writable`) and which relationships it lists (`stable_relationshipsAmong`).
-/

namespace SheetFill

open Xml

/-! ## Parts that can be written -/

theorem ordinaryName_of_changedKeys {key : String} (changed : key ∈ changedKeys) :
    OrdinaryName key := by
  have all : ∀ key ∈ changedKeys, OrdinaryName key := by decide
  exact all key changed

theorem stable_writable : writable.Stable where
  set changed value tag := ⟨tag.1, tag.2.setIn (ordinaryName_of_changedKeys changed) value⟩
  remove {name attributes key} changed tag := by
    refine ⟨tag.1, fun pair mem => tag.2.keys pair (List.mem_filter.mp mem).1, ?_⟩
    exact (List.filter_sublist.map _).nodup tag.2.distinct
  value := by
    have name : ElementName "v" := by decide
    have none : OrdinaryAttributes [] := by decide
    exact ⟨name, none⟩
  plain text := Element.writable_iff_obeys.mp (writable_plainText text)
  text _ := trivial

/-! ## Relationships -/

/-- The rule that all relationships are among those given. -/
def relationshipsAmong (found : List Relationship) : Rule :=
  ⟨fun name attributes => name = "Relationship" → ∀ r,
    Relationship.ofAttributes? (attributes.map fun pair => (pair.1, some pair.2)) = some r →
      r ∈ found, fun _ => True⟩

theorem value?_map (attributes : List (String × String)) (key : String) :
    Relationship.value? (attributes.map fun pair => (pair.1, some pair.2)) key =
      Element.attr? ⟨"Relationship", attributes, []⟩ key := by
  rw [Relationship.value?, Element.attr?, List.find?_map]
  show (Option.map _ (attributes.find? fun pair => pair.1 == key)).bind _ = _
  cases attributes.find? fun pair => pair.1 == key with
  | none => rfl
  | some pair => rfl

/-- A relationship is read from attributes that filling never changes. -/
theorem ofAttributes?_congr {attributes others : List (String × String)}
    (same : ∀ key, key ∉ changedKeys → Element.attr? ⟨"Relationship", attributes, []⟩ key =
      Element.attr? ⟨"Relationship", others, []⟩ key) :
    Relationship.ofAttributes? (attributes.map fun pair => (pair.1, some pair.2)) =
      Relationship.ofAttributes? (others.map fun pair => (pair.1, some pair.2)) := by
  simp only [Relationship.ofAttributes?, value?_map]
  rw [same "Id" (by decide), same "Type" (by decide), same "Target" (by decide)]

theorem stable_relationshipsAmong (found : List Relationship) :
    (relationshipsAmong found).Stable where
  set changed value tag named r same := by
    refine tag named r ((ofAttributes?_congr fun other fixed => ?_).trans same)
    have different : other ≠ _ := fun eq => fixed (eq.symm ▸ changed)
    exact (Element.attr?_setAttr_of_ne ⟨"Relationship", _, []⟩ different value).symm
  remove changed tag named r same := by
    refine tag named r ((ofAttributes?_congr fun other fixed => ?_).trans same)
    have different : other ≠ _ := fun eq => fixed (eq.symm ▸ changed)
    exact (Element.attr?_removeAttr_of_ne ⟨"Relationship", _, []⟩ different).symm
  value other := absurd other (by decide)
  plain text := by
    have name : "t" ≠ "Relationship" := by decide
    rw [plainText_eq, Element.obeys_iff]
    refine ⟨fun other => absurd other name, ?_⟩
    cases text.isEmpty with
    | true => exact fun _ mem => by cases mem
    | false =>
        intro node mem
        rw [List.mem_singleton.mp mem]
        trivial
  text _ := trivial

variable {text : String} {d : Document} {found : List Relationship}

theorem exists_readAll (read : Document.read text = .ok d) :
    ∃ listed, Relationship.readAll text = .ok listed := by
  rw [Relationship.readAll, startTags, (Document.exists_of_read read).1]
  exact ⟨_, rfl⟩

/-- The relationships of a document that was read are those of its text. -/
theorem obeys_relationshipsAmong (read : Document.read text = .ok d)
    (listed : Relationship.readAll text = .ok found) :
    d.root.Obeys (relationshipsAmong found) := by
  rw [Relationship.readAll] at listed
  split at listed
  · cases listed
  · rename_i tags tagged
    rw [← Except.ok.inj listed]
    refine (Document.obeys_tagsAmong read tagged).mono ⟨fun name attributes among named r same => ?_,
      fun _ _ => trivial⟩
    exact List.mem_filterMap.mpr ⟨_, among named, same⟩

/-- The relationships in the text of a document are among those that the document may have. -/
theorem readAll_of_read (read : Document.read text = .ok d)
    (obeys : d.root.Obeys (relationshipsAmong found)) :
    ∃ listed, Relationship.readAll text = .ok listed ∧ ∀ r ∈ listed, r ∈ found := by
  obtain ⟨tags, tagged, allowed⟩ := Document.startTags_of_read read obeys "Relationship"
  refine ⟨_, by rw [Relationship.readAll, tagged], fun r mem => ?_⟩
  obtain ⟨attributes, mem, same⟩ := List.mem_filterMap.mp mem
  obtain ⟨written, source, rfl⟩ := List.mem_map.mp mem
  exact allowed written source rfl r same

/-! ## Tables and defined names -/

theorem name_adjustTableElement (log : InsertionLog) (e : Element) :
    (adjustTableElement log e).name = e.name := by
  rw [adjustTableElement]
  split
  · rfl
  · rfl

theorem child?_adjustTableElement (log : InsertionLog) (e : Element) (name : String) :
    (adjustTableElement log e).child? name = e.child? name := by
  rw [adjustTableElement]
  split
  · rfl
  · rfl

theorem obeys_adjustTable {rule : Rule} (stable : rule.Stable) {table : Document}
    (h : table.root.Obeys rule) (log : InsertionLog) : (adjustTable log table).root.Obeys rule := by
  have moved {e : Element} (h : e.Obeys rule) : (adjustTableElement log e).Obeys rule := by
    rw [adjustTableElement]
    split
    · exact h.setAttr stable (by decide) _
    · exact h
  exact (moved h).modifyChild "autoFilter" fun _ => moved

/-- The defined names of a workbook part can be moved, and then moved again. -/
theorem exists_adjustNames? (log : InsertionLog) (sheet : String) (h : Spells writable text) :
    ∃ moved, Workbook.adjustNames? log sheet text = .ok moved ∧
      ∀ text ∈ moved, Spells writable text := by
  obtain ⟨d, read, obeys⟩ := h
  simp only [Workbook.adjustNames?, read]
  split
  · exact ⟨none, rfl, fun _ mem => by cases mem⟩
  · refine ⟨_, rfl, fun text mem => ?_⟩
    cases mem
    refine spells_of_read read ⟨fun _ _ h => h, fun _ h => h⟩ (fun _ => trivial) obeys ?_
    refine obeys.modifyChild "definedNames" fun names inside => inside.mapElements fun name h => ?_
    rw [Workbook.adjustName]
    split
    · exact h
    · exact h.setText stable_writable _

end SheetFill
