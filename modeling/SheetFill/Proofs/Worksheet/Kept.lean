import SheetFill.Proofs.Worksheet.Trace
import SheetFill.Proofs.Xml.Everywhere

/-!
# Rules that filling keeps

Filling a worksheet copies rows and cells, gives a few attributes new values, takes some away and
puts in values and texts. A rule that has nothing against this holds in the filled worksheet if it
holds in the template (`obeys_fillSheet`). Two such rules matter for what is read again later: that a
part can be written, and that its tags of some other name keep what is read from them.
-/

namespace SheetFill

open Xml

/-- The keys of the attributes that filling changes or removes. -/
def changedKeys : List String := ["r", "t", "ref", "sqref", "count", "si", "spans"]

/-- A rule has nothing against what filling does to a worksheet. -/
structure Xml.Rule.Stable (rule : Rule) : Prop where
  /-- An attribute may get a new value. -/
  set : ∀ {name attributes key}, key ∈ changedKeys → ∀ value, rule.tag name attributes →
    rule.tag name (Element.setIn key value attributes)
  /-- An attribute may be removed. -/
  remove : ∀ {name attributes key}, key ∈ changedKeys → rule.tag name attributes →
    rule.tag name (attributes.filter fun pair => pair.1 != key)
  /-- A cell may get a value. -/
  value : rule.tag "v" []
  /-- A cell may get a text. -/
  plain : ∀ text, (plainText text).Obeys rule
  /-- An element may get a text as its only child. -/
  text : ∀ chars, rule.leaf (.text chars)

theorem Xml.Rule.Stable.and {rule other : Rule} (h : rule.Stable) (h' : other.Stable) :
    (rule.and other).Stable where
  set key value tag := ⟨h.set key value tag.1, h'.set key value tag.2⟩
  remove key tag := ⟨h.remove key tag.1, h'.remove key tag.2⟩
  value := ⟨h.value, h'.value⟩
  plain text := (h.plain text).and (h'.plain text)
  text chars := ⟨h.text chars, h'.text chars⟩

namespace Xml.Element

variable {rule : Rule} {e : Element}

theorem Obeys.setAttr (stable : rule.Stable) (h : e.Obeys rule) {key : String}
    (changed : key ∈ changedKeys) (value : String) : (e.setAttr key value).Obeys rule :=
  h.of_attributes (stable.set changed value h.tag)

theorem Obeys.removeAttr (stable : rule.Stable) (h : e.Obeys rule) {key : String}
    (changed : key ∈ changedKeys) : (e.removeAttr key).Obeys rule :=
  h.of_attributes (stable.remove changed h.tag)

theorem Obeys.setText (stable : rule.Stable) (h : e.Obeys rule) (text : String) :
    (e.setText text).Obeys rule := by
  refine h.of_children fun node mem => ?_
  rw [List.mem_singleton.mp mem]
  exact stable.text text

theorem Obeys.of_elements (h : e.Obeys rule) {elements : List Element}
    (inside : ∀ child ∈ elements, child.Obeys rule) :
    Obeys rule { e with children := elements.map Node.element } := by
  refine h.of_children fun node mem => ?_
  obtain ⟨child, source, rfl⟩ := List.mem_map.mp mem
  exact inside child source

end Xml.Element

section Kept

variable {rule : Rule} (stable : rule.Stable)

/-! ## Formulas -/

include stable in
theorem obeys_setFormulaRange {cell : Element} (h : cell.Obeys rule) (range : CellRange) :
    (setFormulaRange cell range).Obeys rule :=
  h.modifyChild "f" fun _ inside => inside.setAttr stable (by decide) _

include stable in
theorem obeys_leaveGroup {cell : Element} (h : cell.Obeys rule) : (leaveGroup cell).Obeys rule := by
  rw [leaveGroup]
  split
  · exact h
  · split
    · refine h.modifyChild "f" fun _ inside => ?_
      exact ((inside.removeAttr stable (by decide)).removeAttr stable (by decide)).removeAttr stable
        (by decide)
    · exact h.removeChildren "f"

include stable in
theorem obeys_firstFormula {cell : Element} (h : cell.Obeys rule) (log : InsertionLog) :
    (firstFormula log cell).Obeys rule := by
  rw [firstFormula]
  split
  · exact obeys_setFormulaRange stable h _
  · exact h

include stable in
theorem obeys_laterFormula {cell : Element} (h : cell.Obeys rule) (down right : Nat) :
    (laterFormula down right cell).Obeys rule := by
  rw [laterFormula]
  have left := obeys_leaveGroup stable h
  split
  · exact obeys_setFormulaRange stable left _
  · exact left

/-! ## Cells -/

include stable in
theorem obeys_planCell {cell : Element} (h : cell.Obeys rule) (table : StringTable) (data : Value) :
    (planCell table data cell).2.Obeys rule := by
  rcases template_planCell table data cell with same | ⟨text, same⟩
  · rw [same]
    exact h
  · rw [same]
    refine h.modifyChild "is" fun inline inside => inside.of_children fun node mem => ?_
    rw [List.mem_singleton.mp mem]
    exact stable.plain text

include stable in
theorem obeys_of_mem_placeCells {table : StringTable} {data : Value} {offset : Nat}
    {cells : List (Nat × Element)} (h : ∀ cell ∈ cells, cell.2.Obeys rule) :
    ∀ cell ∈ placeCells table data offset cells, cell.template.Obeys rule := by
  induction cells generalizing offset with
  | nil => exact fun _ mem => by cases mem
  | cons cell cells ih =>
      obtain ⟨first, rest⟩ := List.forall_mem_cons.mp h
      exact List.forall_mem_cons.mpr ⟨obeys_planCell stable first table data, ih rest⟩

include stable in
theorem obeys_of_mem_placeCell {options : FillOptions} {log : InsertionLog} {row copy number : Nat}
    {cell : TemplateCell} {placed : PlacedCell} (h : cell.template.Obeys rule)
    (mem : placed ∈ placeCell options log row copy number cell) :
    placed.body.template.Obeys rule := by
  rcases template_of_mem_placeCell mem with same | ⟨base, source, made⟩
  · rw [same]
    exact h
  · have inside : base.Obeys rule := by
      rcases source with rfl | rfl
      · exact h
      · exact h.removeChildren "v"
    rcases made with same | ⟨down, right, same⟩
    · rw [same]
      exact obeys_firstFormula stable inside log
    · rw [same]
      exact obeys_laterFormula stable inside down right

include stable in
theorem obeys_blankCell {cell : Element} (h : cell.Obeys rule) (address : String) :
    (blankCell cell address).Obeys rule :=
  ((h.setAttr stable (by decide) address).removeAttr stable (by decide)).of_children
    fun _ mem => by cases mem

include stable in
theorem obeys_withValue {cell : Element} (h : cell.Obeys rule) (value : String) :
    (withValue cell value).Obeys rule := by
  have empty : (Element.ofName "v").Obeys rule := ⟨stable.value, trivial⟩
  exact h.push (empty.setText stable value)

include stable in
theorem obeys_xml {final : StringTable} {row : Nat} {cell : PlacedCell}
    (h : cell.body.template.Obeys rule) : (cell.xml final row).Obeys rule := by
  obtain ⟨column, body⟩ := cell
  rcases body with template | template | ⟨template, _ | _ | _ | s⟩
  · exact h.setAttr stable (by decide) _
  · exact h.setAttr stable (by decide) _
  · exact obeys_blankCell stable h _
  · exact obeys_withValue stable (obeys_blankCell stable h _) _
  · exact obeys_withValue stable ((obeys_blankCell stable h _).setAttr stable (by decide) _) _
  · exact obeys_withValue stable ((obeys_blankCell stable h _).setAttr stable (by decide) _) _

/-! ## Rows -/

/-- A planned row obeys a rule. -/
structure TemplateRow.Obeys (rule : Rule) (row : TemplateRow) : Prop where
  tag : rule.tag "row" row.attributes
  cells : ∀ cell ∈ row.cells, cell.template.Obeys rule
  trailing : ∀ e ∈ row.trailing, e.Obeys rule

/-- An element of the filled sheet obeys a rule, with any table of strings. -/
def PlacedItem.Obeys (rule : Rule) (item : PlacedItem) : Prop :=
  ∀ final : StringTable, (item.xml final).Obeys rule

include stable in
theorem obeys_ofRow {row : Element} (isRow : row.name = "row") (h : row.Obeys rule)
    (table : StringTable) (data : Value) (offset number : Nat) :
    (TemplateRow.ofRow table data offset number row).Obeys rule where
  tag := isRow ▸ h.tag
  cells := by
    rw [cells_ofRow]
    refine obeys_of_mem_placeCells stable fun cell mem => ?_
    have inRow := snd_mem_numberCells mem
    exact h.of_mem_elements (List.mem_filter.mp inRow).1
  trailing := by
    intro e mem
    rw [TemplateRow.ofRow, List.partition_eq_filter_filter] at mem
    exact h.of_mem_elements (List.mem_filter.mp mem).1

include stable in
theorem obeys_copyRow {row : TemplateRow} (h : row.Obeys rule) (options : FillOptions)
    (log : InsertionLog) (copy number : Nat) :
    PlacedItem.Obeys rule (.row (row.copyRow options log copy number)) := by
  intro final
  have kept : rule.tag "row" (row.copyRow options log copy number).attributes := by
    show rule.tag "row" (ite _ _ _)
    split
    · exact h.tag
    · exact stable.remove (by decide) h.tag
  refine Element.obeys_iff.mpr ⟨stable.set (by decide) _ kept, fun node mem => ?_⟩
  obtain ⟨child, inRow, rfl⟩ := List.mem_map.mp mem
  rcases List.mem_append.mp inRow with written | trailing
  · obtain ⟨placed, source, rfl⟩ := List.mem_map.mp written
    obtain ⟨cell, planned, here⟩ := List.mem_flatMap.mp source
    exact obeys_xml stable (obeys_of_mem_placeCell stable (h.cells cell planned) here)
  · exact h.trailing child trailing

include stable in
/-- Rows are planned and laid out one after another. -/
theorem obeys_of_mem_layout {elements : List Element} (h : ∀ e ∈ elements, e.Obeys rule)
    (options : FillOptions) (log : InsertionLog) (table : StringTable) (data : Value)
    (offset next : Nat) :
    ∀ item ∈ SheetItem.layout options log offset (planRows table data next elements),
      item.Obeys rule := by
  induction elements generalizing offset next with
  | nil => exact fun _ mem => by cases mem
  | cons e elements ih =>
      obtain ⟨first, rest⟩ := List.forall_mem_cons.mp h
      rw [planRows]
      split
      · rename_i isRow
        intro item mem
        rcases List.mem_append.mp mem with mem | mem
        · obtain ⟨row, copied, rfl⟩ := List.mem_map.mp mem
          obtain ⟨copy, -, rfl⟩ := List.mem_map.mp copied
          exact obeys_copyRow stable (obeys_ofRow stable isRow first table data 0 _) options log _ _
        · exact ih rest _ _ item mem
      · exact List.forall_mem_cons.mpr ⟨fun _ => first, ih rest _ _⟩

/-! ## Ranges -/

include stable in
theorem obeys_adjustAttr {e : Element} (h : e.Obeys rule) (log : InsertionLog) {key : String}
    (changed : key ∈ changedKeys) : (adjustAttr log key e).Obeys rule := by
  rw [adjustAttr]
  split
  · exact h.setAttr stable changed _
  · exact h

include stable in
theorem obeys_of_mem_adjustMergeEntry {merge e : Element} (h : merge.Obeys rule)
    (log : InsertionLog) (mem : e ∈ adjustMergeEntry log merge) : e.Obeys rule := by
  rw [adjustMergeEntry] at mem
  split at mem
  · cases mem
  · rename_i range _
    rw [adjustMerge] at mem
    generalize (if range.inOneRow then log.extraRows range.start.row else 0) = copies at mem
    dsimp only at mem
    split at mem
    · rw [List.mem_singleton.mp mem]
      exact h.setAttr stable (by decide) _
    · obtain ⟨copy, -, rfl⟩ := List.mem_map.mp mem
      exact h.setAttr stable (by decide) _
  · rw [List.mem_singleton.mp mem]
    exact h

include stable in
theorem obeys_adjustMerges {merges : Element} (h : merges.Obeys rule) (log : InsertionLog) :
    (adjustMerges log merges).Obeys rule := by
  refine (h.setAttr stable (by decide) _).of_elements fun e mem => ?_
  obtain ⟨merge, source, mem⟩ := List.mem_flatMap.mp mem
  exact obeys_of_mem_adjustMergeEntry stable (h.of_mem_elements source) log mem

include stable in
theorem obeys_adjustPart {e : Element} (h : e.Obeys rule) (options : FillOptions)
    (log : InsertionLog) : (adjustPart options log e).Obeys rule := by
  have attr {e : Element} (key : String) (changed : key ∈ changedKeys) (h : e.Obeys rule) :
      (adjustAttr log key e).Obeys rule := obeys_adjustAttr stable h log changed
  rw [adjustPart]
  split
  · exact attr "ref" (by decide) h
  · split
    · split
      · exact obeys_adjustMerges stable h log
      · split
        · exact attr "ref" (by decide) h
        · split
          · exact attr "sqref" (by decide) h
          · split
            · exact h.mapElements fun _ => attr "sqref" (by decide)
            · split
              · exact h.mapElements fun _ => attr "ref" (by decide)
              · exact h
    · exact h

/-! ## Worksheets -/

include stable in
/-- Filling a worksheet keeps a rule that has nothing against it. -/
theorem obeys_fillSheet {template : Document} (h : template.root.Obeys rule)
    (options : FillOptions) (data : Value) (table : StringTable) :
    (fillSheet options data table template).1.document.root.Obeys rule := by
  have rows : ∀ e ∈ sheetElements template, e.Obeys rule := by
    intro e mem
    rw [sheetElements] at mem
    cases found : template.root.child? "sheetData" with
    | none =>
        rw [found] at mem
        cases mem
    | some sheetData =>
        rw [found] at mem
        exact (h.of_child? found).of_mem_elements mem
  have complete : (writeItems table (SheetItem.layout options
      (fillSheet options data table template).1.log 0
      (planRows table data 1 (sheetElements template)))).2.GrowsTo
        (fillSheet options data table template).2 := .refl _
  obtain ⟨written, -⟩ := writeItems_eq complete
  have filled : (template.root.modifyChild "sheetData" fun sheetData =>
      { sheetData with children := (writeItems table (SheetItem.layout options
          (fillSheet options data table template).1.log 0
          (planRows table data 1 (sheetElements template)))).1.map Node.element }).Obeys rule := by
    refine h.modifyChild "sheetData" fun sheetData inside => inside.of_elements fun e mem => ?_
    rw [written] at mem
    obtain ⟨item, placed, rfl⟩ := List.mem_map.mp mem
    exact obeys_of_mem_layout stable rows options _ table data 0 1 item placed _
  show Element.Obeys rule (ite _ _ _)
  split
  · exact filled
  · exact filled.mapElements fun e inside => obeys_adjustPart stable inside options _

end Kept

end SheetFill
