import SheetFill.Proofs.SharedStrings.Growth
import SheetFill.Proofs.SharedStrings.Regular
import SheetFill.Proofs.Worksheet.Trace

/-!
# Data that agree on what is asked for

A worksheet asks for what the bodies of the placeholders in its inline texts and in the shared
strings lead to. Two values that agree on these bodies fill it in the same way
(`fillSheet_congr`).
-/

namespace SheetFill

open Xml

/-- The body of a placeholder leads to the same in two values. -/
def Value.AgreeAt (a b : Value) (body : String) : Prop :=
  a.resolve (DataPath.read body).steps = b.resolve (DataPath.read body).steps

section Agreement

variable {a b : Value}

theorem agreeAt_of_steps {body : String} {path : List PathStep}
    (steps : (DataPath.read body).steps = path) (same : a.resolve path = b.resolve path) :
    a.AgreeAt b body := by
  rw [Value.AgreeAt, steps, same]

theorem Value.AgreeAt.textAt {body : String} (agree : a.AgreeAt b body) :
    a.textAt body = b.textAt body := by
  rw [Value.textAt, agree]
  rfl

theorem ofPath_congr {path : DataPath} (agree : a.resolve path.steps = b.resolve path.steps) :
    Outcome.ofPath a path = Outcome.ofPath b path := by
  rw [Outcome.ofPath, agree]
  rfl

theorem bodies_empty : Placeholder.bodies "" = [] := by
  show ((Placeholder.pieces []).filterMap Placeholder.Piece.body?).map String.ofList = []
  rw [Placeholder.pieces]
  rfl

theorem mem_bodies_of_sole? {text body : String} (sole : Placeholder.sole? text = some body) :
    body ∈ Placeholder.bodies text := by
  rw [Placeholder.sole?] at sole
  split at sole
  · rename_i one
    cases sole
    refine mem_bodies ?_
    rw [one]
    exact List.mem_singleton_self _
  · cases sole

/-! ## The table of strings -/

theorem ofItem_congr {item : Element} (regular : item.hasChild "r" = true → Regular item.merged)
    (agree : ∀ body ∈ Placeholder.bodies (visibleText item), a.AgreeAt b body) :
    Entry.ofItem a item = Entry.ofItem b item := by
  rw [Entry.ofItem, Entry.ofItem, fillItem_congr regular fun body mem => (agree body mem).textAt]

/-- The cells that point to a placeholder of a table are filled in the same way. -/
def StringTable.Agrees (a b : Value) (table : StringTable) : Prop :=
  ∀ entry ∈ table.entries, ∀ path, entry.kind = .sole path →
    a.resolve path.steps = b.resolve path.steps

theorem agrees_ofItem {item : Element} {path : DataPath}
    (agree : ∀ body ∈ Placeholder.bodies (visibleText item), a.AgreeAt b body)
    (sole : (Entry.ofItem a item).kind = .sole path) :
    a.resolve path.steps = b.resolve path.steps := by
  rw [Entry.ofItem] at sole
  split at sole
  · rename_i body found
    cases sole
    exact agree body (mem_bodies_of_sole? found)
  · split at sole
    · cases sole
    · cases sole

/-! ## Cells -/

variable {table : StringTable}

theorem agree_of_kind? (agrees : table.Agrees a b) {index : Nat} {path : DataPath}
    (sole : table.kind? index = some (.sole path)) :
    a.resolve path.steps = b.resolve path.steps := by
  obtain ⟨entry, found, kind⟩ := Option.map_eq_some_iff.mp sole
  exact agrees entry (List.mem_of_getElem? found) path kind

theorem planCell_congr (agrees : table.Agrees a b) {cell : Element}
    (agree : cell.attr? "t" = some "inlineStr" → ∀ text ∈ (cell.child? "is").map visibleText,
      ∀ body ∈ Placeholder.bodies text, a.AgreeAt b body) :
    planCell table a cell = planCell table b cell := by
  rw [planCell, planCell]
  split
  · rfl
  · split
    · split
      · rename_i path found
        obtain ⟨index, -, sole⟩ := Option.bind_eq_some_iff.mp found
        rw [ofPath_congr (agree_of_kind? agrees sole)]
      · rfl
    · split
      · rename_i isInline
        have agree : ∀ body ∈ Placeholder.bodies (((cell.child? "is").map visibleText).getD ""),
            a.AgreeAt b body := by
          cases found : (cell.child? "is").map visibleText with
          | none =>
              intro body mem
              rw [Option.getD_none, bodies_empty] at mem
              cases mem
          | some text => exact agree isInline text found
        dsimp only
        split
        · rename_i body sole
          rw [ofPath_congr (agree body (mem_bodies_of_sole? sole))]
        · rw [fill_congr fun body mem => (agree body mem).textAt]
      · rfl

theorem placeCells_congr (offset : Nat) {cells : List (Nat × Element)}
    (same : ∀ cell ∈ cells, planCell table a cell.2 = planCell table b cell.2) :
    placeCells table a offset cells = placeCells table b offset cells := by
  induction cells generalizing offset with
  | nil => rfl
  | cons cell cells ih =>
      obtain ⟨first, rest⟩ := List.forall_mem_cons.mp same
      obtain ⟨column, cell⟩ := cell
      rw [placeCells, placeCells, first]
      exact congrArg (_ :: ·) (ih _ rest)

/-! ## Rows and worksheets -/

theorem ofRow_congr (offset number : Nat) {row : Element}
    (same : ∀ cell ∈ rowCells row, planCell table a cell = planCell table b cell) :
    TemplateRow.ofRow table a offset number row = TemplateRow.ofRow table b offset number row := by
  have numbered : ∀ cell ∈ numberCells 1 (rowCells row),
      planCell table a cell.2 = planCell table b cell.2 :=
    fun cell mem => same cell.2 (snd_mem_numberCells mem)
  have cells := placeCells_congr offset numbered
  rw [TemplateRow.ofRow, TemplateRow.ofRow, List.partition_eq_filter_filter]
  exact congrArg (TemplateRow.mk number row.attributes · _) cells

theorem planRows_congr (next : Nat) {elements : List Element}
    (same : ∀ e ∈ elements, ∀ cell ∈ rowCells e, planCell table a cell = planCell table b cell) :
    planRows table a next elements = planRows table b next elements := by
  induction elements generalizing next with
  | nil => rfl
  | cons e elements ih =>
      obtain ⟨first, rest⟩ := List.forall_mem_cons.mp same
      rw [planRows, planRows]
      split
      · dsimp only
        rw [ofRow_congr 0 _ first, ih _ rest]
      · rw [ih _ rest]

/-- Data that agree on the inline texts of a worksheet and on the table of strings fill it in the
same way. -/
theorem fillSheet_congr (options : FillOptions) (agrees : table.Agrees a b) {template : Document}
    (agree : ∀ text ∈ cellTexts template, ∀ body ∈ Placeholder.bodies text, a.AgreeAt b body) :
    fillSheet options a table template = fillSheet options b table template := by
  have rows : planRows table a 1 (sheetElements template) =
      planRows table b 1 (sheetElements template) := by
    refine planRows_congr 1 fun e inSheet cell inRow => planCell_congr agrees ?_
    intro isInline text found
    obtain ⟨inside, isCell⟩ := List.mem_filter.mp inRow
    refine agree text (List.mem_filterMap.mpr ⟨cell, List.mem_flatMap.mpr ⟨e, inSheet, inside⟩, ?_⟩)
    rw [if_pos ⟨eq_of_beq isCell, isInline⟩]
    exact found
  rw [sheetElements] at rows
  rw [fillSheet, fillSheet, rows]

/-- The table of strings is the same until its last worksheet. -/
theorem StringTable.Agrees.grow {final : StringTable} (agrees : table.Agrees a b)
    (grown : table.GrowsTo final) : final.Agrees a b := by
  rw [StringTable.Agrees, grown.entries]
  exact agrees

end Agreement

end SheetFill
