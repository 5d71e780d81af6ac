import SheetFill.Proofs.SharedStrings.Part
import SheetFill.Proofs.Text.Numerals
import SheetFill.Proofs.Worksheet.Outcomes
import SheetFill.Proofs.Worksheet.Trace

/-!
# What a reader sees in a cell

A reader takes the text of a cell from the table of strings or from the cell itself, by the type of
the cell (`shown`). In a cell of a filled sheet it sees what the body of the placed cell says
(`shown_xml`), and so the contents of the path of a placeholder (`shown_path`).
-/

namespace SheetFill

open Xml

/-! ## The reader -/

/-- What a reader sees in a cell. -/
inductive Shown where
  /-- A text. -/
  | text (s : String)
  /-- A truth value. -/
  | boolean (b : Bool)
  /-- A value of any other type, as it is written. -/
  | value (written : String)
  /-- An empty cell. -/
  | nothing
deriving DecidableEq

/-- The number that a text spells, however large, after an optional plus sign. -/
def spelled? (cs : List Char) : Option Nat :=
  Text.Numeral.read? (match cs with
    | '+' :: rest => rest
    | _ => cs)

/-- What a reader sees in a cell, with the texts of the shared strings. -/
def shown (texts : List String) (cell : Element) : Shown :=
  let value := (cell.child? "v").map Element.text
  if cell.attr? "t" = some "s" then
    match (value.bind fun v => spelled? (Text.trim v.toList)).bind (texts[·]?) with
    | some text => .text text
    | none => .nothing
  else if cell.attr? "t" = some "inlineStr" then
    .text (((cell.child? "is").map visibleText).getD "")
  else match value with
    | some v => if cell.attr? "t" = some "b" then .boolean (v == "1") else .value v
    | none => .nothing

/-- What a reader should see of a content. -/
def Shown.ofContent : Option CellContent → Shown
  | some (.number x) => .value x.cellText
  | some (.boolean b) => .boolean b
  | some (.text s) => .text s
  | none => .nothing

/-! ## Written cells -/

theorem shown_setAttr_r (texts : List String) (cell : Element) (address : String) :
    shown texts (cell.setAttr "r" address) = shown texts cell := by
  rw [shown, shown, cell.attr?_setAttr_of_ne (by decide)]
  rfl

theorem attr?_t_blankCell (template : Element) (address : String) :
    (blankCell template address).attr? "t" = none :=
  (template.setAttr "r" address).attr?_removeAttr_self "t"

theorem value_withValue {cell : Element} (empty : cell.children = []) (value : String) :
    ((withValue cell value).child? "v").map Element.text = some value := by
  rw [Element.child?, withValue, Element.elements_push, Element.elements, empty]
  exact congrArg some (String.empty_append ..)

theorem attr?_withValue (cell : Element) (value key : String) :
    (withValue cell value).attr? key = cell.attr? key := rfl

theorem spelled?_text (n : Nat) :
    spelled? (Text.trim (Text.Numeral.text n).toList) = some n := by
  rw [Text.Numeral.text, String.toList_ofList, Text.Numeral.trim_write, spelled?]
  · exact Text.Numeral.read?_write n
  · intro rest plus
    have mem : '+' ∈ Text.Numeral.write n := plus ▸ List.mem_cons_self ..
    obtain ⟨d, small, same⟩ := Text.Numeral.exists_digit_of_mem_write mem
    exact absurd same.symm (Text.Numeral.digit_spec d small).2.2.2

/-- A content that was put into a cell is seen there. -/
theorem shown_filled {final : StringTable} {row column : Nat} {template : Element}
    {content : Option CellContent}
    (stored : PlacedCell.Stored final ⟨column, .filled template content⟩) :
    shown final.texts (PlacedCell.xml final row ⟨column, .filled template content⟩) =
      .ofContent content := by
  cases content with
  | none =>
      show shown _ (blankCell template _) = _
      rw [shown, attr?_t_blankCell]
      rfl
  | some content =>
      cases content with
      | number x =>
          show shown _ (withValue (blankCell template _) x.cellText) = _
          rw [shown, value_withValue rfl, attr?_withValue, attr?_t_blankCell]
          rfl
      | boolean b =>
          show shown _ (withValue ((blankCell template _).setAttr "t" "b") _) = _
          rw [shown, value_withValue rfl, attr?_withValue, Element.attr?_setAttr_self]
          cases b with
          | true => rfl
          | false => rfl
      | text s =>
          show shown _ (withValue ((blankCell template _).setAttr "t" "s")
            (Text.Numeral.text (final.intern s).1)) = _
          have found := StringTable.texts_intern (stored template s rfl)
          rw [shown, value_withValue rfl, attr?_withValue, Element.attr?_setAttr_self, if_pos rfl,
            Option.bind_some, spelled?_text, Option.bind_some, found]
          rfl

/-- What a reader sees of a body. -/
def CellBody.shown (texts : List String) : CellBody → Shown
  | .copied template => SheetFill.shown texts template
  | .formula template => SheetFill.shown texts template
  | .filled _ content => .ofContent content

theorem shown_xml {final : StringTable} {row : Nat} {cell : PlacedCell}
    (stored : cell.Stored final) :
    shown final.texts (cell.xml final row) = cell.body.shown final.texts := by
  obtain ⟨column, body⟩ := cell
  cases body with
  | copied template => exact shown_setAttr_r ..
  | formula template => exact shown_setAttr_r ..
  | filled template content => exact shown_filled stored

/-! ## Traced cells -/

section Traced

variable {options : FillOptions} {data : Value} {table final : StringTable} {log : InsertionLog}
  {row copy number : Nat} {cell : Element × TemplateCell}

/-- A reader sees what was placed. -/
theorem shown_cellTrace
    (stored : ∀ placed ∈ placeCell options log row copy number cell.2, placed.Stored final) :
    (cellTrace options final log row copy number cell).written.map (shown final.texts) =
      ((placeCell options log row copy number cell.2).map PlacedCell.body).map
        (CellBody.shown final.texts) := by
  show List.map _ (List.map _ _) = _
  rw [List.map_map, List.map_map]
  exact List.map_congr_left fun placed mem => shown_xml (stored placed mem)

/-- A reader sees the contents of the path of a placeholder. -/
theorem shown_path
    (plan : (cell.2.outcome, cell.2.template) = planCell table data cell.1)
    (stored : ∀ placed ∈ placeCell options log row copy number cell.2, placed.Stored final)
    {path : DataPath} (sole : solePath? table cell.1 = some path) :
    (cellTrace options final log row copy number cell).written.map (shown final.texts) =
      ((contentsAt data path copy).map Shown.ofContent).take (maxColumns + 1 - cell.2.place) := by
  rw [planCell_path table data cell.1 sole] at plan
  obtain ⟨outcome, -⟩ := Prod.mk.inj plan
  have contents := contents?_ofPath data path copy
  rw [← outcome] at contents
  rw [shown_cellTrace stored, bodies_placeCell contents, List.map_map, ← List.map_take]
  rfl

end Traced

end SheetFill
