import SheetFill.Worksheet.Layout

/-!
# What becomes of a cell

A cell of the template has a formula, or is one placeholder, or is kept (`planCell_cases`). One that
is a placeholder is filled with the contents of the value at the end of its path, in each copy of
its row and as far as the sheet has room (`bodies_placeCell`).
-/

namespace SheetFill

open Xml

/-! ## Planned cells -/

/-- The path of a cell without a formula that is one placeholder. -/
def solePath? (table : StringTable) (cell : Element) : Option DataPath :=
  if cell.hasChild "f" then none
  else if cell.attr? "t" = some "s" then
    match (sharedIndex? cell).bind table.kind? with
    | some (.sole path) => some path
    | _ => none
  else if cell.attr? "t" = some "inlineStr" then
    (Placeholder.sole? (((cell.child? "is").map visibleText).getD "")).map DataPath.read
  else none

section Planned

variable (table : StringTable) (data : Value) (cell : Element)

theorem planCell_formula (formula : cell.hasChild "f" = true) :
    planCell table data cell = (.formula, cell) := by
  rw [planCell, if_pos formula]

theorem planCell_path {path : DataPath} (sole : solePath? table cell = some path) :
    planCell table data cell = (.ofPath data path, cell) := by
  rw [solePath?] at sole
  rw [planCell]
  by_cases formula : cell.hasChild "f" = true
  · rw [if_pos formula] at sole
    cases sole
  · rw [if_neg formula] at sole ⊢
    by_cases isShared : cell.attr? "t" = some "s"
    · rw [if_pos isShared] at sole ⊢
      cases kind : (sharedIndex? cell).bind table.kind? with
      | none =>
          rw [kind] at sole
          cases sole
      | some kind' =>
          rw [kind] at sole
          cases kind' with
          | sole path =>
              cases sole
              rfl
          | _ => cases sole
    · rw [if_neg isShared] at sole ⊢
      by_cases isInline : cell.attr? "t" = some "inlineStr"
      · rw [if_pos isInline] at sole
        obtain ⟨body, found, rfl⟩ := Option.map_eq_some_iff.mp sole
        simp only [if_pos isInline, found]
      · rw [if_neg isInline] at sole
        cases sole

theorem planCell_kept (noFormula : cell.hasChild "f" = false)
    (other : solePath? table cell = none) : (planCell table data cell).1 = .kept := by
  rw [solePath?, noFormula, if_neg Bool.false_ne_true] at other
  rw [planCell, noFormula, if_neg Bool.false_ne_true]
  by_cases isShared : cell.attr? "t" = some "s"
  · rw [if_pos isShared] at other ⊢
    cases kind : (sharedIndex? cell).bind table.kind? with
    | none => rfl
    | some kind' =>
        rw [kind] at other
        cases kind' with
        | sole path => cases other
        | _ => rfl
  · rw [if_neg isShared] at other ⊢
    by_cases isInline : cell.attr? "t" = some "inlineStr"
    · rw [if_pos isInline] at other
      have noBody := Option.map_eq_none_iff.mp other
      simp only [if_pos isInline, noBody]
    · rw [if_neg isInline]

/-- A cell keeps its formula, is filled from its path, or is kept. -/
theorem planCell_cases :
    (cell.hasChild "f" = true ∧ planCell table data cell = (.formula, cell)) ∨
      (∃ path, solePath? table cell = some path ∧
        planCell table data cell = (.ofPath data path, cell)) ∨
      (cell.hasChild "f" = false ∧ solePath? table cell = none ∧
        (planCell table data cell).1 = .kept) := by
  cases formula : cell.hasChild "f" with
  | true => exact .inl ⟨rfl, planCell_formula table data cell formula⟩
  | false =>
      cases sole : solePath? table cell with
      | some path => exact .inr (.inl ⟨path, rfl, planCell_path table data cell sole⟩)
      | none => exact .inr (.inr ⟨rfl, rfl, planCell_kept table data cell formula sole⟩)

end Planned

/-! ## Contents of placed cells -/

/-- The contents of the cells that an outcome with contents makes in a copy of its row. -/
def Outcome.contents? (copy : Nat) : Outcome → Option (List (Option CellContent))
  | .one content => some [content]
  | .across [] => some [none]
  | .across contents => some contents
  | .down contents => some [contents[copy]?.join]
  | .kept => none
  | .formula => none

/-- The contents that the value at the end of a path gives the cells of one copy of a row. A value
under the table mark that is no sequence is a table of one row. -/
def contentsAt (data : Value) (path : DataPath) (copy : Nat) : List (Option CellContent) :=
  if path.table then
    match data.resolve path.steps with
    | some (.sequence items) => [items[copy]?.bind Value.cellContent?]
    | some v => [if copy = 0 then v.cellContent? else none]
    | none => [none]
  else
    match data.resolve path.steps with
    | some (.sequence []) => [none]
    | some (.sequence items) => items.map Value.cellContent?
    | other => [other.bind Value.cellContent?]

theorem contents?_ofPath (data : Value) (path : DataPath) (copy : Nat) :
    (Outcome.ofPath data path).contents? copy = some (contentsAt data path copy) := by
  obtain ⟨table, steps⟩ := path
  rw [Outcome.ofPath, contentsAt]
  cases table with
  | false =>
      cases data.resolve steps with
      | none => rfl
      | some v =>
          cases v with
          | sequence items => cases items <;> rfl
          | _ => rfl
  | true =>
      cases data.resolve steps with
      | none => rfl
      | some v =>
          cases v with
          | sequence items =>
              show some [(items.map Value.cellContent?)[copy]?.join] =
                some [items[copy]?.bind Value.cellContent?]
              rw [List.getElem?_map]
              cases items[copy]? <;> rfl
          | _ => cases copy <;> rfl

theorem bodies_spread (template : Element) (column : Nat) (contents : List (Option CellContent)) :
    (spread template column contents).map PlacedCell.body =
      (contents.take (maxColumns + 1 - column)).map (CellBody.filled template) := by
  induction contents generalizing column with
  | nil => simp [spread]
  | cons content contents ih =>
      rw [spread]
      split
      · rename_i far
        have none : maxColumns + 1 - column = 0 := by omega
        rw [none]
        rfl
      · rename_i near
        have room : maxColumns + 1 - column = (maxColumns + 1 - (column + 1)) + 1 := by omega
        rw [List.map_cons, ih, room, List.take_succ_cons, List.map_cons]

section Placed

variable {options : FillOptions} {log : InsertionLog} {row copy number : Nat} {cell : TemplateCell}

theorem placeCell_far (far : maxColumns < cell.place) :
    placeCell options log row copy number cell = [] := by
  rw [placeCell, if_pos far]

theorem take_one {place : Nat} (near : ¬ maxColumns < place) {α : Type} (a : α) :
    [a].take (maxColumns + 1 - place) = [a] := by
  refine List.take_of_length_le ?_
  rw [List.length_singleton]
  omega

theorem take_none {place : Nat} (far : maxColumns < place) {α : Type} (list : List α) :
    list.take (maxColumns + 1 - place) = [] := by
  have none : maxColumns + 1 - place = 0 := by omega
  rw [none, List.take_zero]

/-- A cell that becomes one cell does so if the sheet has room. -/
theorem placeCell_single {body : CellBody}
    (single : ¬ maxColumns < cell.place →
      placeCell options log row copy number cell = [⟨cell.place, body⟩]) :
    placeCell options log row copy number cell =
      [⟨cell.place, body⟩].take (maxColumns + 1 - cell.place) := by
  by_cases far : maxColumns < cell.place
  · rw [placeCell_far far, take_none far]
  · rw [single far, take_one far]

/-- A cell with contents is filled with them as far as the sheet has room. -/
theorem bodies_placeCell {contents : List (Option CellContent)}
    (found : cell.outcome.contents? copy = some contents) :
    (placeCell options log row copy number cell).map PlacedCell.body =
      (contents.take (maxColumns + 1 - cell.place)).map (CellBody.filled cell.template) := by
  by_cases far : maxColumns < cell.place
  · rw [placeCell_far far, take_none far]
    rfl
  · rw [placeCell, if_neg far]
    obtain ⟨column, place, template, outcome⟩ := cell
    cases outcome with
    | kept => cases found
    | formula => cases found
    | one content =>
        cases found
        rw [take_one far]
        rfl
    | down contents =>
        cases found
        rw [take_one far]
        rfl
    | across contents =>
        cases contents with
        | nil =>
            cases found
            rw [take_one far]
            rfl
        | cons content contents =>
            cases found
            exact bodies_spread template place (content :: contents)

/-- A cell that is kept is copied if the sheet has room. -/
theorem placeCell_kept (kept : cell.outcome = .kept) (near : ¬ maxColumns < cell.place) :
    placeCell options log row copy number cell = [⟨cell.place, .copied cell.template⟩] := by
  rw [placeCell, if_neg near, kept]

theorem bodies_placeCell_kept (kept : cell.outcome = .kept) :
    (placeCell options log row copy number cell).map PlacedCell.body =
      [CellBody.copied cell.template].take (maxColumns + 1 - cell.place) := by
  rw [placeCell_single (placeCell_kept kept), List.map_take]
  rfl

end Placed

end SheetFill
