import SheetFill.Proofs.Worksheet.Outcomes
import SheetFill.Proofs.Worksheet.Trace

/-!
# Cells in the copies of a row

A cell of the template becomes the same in each copy of its row, apart from its place
(`withoutPlace`), unless

* it is a placeholder with the table mark, which has another content in each copy;
* its formula is in a group of shared formulas, which later copies are not part of.
-/

namespace SheetFill

open Xml

/-! ## Cells without their place -/

/-- A cell without its address and without the range of its formula. -/
def withoutPlace (cell : Element) : Element :=
  (cell.removeAttr "r").modifyChild "f" (·.removeAttr "ref")

theorem withoutPlace_setAttr (cell : Element) (address : String) :
    withoutPlace (cell.setAttr "r" address) = withoutPlace cell := by
  rw [withoutPlace, Element.removeAttr_setAttr_self]
  rfl

theorem withoutPlace_setFormulaRange (cell : Element) (range : CellRange) :
    withoutPlace (setFormulaRange cell range) = withoutPlace cell := by
  have keeps : ∀ f : Element, f.name = "f" → (f.setAttr "ref" range.text).name = "f" :=
    fun _ same => same
  refine ((cell.removeAttr "r").modifyChild_modifyChild keeps _).trans ?_
  refine congrArg ((cell.removeAttr "r").modifyChild "f") (funext fun f => ?_)
  exact f.removeAttr_setAttr_self "ref" range.text

theorem withoutPlace_firstFormula (log : InsertionLog) (cell : Element) :
    withoutPlace (firstFormula log cell) = withoutPlace cell := by
  rw [firstFormula]
  split
  · exact withoutPlace_setFormulaRange cell _
  · rfl

theorem withoutPlace_laterFormula (down right : Nat) (cell : Element) :
    withoutPlace (laterFormula down right cell) = withoutPlace (leaveGroup cell) := by
  rw [laterFormula]
  split
  · exact withoutPlace_setFormulaRange (leaveGroup cell) _
  · rfl

theorem removeAttr_blankCell (template : Element) (address address' : String) :
    (blankCell template address).removeAttr "r" = (blankCell template address').removeAttr "r" := by
  have same : ∀ a, ((template.setAttr "r" a).removeAttr "t").removeAttr "r" =
      (template.removeAttr "r").removeAttr "t" := by
    intro a
    rw [Element.removeAttr_comm, Element.removeAttr_setAttr_self]
  exact congrArg (fun e : Element => (⟨e.name, e.attributes, []⟩ : Element))
    ((same address).trans (same address').symm)

/-- Cells with one body are the same but for their place. -/
theorem withoutPlace_xml (final : StringTable) (row row' column column' : Nat) (body : CellBody) :
    withoutPlace (PlacedCell.xml final row ⟨column, body⟩) =
      withoutPlace (PlacedCell.xml final row' ⟨column', body⟩) := by
  cases body with
  | copied template =>
      exact (withoutPlace_setAttr template _).trans (withoutPlace_setAttr template _).symm
  | formula template =>
      exact (withoutPlace_setAttr template _).trans (withoutPlace_setAttr template _).symm
  | filled template content =>
      refine congrArg (Element.modifyChild · "f" (·.removeAttr "ref")) ?_
      have blank := removeAttr_blankCell template (CellAddress.label row column)
        (CellAddress.label row' column')
      have typed (type : String) :
          ((blankCell template (CellAddress.label row column)).setAttr "t" type).removeAttr "r" =
            ((blankCell template (CellAddress.label row' column')).setAttr "t" type).removeAttr
              "r" := by
        rw [Element.removeAttr_setAttr_of_ne _ (by decide),
          Element.removeAttr_setAttr_of_ne _ (by decide), blank]
      cases content with
      | none => exact blank
      | some content =>
          cases content with
          | number x => exact congrArg (withValue · x.cellText) blank
          | boolean b =>
              exact congrArg (withValue · (CellContent.boolean b).written) (typed "b")
          | text s =>
              exact congrArg (withValue · (Text.Numeral.text (final.intern s).1)) (typed "s")

/-! ## Formulas -/

/-- Whether the first formula of a cell is in a group of shared formulas. Later copies go by this
formula alone. -/
def inGroup (cell : Element) : Bool :=
  ((cell.child? "f").filter fun f => f.attr? "t" = some "shared").isSome

theorem hasChild_of_inGroup {cell : Element} (group : inGroup cell = true) :
    cell.hasChild "f" = true := by
  obtain ⟨f, found⟩ := Option.isSome_iff_exists.mp group
  exact Option.isSome_iff_exists.mpr ⟨f, (Option.filter_eq_some_iff.mp found).1⟩

theorem leaveGroup_of_alone {cell : Element} (alone : inGroup cell = false) :
    leaveGroup cell = cell := by
  rw [leaveGroup, Option.isSome_eq_false_iff.mp alone |> Option.isNone_iff_eq_none.mp]

/-- The formula of a cell and its stored result, if that is not dropped. -/
def formulaTemplate (options : FillOptions) (cell : Element) : Element :=
  if options.dropStoredResults then cell.removeChildren "v" else cell

theorem child?_f_formulaTemplate (options : FillOptions) (cell : Element) :
    (formulaTemplate options cell).child? "f" = cell.child? "f" := by
  rw [formulaTemplate]
  split
  · exact cell.child?_removeChildren (by decide)
  · rfl

theorem attr?_formulaTemplate (options : FillOptions) (cell : Element) (key : String) :
    (formulaTemplate options cell).attr? key = cell.attr? key := by
  rw [formulaTemplate]
  split <;> rfl

theorem inGroup_formulaTemplate (options : FillOptions) (cell : Element) :
    inGroup (formulaTemplate options cell) = inGroup cell := by
  rw [inGroup, child?_f_formulaTemplate, inGroup]

section Copies

variable {options : FillOptions} {data : Value} {table final : StringTable} {log : InsertionLog}
  {row copy number : Nat} {cell : Element × TemplateCell}

/-- The cell with a formula that a cell with a formula becomes in a copy of its row. -/
def placedFormula (options : FillOptions) (log : InsertionLog) (row copy number : Nat)
    (cell : Element × TemplateCell) : Element :=
  if copy = 0 then firstFormula log (formulaTemplate options cell.1)
  else laterFormula (number - row) (cell.2.place - cell.2.column)
    (formulaTemplate options cell.1)

theorem placeCell_formula (plan : (cell.2.outcome, cell.2.template) = planCell table data cell.1)
    (formula : cell.1.hasChild "f" = true) (near : ¬ maxColumns < cell.2.place) :
    placeCell options log row copy number cell.2 =
      [⟨cell.2.place, .formula (placedFormula options log row copy number cell)⟩] := by
  rw [planCell_formula table data cell.1 formula] at plan
  obtain ⟨outcome, template⟩ := Prod.mk.inj plan
  rw [placeCell, if_neg near, outcome, template]
  rfl

/-- A placed cell is a cell of the template with its formula, filled with a content, or kept. -/
theorem placed_cases (plan : (cell.2.outcome, cell.2.template) = planCell table data cell.1)
    {placed : PlacedCell} (mem : placed ∈ placeCell options log row copy number cell.2) :
    (cell.1.hasChild "f" = true ∧
        placed = ⟨cell.2.place, .formula (placedFormula options log row copy number cell)⟩) ∨
      (∃ column content, placed = ⟨column, .filled cell.1 content⟩) ∨
      (cell.1.hasChild "f" = false ∧ solePath? table cell.1 = none ∧
        placed = ⟨cell.2.place, .copied (planCell table data cell.1).2⟩) := by
  by_cases far : maxColumns < cell.2.place
  · rw [placeCell_far far] at mem
    cases mem
  · obtain ⟨formula, -⟩ | ⟨path, -, isPath⟩ | ⟨noFormula, noPath, kept⟩ :=
      planCell_cases table data cell.1
    · rw [placeCell_formula plan formula far] at mem
      exact .inl ⟨formula, List.mem_singleton.mp mem⟩
    · obtain ⟨outcome, template⟩ := Prod.mk.inj (plan.trans isPath)
      have body : placed.body ∈
          (placeCell options log row copy number cell.2).map PlacedCell.body :=
        List.mem_map_of_mem mem
      rw [bodies_placeCell (outcome ▸ contents?_ofPath data path copy), template] at body
      obtain ⟨content, -, same⟩ := List.mem_map.mp body
      exact .inr (.inl ⟨placed.column, content, congrArg (PlacedCell.mk placed.column) same.symm⟩)
    · rw [placeCell_kept ((congrArg Prod.fst plan).trans kept) far,
        show cell.2.template = (planCell table data cell.1).2 from congrArg Prod.snd plan] at mem
      exact .inr (.inr ⟨noFormula, noPath, List.mem_singleton.mp mem⟩)

theorem formula_cellTrace (plan : (cell.2.outcome, cell.2.template) = planCell table data cell.1)
    (formula : cell.1.hasChild "f" = true) :
    (cellTrace options final log row copy number cell).written.map withoutPlace =
      [withoutPlace (if copy = 0 then formulaTemplate options cell.1
        else leaveGroup (formulaTemplate options cell.1))].take
          (maxColumns + 1 - cell.2.place) := by
  show List.map _ (List.map _ (placeCell ..)) = _
  rw [placeCell_single (placeCell_formula plan formula), List.map_take, List.map_take]
  refine congrArg (fun e => [e].take _) ?_
  refine (withoutPlace_setAttr (placedFormula ..) _).trans ?_
  rw [placedFormula]
  split
  · exact withoutPlace_firstFormula log _
  · exact withoutPlace_laterFormula _ _ _

/-- A formula of a group is in the first copy as it is in the template, and leaves the group in all
others. -/
theorem group_cellTrace (plan : (cell.2.outcome, cell.2.template) = planCell table data cell.1)
    (group : inGroup cell.1 = true) :
    (cellTrace options final log row copy number cell).written.map withoutPlace =
      [withoutPlace (if copy = 0 then formulaTemplate options cell.1
        else leaveGroup (formulaTemplate options cell.1))].take (maxColumns + 1 - cell.2.place) :=
  formula_cellTrace plan (hasChild_of_inGroup group)

/-- A cell without a formula and without the table mark is placed alike in all copies. -/
theorem placeCell_copy (copy copy' number number' : Nat) {cell : TemplateCell}
    (noFormula : cell.outcome ≠ .formula) (noTable : ∀ contents, cell.outcome ≠ .down contents) :
    placeCell options log row copy number cell = placeCell options log row copy' number' cell := by
  obtain ⟨column, place, template, outcome⟩ := cell
  cases outcome with
  | kept => rfl
  | formula => exact absurd rfl noFormula
  | one content => rfl
  | across contents => cases contents <;> rfl
  | down contents => exact absurd rfl (noTable contents)

theorem ofPath_ne_down {path : DataPath} (noTable : path.table = false)
    (contents : List (Option CellContent)) : Outcome.ofPath data path ≠ .down contents := by
  rw [Outcome.ofPath, noTable, if_neg Bool.false_ne_true]
  intro same
  split at same
  · cases same
  · cases same

theorem ofPath_ne_formula (path : DataPath) : Outcome.ofPath data path ≠ .formula := by
  intro same
  rw [Outcome.ofPath] at same
  split at same
  · split at same
    · cases same
    · cases same
    · cases same
  · split at same
    · cases same
    · cases same

/-- A cell without the table mark and outside all groups becomes the same in all copies. -/
theorem same_cellTrace {copy' number' : Nat}
    (plan : (cell.2.outcome, cell.2.template) = planCell table data cell.1)
    (noTable : ∀ path ∈ solePath? table cell.1, path.table = false)
    (alone : inGroup cell.1 = false) :
    (cellTrace options final log row copy number cell).written.map withoutPlace =
      (cellTrace options final log row copy' number' cell).written.map withoutPlace := by
  -- Apart from formulas and the table mark, nothing looks at the copy or at its number.
  have others (noFormula : cell.2.outcome ≠ .formula)
      (noDown : ∀ contents, cell.2.outcome ≠ .down contents) :
      (cellTrace options final log row copy number cell).written.map withoutPlace =
        (cellTrace options final log row copy' number' cell).written.map withoutPlace := by
    show List.map _ (List.map _ _) = List.map _ (List.map _ _)
    rw [placeCell_copy copy copy' number number' noFormula noDown, List.map_map, List.map_map]
    exact List.map_congr_left fun placed _ => withoutPlace_xml final _ _ _ _ placed.body
  obtain ⟨formula, -⟩ | ⟨path, sole, planned⟩ | ⟨_, _, kept⟩ :=
    planCell_cases table data cell.1
  · have out : leaveGroup (formulaTemplate options cell.1) = formulaTemplate options cell.1 :=
      leaveGroup_of_alone ((inGroup_formulaTemplate options cell.1).trans alone)
    rw [formula_cellTrace plan formula, formula_cellTrace plan formula, out, ite_self, ite_self]
  · rw [planned] at plan
    obtain ⟨outcome, -⟩ := Prod.mk.inj plan
    refine others ?_ ?_
    · rw [outcome]
      exact ofPath_ne_formula path
    · rw [outcome]
      exact ofPath_ne_down (noTable path sole)
  · rw [← plan] at kept
    dsimp only at kept
    refine others ?_ ?_
    · rw [kept]
      exact Outcome.noConfusion
    · rw [kept]
      exact fun contents => Outcome.noConfusion

end Copies

end SheetFill
