import Mathlib.Data.List.Forall2
import Mathlib.Data.List.Pairwise
import SheetFill.Proofs.Reference.RoundTrip
import SheetFill.Proofs.Xml.Elements
import SheetFill.Workbook.References

/-!
# References to different sheets

Moving the references to a sheet rewrites a formula, and the references to the next sheet are looked
for in what was written. A reference is replaced by a reference (`Moved`), so a formula is cut at
the same places as before (`parts_of_moved`): no reference to another sheet appears or goes away. So
the references to two sheets can be moved in either order (`adjustFormula_comm`).
-/

namespace SheetFill

/-! ## The characters of a reference -/

theorem Formula.inReference_letter : ∀ k < 26, inReference (Char.ofNat (65 + k)) = true := by decide

theorem Formula.inReference_digit : ∀ n < 10, inReference (Text.Numeral.digit n) = true := by decide

theorem CellAddress.inReference_of_mem_chars {a : CellAddress} {c : Char} (mem : c ∈ a.chars) :
    Formula.inReference c = true := by
  have ofMark : ∀ isAbsolute, c ∈ mark isAbsolute → Formula.inReference c = true := by
    intro isAbsolute mem
    cases isAbsolute with
    | false => simp [mark] at mem
    | true =>
        simp only [mark, if_true, List.mem_singleton] at mem
        subst mem
        decide
  simp only [chars, List.mem_append] at mem
  rcases mem with ((mem | mem) | mem) | mem
  · exact ofMark _ mem
  · obtain ⟨k, small, rfl⟩ := Column.exists_letter_of_mem_letters mem
    exact Formula.inReference_letter k small
  · exact ofMark _ mem
  · obtain ⟨n, small, rfl⟩ := Text.Numeral.exists_digit_of_mem_write mem
    exact Formula.inReference_digit n small

theorem CellRange.inReference_of_mem_chars {r : CellRange} {c : Char} (mem : c ∈ r.chars) :
    Formula.inReference c = true := by
  rw [chars] at mem
  split at mem
  · exact CellAddress.inReference_of_mem_chars mem
  · simp only [List.mem_append, List.mem_cons] at mem
    rcases mem with mem | rfl | mem
    · exact CellAddress.inReference_of_mem_chars mem
    · decide
    · exact CellAddress.inReference_of_mem_chars mem

/-- A reference that is moved is a reference. -/
theorem InsertionLog.inReference_of_mem_adjustItem {log : InsertionLog} {item : List Char}
    (all : ∀ c ∈ item, Formula.inReference c = true) :
    ∀ c ∈ log.adjustItem item, Formula.inReference c = true := by
  intro c mem
  rw [adjustItem] at mem
  split at mem
  · exact CellRange.inReference_of_mem_chars mem
  · exact all c mem

namespace Formula

/-! ## Where the parts end -/

theorem eq_nil_of_head? {rest : List Char} (start : rest.head? = ([] : List Char).head?) :
    rest = [] := by
  simpa using start

theorem closeString_quote {rest : List Char} (ends : rest.head? ≠ some '"') :
    closeString ('"' :: rest) = (['"'], rest) := by
  refine closeString.eq_3 rest fun more same => ?_
  simp [same] at ends

theorem closeName_quote {rest : List Char} (ends : rest.head? ≠ some '\'') :
    closeName ('\'' :: rest) = (['\''], some [], rest) := by
  refine closeName.eq_3 rest fun more same => ?_
  simp [same] at ends

theorem head?_ne_of_forall {c : Char} {cs : List Char} (other : ∀ rest, cs = c :: rest → False) :
    cs.head? ≠ some c := by
  intro start
  obtain ⟨rest, same⟩ := List.head?_eq_some_iff.mp start
  exact other rest same

/-- A text in quotes ends where it ended, if what follows starts as before. -/
theorem closeString_append {cs inside rest rest' : List Char}
    (closed : closeString cs = (inside, rest)) (start : rest'.head? = rest.head?) :
    closeString (inside ++ rest') = (inside, rest') := by
  induction cs using closeString.induct generalizing inside with
  | case1 =>
      simp only [closeString, Prod.mk.injEq] at closed
      obtain ⟨rfl, rfl⟩ := closed
      simp [eq_nil_of_head? start, closeString]
  | case2 cs inner after closed' ih =>
      simp only [closeString, closed', Prod.mk.injEq] at closed
      obtain ⟨rfl, rfl⟩ := closed
      simp [closeString, ih closed']
  | case3 cs other =>
      have ends := head?_ne_of_forall other
      rw [closeString_quote ends] at closed
      simp only [Prod.mk.injEq] at closed
      obtain ⟨rfl, rfl⟩ := closed
      exact closeString_quote (start ▸ ends)
  | case4 c cs noPair noQuote inner after closed' ih =>
      rw [closeString.eq_4 c cs noPair noQuote, closed'] at closed
      simp only [Prod.mk.injEq] at closed
      obtain ⟨rfl, rfl⟩ := closed
      rw [List.cons_append, closeString.eq_4 _ _ (fun _ quote _ => noQuote quote) noQuote,
        ih closed']

/-- A name in quotes ends where it ended, if what follows starts as before. -/
theorem closeName_append {cs written rest rest' : List Char} {name : Option (List Char)}
    (closed : closeName cs = (written, name, rest)) (start : rest'.head? = rest.head?) :
    closeName (written ++ rest') = (written, name, rest') := by
  induction cs using closeName.induct generalizing written name with
  | case1 =>
      simp only [closeName, Prod.mk.injEq] at closed
      obtain ⟨rfl, rfl, rfl⟩ := closed
      simp [eq_nil_of_head? start, closeName]
  | case2 cs inner name' after closed' ih =>
      simp only [closeName, closed', Prod.mk.injEq] at closed
      obtain ⟨rfl, rfl, rfl⟩ := closed
      simp [closeName, ih closed']
  | case3 cs other =>
      have ends := head?_ne_of_forall other
      rw [closeName_quote ends] at closed
      simp only [Prod.mk.injEq] at closed
      obtain ⟨rfl, rfl, rfl⟩ := closed
      exact closeName_quote (start ▸ ends)
  | case4 c cs noPair noQuote inner name' after closed' ih =>
      rw [closeName.eq_4 c cs noPair noQuote, closed'] at closed
      simp only [Prod.mk.injEq] at closed
      obtain ⟨rfl, rfl, rfl⟩ := closed
      rw [List.cons_append, closeName.eq_4 _ _ (fun _ quote _ => noQuote quote) noQuote,
        ih closed']

/-! ## Parts with other references -/

/-- A part is replaced by one that has another reference, if it has one at all. -/
inductive Moved : Part → Part → Prop where
  /-- Text stays. -/
  | plain (text : List Char) : Moved (.plain text) (.plain text)
  /-- A reference is replaced by a reference. -/
  | qualified (written : List Char) (name : Option (List Char)) {reference reference' : List Char}
      (keeps : (∀ c ∈ reference, inReference c = true) → ∀ c ∈ reference', inReference c = true) :
      Moved (.qualified written name reference) (.qualified written name reference')

theorem moved_adjusted (log : InsertionLog) (sheet : List Char) (part : Part) :
    Moved part (part.adjusted log sheet) := by
  cases part with
  | plain text => exact .plain text
  | qualified written name reference =>
      rw [Part.adjusted]
      split
      · exact .qualified written name InsertionLog.inReference_of_mem_adjustItem
      · exact .qualified written name id

theorem afterName_of_ne (written : List Char) (name : Option (List Char)) {cs : List Char}
    (noMark : cs.head? ≠ some '!') : afterName written name cs = (.plain written, cs) := by
  refine afterName.eq_2 written name cs fun more same => ?_
  simp [same] at noMark

theorem stop_of_dropWhile {p : Char → Bool} {cs rest : List Char}
    (start : rest.head? = (cs.dropWhile p).head?) : ∀ c ∈ rest.head?, p c = false := by
  intro c first
  have stop := List.head?_dropWhile_not p cs
  rw [← start] at stop
  rw [Option.mem_def.mp first] at stop
  simpa using stop

/-- What follows a name is found again with another reference. -/
theorem afterName_append {written cs rest rest' : List Char} {name : Option (List Char)}
    {part part' : Part} (found : afterName written name cs = (part, rest))
    (moved : Moved part part') (start : rest'.head? = rest.head?) :
    ∃ tail, part'.chars = written ++ tail ∧ (tail ++ rest').head? = cs.head? ∧
      afterName written name (tail ++ rest') = (part', rest') := by
  by_cases mark : cs.head? = some '!'
  · obtain ⟨more, rfl⟩ := List.head?_eq_some_iff.mp mark
    simp only [afterName, Prod.mk.injEq] at found
    obtain ⟨rfl, rfl⟩ := found
    cases moved with
    | @qualified _ _ _ reference keeps =>
        have all : ∀ c ∈ reference, inReference c = true :=
          keeps (List.all_eq_true.mp List.all_takeWhile)
        have stop := stop_of_dropWhile start
        refine ⟨'!' :: reference, rfl, rfl, ?_⟩
        simp [afterName, Xml.takeWhile_append_of_stop all stop, Xml.dropWhile_append_of_stop all stop]
  · rw [afterName_of_ne written name mark] at found
    simp only [Prod.mk.injEq] at found
    obtain ⟨rfl, rfl⟩ := found
    cases moved with
    | plain => exact ⟨[], by simp [Part.chars], by simpa using start,
        afterName_of_ne written name (by simpa [start] using mark)⟩

/-- The first part of a formula is found again with another reference. -/
theorem firstPart_append {c : Char} {cs rest rest' : List Char} {part part' : Part}
    (first : firstPart c cs = (part, rest)) (moved : Moved part part')
    (start : rest'.head? = rest.head?) :
    ∃ tail, part'.chars = c :: tail ∧ firstPart c (tail ++ rest') = (part', rest') := by
  rw [firstPart] at first
  split at first
  · rename_i quote
    subst quote
    obtain ⟨⟨inside, after⟩, closed⟩ : ∃ found, closeString cs = found := ⟨_, rfl⟩
    simp only [closed, Prod.mk.injEq] at first
    obtain ⟨rfl, rfl⟩ := first
    cases moved
    exact ⟨inside, rfl, by simp [firstPart, closeString_append closed start]⟩
  · rename_i noString
    split at first
    · rename_i quote
      subst quote
      obtain ⟨⟨written, name, after⟩, closed⟩ : ∃ found, closeName cs = found := ⟨_, rfl⟩
      simp only [closed] at first
      obtain ⟨tail, same, start', found⟩ := afterName_append first moved start
      refine ⟨written ++ tail, by simp [same], ?_⟩
      simp [firstPart, closeName_append closed start', found]
    · rename_i noName
      split at first
      · rename_i word
        obtain ⟨tail, same, start', found⟩ := afterName_append first moved start
        have all : ∀ c ∈ cs.takeWhile inName, inName c = true :=
          List.all_eq_true.mp List.all_takeWhile
        have stop := stop_of_dropWhile start'
        refine ⟨cs.takeWhile inName ++ tail, by simp [same], ?_⟩
        simp [firstPart, noString, noName, word, Xml.takeWhile_append_of_stop all stop,
          Xml.dropWhile_append_of_stop all stop, found]
      · rename_i noWord
        simp only [Prod.mk.injEq] at first
        obtain ⟨rfl, rfl⟩ := first
        cases moved
        exact ⟨[], rfl, by simp [firstPart, noString, noName, noWord]⟩

theorem parts_cons (c : Char) (cs : List Char) :
    parts (c :: cs) = (firstPart c cs).1 :: parts (firstPart c cs).2 := by
  rw [parts]

/-- A formula starts as before and is cut at the same places if its references are replaced by
references. -/
theorem head?_and_parts_of_moved {cs : List Char} {others : List Part}
    (moved : List.Forall₂ Moved (parts cs) others) :
    (others.flatMap Part.chars).head? = cs.head? ∧ parts (others.flatMap Part.chars) = others := by
  induction cs using parts.induct generalizing others with
  | case1 =>
      simp only [parts, List.forall₂_nil_left_iff] at moved
      subst moved
      simp [parts]
  | case2 c cs ih =>
      rw [parts_cons] at moved
      obtain ⟨part, rest, movedFirst, movedRest, rfl⟩ := List.forall₂_cons_left_iff.mp moved
      obtain ⟨start, again⟩ := ih movedRest
      obtain ⟨tail, same, found⟩ := firstPart_append (Prod.eta _) movedFirst start
      simp [same, parts_cons, found, again]

theorem parts_of_moved {cs : List Char} {others : List Part}
    (moved : List.Forall₂ Moved (parts cs) others) : parts (others.flatMap Part.chars) = others :=
  (head?_and_parts_of_moved moved).2

/-! ## References to a sheet -/

/-- Whether a part is a reference to a sheet. -/
def Part.refersTo (sheet : List Char) : Part → Bool
  | .plain _ => false
  | .qualified _ name _ => name.any (sameName sheet)

/-- The references to a sheet, from left to right. -/
def references (formula sheet : String) : List Part :=
  (parts formula.toList).filter (Part.refersTo sheet.toList)

theorem Part.adjusted_of_other {log : InsertionLog} {sheet : List Char} {part : Part}
    (other : part.refersTo sheet = false) : part.adjusted log sheet = part := by
  cases part with
  | plain text => rfl
  | qualified written name reference =>
      rw [refersTo] at other
      simp [adjusted, other]

theorem Part.refersTo_adjusted (log : InsertionLog) (sheet other : List Char) (part : Part) :
    (part.adjusted log sheet).refersTo other = part.refersTo other := by
  cases part with
  | plain text => rfl
  | qualified written name reference =>
      rw [adjusted]
      split <;> rfl

theorem sameName_symm {first second : List Char} (different : sameName first second = false) :
    sameName second first = false := by
  simp only [sameName, beq_eq_false_iff_ne] at different ⊢
  exact different.symm

/-- A part refers to one sheet at most. -/
theorem Part.not_refersTo_both {first second : List Char} (different : sameName first second = false)
    (part : Part) : part.refersTo first = false ∨ part.refersTo second = false := by
  cases part with
  | plain text => exact .inl rfl
  | qualified written name reference =>
      cases name with
      | none => exact .inl rfl
      | some name =>
          simp only [refersTo, Option.any_some, sameName, beq_eq_false_iff_ne] at different ⊢
          by_cases same : first.map Char.toLower = name.map Char.toLower
          · exact .inr fun same' => different (same.trans same'.symm)
          · exact .inl same

theorem Part.adjusted_comm {first second : List Char} (different : sameName first second = false)
    (log₁ log₂ : InsertionLog) (part : Part) :
    (part.adjusted log₁ first).adjusted log₂ second =
      (part.adjusted log₂ second).adjusted log₁ first := by
  rcases part.not_refersTo_both different with other | other
  · have other' : (part.adjusted log₂ second).refersTo first = false := by
      rw [refersTo_adjusted, other]
    rw [adjusted_of_other other, adjusted_of_other other']
  · have other' : (part.adjusted log₁ first).refersTo second = false := by
      rw [refersTo_adjusted, other]
    rw [adjusted_of_other other, adjusted_of_other other']

end Formula

namespace InsertionLog

open Formula

theorem toList_adjustFormula (log : InsertionLog) (formula sheet : String) :
    (log.adjustFormula formula sheet).toList =
      ((parts formula.toList).map (Part.adjusted log sheet.toList)).flatMap Part.chars := by
  rw [adjustFormula, String.toList_ofList, List.flatMap_map]

/-- The parts of a formula whose references were moved are its parts, moved. -/
theorem parts_adjustFormula (log : InsertionLog) (formula sheet : String) :
    parts (log.adjustFormula formula sheet).toList =
      (parts formula.toList).map (Part.adjusted log sheet.toList) := by
  have moved : List.Forall₂ Moved (parts formula.toList)
      ((parts formula.toList).map (Part.adjusted log sheet.toList)) := by
    rw [List.forall₂_map_right_iff, List.forall₂_same]
    exact fun part _ => moved_adjusted log sheet.toList part
  rw [toList_adjustFormula]
  exact parts_of_moved moved

section Different

variable {first second : String} (different : sameName first.toList second.toList = false)
  (log₁ log₂ : InsertionLog)

include different

theorem adjustFormula_swap (formula : String) :
    log₂.adjustFormula (log₁.adjustFormula formula first) second =
      log₁.adjustFormula (log₂.adjustFormula formula second) first := by
  apply String.toList_injective
  have same : Part.adjusted log₂ second.toList ∘ Part.adjusted log₁ first.toList =
      Part.adjusted log₁ first.toList ∘ Part.adjusted log₂ second.toList :=
    funext fun part => part.adjusted_comm different log₁ log₂
  rw [toList_adjustFormula, parts_adjustFormula, toList_adjustFormula, parts_adjustFormula,
    List.map_map, List.map_map, same]

/-- Moving the references to a sheet leaves those to another one as they are. -/
theorem references_adjustFormula (formula : String) :
    references (log₁.adjustFormula formula first) second = references formula second := by
  rw [references, references, parts_adjustFormula]
  induction parts formula.toList with
  | nil => rfl
  | cons part rest ih =>
      rw [List.map_cons, List.filter_cons, List.filter_cons, Part.refersTo_adjusted, ih]
      split
      · rename_i refers
        rcases part.not_refersTo_both different with other | other
        · rw [Part.adjusted_of_other other]
        · simp [other] at refers
      · rfl

end Different

end InsertionLog

/-! ## Defined names -/

namespace Workbook

open Xml

theorem text_setText (e : Element) (text : String) : (e.setText text).text = text := by
  simp [Element.setText, Element.text, Node.charData]

/-- A defined name that is moved for two sheets stays, or gets the formula that is moved for both. -/
theorem adjustName_adjustName (log₁ log₂ : InsertionLog) (first second : String) (name : Element) :
    adjustName log₂ second (adjustName log₁ first name) =
      if log₁.adjustFormula name.text first = name.text ∧
        log₂.adjustFormula name.text second = name.text then name
      else name.setText (log₂.adjustFormula (log₁.adjustFormula name.text first) second) := by
  by_cases same : log₁.adjustFormula name.text first = name.text
  · simp [adjustName, same]
  · simp only [adjustName, same, if_false, text_setText, false_and]
    split
    · rename_i kept
      rw [kept]
    · rfl

theorem adjustName_comm {first second : String}
    (different : Formula.sameName first.toList second.toList = false)
    (log₁ log₂ : InsertionLog) (name : Element) :
    adjustName log₂ second (adjustName log₁ first name) =
      adjustName log₁ first (adjustName log₂ second name) := by
  rw [adjustName_adjustName, adjustName_adjustName,
    InsertionLog.adjustFormula_swap different log₁ log₂]
  simp only [and_comm]

/-- Defined names that are moved for some worksheets, one after another. -/
def adjustedNames (sheets : List (InsertionLog × String)) (names : Element) : Element :=
  sheets.foldl (fun names sheet => names.mapElements (adjustName sheet.1 sheet.2)) names

/-- It does not matter which worksheet comes first. -/
theorem adjustedNames_of_perm {sheets order : List (InsertionLog × String)}
    (same : sheets.Perm order)
    (different : sheets.Pairwise fun a b => Formula.sameName a.2.toList b.2.toList = false)
    (names : Element) : adjustedNames sheets names = adjustedNames order names := by
  have symmetric : Std.Symm fun a b : InsertionLog × String =>
      Formula.sameName a.2.toList b.2.toList = false := ⟨fun _ _ => Formula.sameName_symm⟩
  refine same.foldl_eq' (fun a inSheets b inSheets' names => ?_) names
  by_cases equal : a = b
  · rw [equal]
  · have apart := different.forall inSheets inSheets' equal
    rw [Element.mapElements_mapElements, Element.mapElements_mapElements]
    exact congrArg names.mapElements (funext fun name => adjustName_comm apart a.1 b.1 name)

end Workbook

/-- The references to two sheets with different names can be moved in either order, and moving those
to one of them leaves those to the other as they are. So the defined names do not depend on the order
in which worksheets with different names are filled. -/
theorem InsertionLog.adjustFormula_comm {first second : String}
    (different : Formula.sameName first.toList second.toList = false)
    (log₁ log₂ : InsertionLog) :
    (∀ formula, log₂.adjustFormula (log₁.adjustFormula formula first) second =
        log₁.adjustFormula (log₂.adjustFormula formula second) first) ∧
      (∀ formula, Formula.references (log₁.adjustFormula formula first) second =
        Formula.references formula second) ∧
      ∀ sheets order : List (InsertionLog × String), sheets.Perm order →
        sheets.Pairwise (fun a b => Formula.sameName a.2.toList b.2.toList = false) →
          ∀ names, Workbook.adjustedNames sheets names = Workbook.adjustedNames order names :=
  ⟨adjustFormula_swap different log₁ log₂, references_adjustFormula different log₁,
    fun _ _ same different names => Workbook.adjustedNames_of_perm same different names⟩

/-- Three rows that come on top, in the row of a reference. -/
def threeMoreRows : InsertionLog := InsertionLog.empty.addRows 1 3

/-- A cell that comes on top. -/
def oneMoreCell : InsertionLog := InsertionLog.empty.addCells 4 0 1

/-- References to both sheets, one of them in a text and one behind a quote that is not closed. -/
def mixedFormula : String := "SUM(Data!A1:B2,'It''s'!$A$5)&\"Data!A2\"&data!C9.x'Data!A2"

theorem InsertionLog.adjustFormula_comm_mixedFormula :
    let names : Xml.Element :=
      ⟨"definedNames", [], [.element ⟨"definedName", [("name", "Total")], [.text mixedFormula]⟩]⟩
    Formula.sameName "Data".toList "It's".toList = false ∧
      oneMoreCell.adjustFormula (threeMoreRows.adjustFormula mixedFormula "Data") "It's" =
        threeMoreRows.adjustFormula (oneMoreCell.adjustFormula mixedFormula "It's") "Data" ∧
      Formula.references (threeMoreRows.adjustFormula mixedFormula "Data") "It's" =
        Formula.references mixedFormula "It's" ∧
      Workbook.adjustedNames [(threeMoreRows, "Data"), (oneMoreCell, "It's")] names =
        Workbook.adjustedNames [(oneMoreCell, "It's"), (threeMoreRows, "Data")] names := by
  intro names
  have different : Formula.sameName "Data".toList "It's".toList = false := by decide
  obtain ⟨swap, kept, order⟩ := adjustFormula_comm different threeMoreRows oneMoreCell
  have pairwise : [(threeMoreRows, "Data"), (oneMoreCell, "It's")].Pairwise fun a b =>
      Formula.sameName a.2.toList b.2.toList = false := List.pairwise_pair.mpr different
  exact ⟨different, swap mixedFormula, kept mixedFormula, order _ _ (.swap _ _ _) pairwise names⟩

example : oneMoreCell.adjustFormula (threeMoreRows.adjustFormula mixedFormula "Data") "It's" =
    "SUM(Data!A1:B5,'It''s'!$A$5:$B$5)&\"Data!A2\"&data!C12.x'Data!A2" := by decide +kernel

end SheetFill
