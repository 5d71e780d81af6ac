import SheetFill.Proofs.DataPath.Grammar

/-!
# Bodies of placeholders

In the body of a placeholder a closing brace stands only in a key in quotes and brackets
(`BracesInKeys`). The scan for the closing brace stops at the first brace that ends such a body
(`closeBody?_eq_some_iff`).
-/

namespace SheetFill.Placeholder

open DataPath (Quoted)

/-- A text without closing braces but in keys in quotes and brackets. It starts inside of brackets
or not. A key is read to its end, and brackets that are still open at the end of the text are no
matter. -/
inductive BracesInKeys : Bool → List Char → Prop where
  /-- No character. -/
  | nil {inBrackets : Bool} : BracesInKeys inBrackets []
  /-- An opening bracket. -/
  | opening {cs : List Char} (rest : BracesInKeys true cs) : BracesInKeys false ('[' :: cs)
  /-- The closing bracket. -/
  | closing {cs : List Char} (rest : BracesInKeys false cs) : BracesInKeys true (']' :: cs)
  /-- A key in quotes. -/
  | key {mark : Char} {written key cs : List Char} (isQuote : mark = '"' ∨ mark = '\'')
      (inside : Quoted mark written key) (rest : BracesInKeys true cs) :
      BracesInKeys true (mark :: (written ++ mark :: cs))
  /-- Any other character outside of brackets. -/
  | outside {c : Char} {cs : List Char} (noBrace : c ≠ '}') (noBracket : c ≠ '[')
      (rest : BracesInKeys false cs) : BracesInKeys false (c :: cs)
  /-- Any other character inside of brackets. -/
  | inside {c : Char} {cs : List Char} (noBrace : c ≠ '}') (noBracket : c ≠ ']')
      (noQuote : ¬ (c = '"' ∨ c = '\'')) (rest : BracesInKeys true cs) : BracesInKeys true (c :: cs)

/-- Where the scan is inside of brackets or not. -/
def Context.ofBrackets : Bool → Context
  | true => .bracket
  | false => .plain

/-! ## Bodies are passed over -/

/-- No closing brace counts inside of quotes. -/
theorem not_isOpen_quote (mark c : Char) :
    ¬ ((Context.quote mark).isOpen = true ∧ c = '}') ∧
      ¬ ((Context.escape mark).isOpen = true ∧ c = '}') := by
  simp [Context.isOpen]

theorem passes_quoted {mark : Char} (isQuote : mark = '"' ∨ mark = '\'') {written key : List Char}
    (inside : Quoted mark written key) :
    Passes (.quote mark) (written ++ [mark]) .bracket := by
  induction inside with
  | nil =>
      have ends : (Context.quote mark).next mark = .bracket := by
        rcases isQuote with rfl | rfl
        · rfl
        · rfl
      refine .cons (not_isOpen_quote mark mark).1 ?_
      rw [ends]
      exact passes_nil _
  | @escaped c _ _ _ ih =>
      exact .cons (not_isOpen_quote mark _).1 (.cons (not_isOpen_quote mark c).2 ih)
  | @plain c _ _ noEscape noMark _ ih =>
      refine .cons (not_isOpen_quote mark c).1 ?_
      rw [Context.next, if_neg noEscape, if_neg noMark]
      exact ih

/-- At the end of a body a closing brace counts. -/
theorem BracesInKeys.passes {inBrackets : Bool} {cs : List Char} (body : BracesInKeys inBrackets cs) :
    ∃ after : Context, after.isOpen = true ∧ Passes (.ofBrackets inBrackets) cs after := by
  induction body with
  | @nil inBrackets =>
      refine ⟨.ofBrackets inBrackets, ?_, passes_nil _⟩
      cases inBrackets
      · rfl
      · rfl
  | opening _ ih =>
      obtain ⟨after, isOpen, passes⟩ := ih
      exact ⟨after, isOpen, .cons (by decide) passes⟩
  | closing _ ih =>
      obtain ⟨after, isOpen, passes⟩ := ih
      exact ⟨after, isOpen, .cons (by decide) passes⟩
  | @key mark written key cs isQuote inside _ ih =>
      obtain ⟨after, isOpen, passes⟩ := ih
      refine ⟨after, isOpen, ?_⟩
      have starts : Context.bracket.next mark = .quote mark ∧ mark ≠ '}' := by
        rcases isQuote with rfl | rfl
        · decide
        · decide
      refine .cons (fun ends => starts.2 ends.2) ?_
      have text : written ++ mark :: cs = written ++ [mark] ++ cs := by simp
      rw [Context.ofBrackets, starts.1, text]
      exact (passes_quoted isQuote inside).append passes
  | outside noBrace noBracket _ ih =>
      obtain ⟨after, isOpen, passes⟩ := ih
      refine ⟨after, isOpen, .cons (fun ends => noBrace ends.2) ?_⟩
      rw [Context.ofBrackets, Context.next, if_neg noBracket]
      exact passes
  | inside noBrace noBracket noQuote _ ih =>
      obtain ⟨after, isOpen, passes⟩ := ih
      refine ⟨after, isOpen, .cons (fun ends => noBrace ends.2) ?_⟩
      rw [Context.ofBrackets, Context.next, if_neg noBracket, if_neg noQuote]
      exact passes

/-! ## What is passed over is a body -/

/-- What the scan passes over: from outside of brackets a body, from inside of a key its rest with
the last quote and then the rest of a body. -/
def Scanned : Context → List Char → Prop
  | .plain, cs => BracesInKeys false cs
  | .bracket, cs => BracesInKeys true cs
  | .quote mark, cs => ∃ written key more, cs = written ++ mark :: more ∧
      Quoted mark written key ∧ BracesInKeys true more
  | .escape mark, cs => ∃ c written key more, cs = c :: (written ++ mark :: more) ∧
      Quoted mark written key ∧ BracesInKeys true more

/-- One more character in front, in the context that leads to the one before. -/
theorem scanned_cons {context : Context} {c : Char} {cs : List Char}
    (goesOn : ¬ (context.isOpen = true ∧ c = '}')) (rest : Scanned (context.next c) cs) :
    Scanned context (c :: cs) := by
  cases context with
  | plain =>
      have noBrace : c ≠ '}' := fun brace => goesOn ⟨rfl, brace⟩
      rw [Context.next] at rest
      split at rest
      · rename_i opens
        subst opens
        exact .opening rest
      · rename_i noBracket
        exact .outside noBrace noBracket rest
  | bracket =>
      have noBrace : c ≠ '}' := fun brace => goesOn ⟨rfl, brace⟩
      rw [Context.next] at rest
      split at rest
      · rename_i closes
        subst closes
        exact .closing rest
      · rename_i noBracket
        split at rest
        · rename_i isQuote
          obtain ⟨written, key, more, rfl, inside, rest⟩ := rest
          exact .key isQuote inside rest
        · rename_i noQuote
          exact .inside noBrace noBracket noQuote rest
  | quote mark =>
      rw [Context.next] at rest
      split at rest
      · rename_i escape
        subst escape
        obtain ⟨d, written, key, more, rfl, inside, rest⟩ := rest
        exact ⟨'\\' :: d :: written, d :: key, more, rfl, .escaped inside, rest⟩
      · rename_i noEscape
        split at rest
        · rename_i ends
          subst ends
          exact ⟨[], [], cs, rfl, .nil, rest⟩
        · rename_i noMark
          obtain ⟨written, key, more, rfl, inside, rest⟩ := rest
          exact ⟨c :: written, c :: key, more, rfl, .plain noEscape noMark inside, rest⟩
  | escape mark =>
      obtain ⟨written, key, more, rfl, inside, rest⟩ := rest
      exact ⟨c, written, key, more, rfl, inside, rest⟩

theorem scanned_of_closeBody? {context : Context} {cs body rest : List Char}
    (found : closeBody? context cs = some (body, rest)) :
    cs = body ++ '}' :: rest ∧ Scanned context body := by
  induction cs generalizing context body with
  | nil => cases found
  | cons c cs ih =>
      rw [closeBody?] at found
      split at found
      · rename_i ends
        cases found
        obtain ⟨isOpen, rfl⟩ := ends
        refine ⟨rfl, ?_⟩
        cases context with
        | plain => exact .nil
        | bracket => exact .nil
        | quote mark => cases isOpen
        | escape mark => cases isOpen
      · rename_i goesOn
        obtain ⟨⟨inner, after⟩, found, same⟩ := Option.map_eq_some_iff.mp found
        cases same
        obtain ⟨rfl, scanned⟩ := ih found
        exact ⟨rfl, scanned_cons goesOn scanned⟩

/-- The closing brace is the first one that is not in a key in quotes and brackets. -/
theorem closeBody?_eq_some_iff {cs body rest : List Char} :
    closeBody? .plain cs = some (body, rest) ↔ cs = body ++ '}' :: rest ∧ BracesInKeys false body := by
  constructor
  · intro found
    exact scanned_of_closeBody? found
  · rintro ⟨rfl, body⟩
    obtain ⟨after, isOpen, passes⟩ := body.passes
    rw [Context.ofBrackets] at passes
    rw [passes, closeBody?, if_pos ⟨isOpen, rfl⟩, Option.map_some, List.append_nil]

end SheetFill.Placeholder
