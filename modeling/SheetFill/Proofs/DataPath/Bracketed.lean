import SheetFill.DataPath
import SheetFill.Proofs.Placeholder.Asks
import SheetFill.Proofs.Text.Blanks
import SheetFill.Proofs.Text.Numerals
import SheetFill.Proofs.Xml.Tokens

/-!
# Paths in brackets

Every path can be written: each key in quotes and brackets, with a backslash before quotes and
backslashes, and each index in brackets. The reader of paths and the scan for the closing brace of a
placeholder go over such a text separately, each with its own account of brackets, quotes and
backslashes. They agree on where it ends, whatever the keys hold (`find_bracketed`).
-/

namespace SheetFill

open Text (byteLength)

/-! ## Writing -/

namespace DataPath

/-- A character of a quoted key. -/
def keyChar (c : Char) : List Char := if c = '\\' ∨ c = '"' then ['\\', c] else [c]

end DataPath

namespace PathStep

/-- What stands after the opening bracket of a step, with the closing one. -/
def inside : PathStep → List Char
  | .key name => '"' :: (name.toList.flatMap DataPath.keyChar ++ ['"', ']'])
  | .index place => Text.Numeral.write place ++ [']']

/-- A step in brackets. -/
def bracketed (step : PathStep) : List Char := '[' :: step.inside

/-- An index has no more than 64 bits. -/
def Fits : PathStep → Prop
  | .key _ => True
  | .index place => place ≤ Text.Numeral.maxWord64

instance : DecidablePred Fits
  | .key _ => isTrue trivial
  | .index place => inferInstanceAs (Decidable (place ≤ Text.Numeral.maxWord64))

end PathStep

namespace DataPath

/-- A path with all its steps in brackets. -/
def bracketed (a : DataPath) : String :=
  (if a.table then tableMark else "") ++ String.ofList (a.steps.flatMap PathStep.bracketed)

/-! ## Reading a step -/

theorem closeKey?_escaped (mark c : Char) (cs : List Char) :
    closeKey? mark ('\\' :: c :: cs) = (closeKey? mark cs).map fun found => (c :: found.1, found.2) :=
  rfl

theorem closeKey?_plain {mark c : Char} (other : c ≠ '\\') (goesOn : c ≠ mark) (cs : List Char) :
    closeKey? mark (c :: cs) = (closeKey? mark cs).map fun found => (c :: found.1, found.2) := by
  rw [closeKey?.eq_4 mark c cs (fun escape _ => other escape) (fun _ _ escape _ => other escape),
    if_neg goesOn]

/-- A quoted key ends at the quote that was written after it. -/
theorem closeKey?_quoted (key rest : List Char) :
    closeKey? '"' (key.flatMap keyChar ++ '"' :: rest) = some (key, rest) := by
  induction key with
  | nil => simp [closeKey?]
  | cons c key ih =>
      rw [List.flatMap_cons, List.append_assoc, keyChar]
      split
      · simp [closeKey?_escaped, ih]
      · rename_i plain
        rw [not_or] at plain
        simp [closeKey?_plain plain.1 plain.2, ih]

theorem trimStart_of_ne {c : Char} (visible : Text.isBlank c = false) (cs : List Char) :
    Text.trimStart (c :: cs) = c :: cs := by
  simp [Text.trimStart, visible]

theorem bracket?_key (name : String) (rest : List Char) :
    bracket? ((PathStep.key name).inside ++ rest) = some (.key name, rest) := by
  have written : (PathStep.key name).inside ++ rest =
      '"' :: (name.toList.flatMap keyChar ++ '"' :: ']' :: rest) := by
    simp [PathStep.inside]
  rw [written, bracket?, trimStart_of_ne (by decide)]
  simp [closeKey?_quoted, trimStart_of_ne (c := ']') (by decide), closeBracket?]

/-- A digit is read as part of a bare text. -/
theorem isInner_digit : ∀ n < 10, isInner (Text.Numeral.digit n) = true := by decide

theorem bracket?_index {place : Nat} (fits : place ≤ Text.Numeral.maxWord64) (rest : List Char) :
    bracket? ((PathStep.index place).inside ++ rest) = some (.index place, rest) := by
  have inner : ∀ c ∈ Text.Numeral.write place, isInner c = true := by
    intro c mem
    obtain ⟨n, small, rfl⟩ := Text.Numeral.exists_digit_of_mem_write mem
    exact isInner_digit n small
  have visible : ∀ c ∈ Text.Numeral.write place, Text.isBlank c = false := by
    intro c mem
    obtain ⟨n, small, rfl⟩ := Text.Numeral.exists_digit_of_mem_write mem
    exact (Text.Numeral.digit_spec n small).2.2.1
  have stop : ∀ c ∈ (']' :: rest).head?, isInner c = false := by
    intro c mem
    cases mem
    decide
  have bare : PathStep.ofBare (Text.Numeral.write place) = .index place := by
    rw [PathStep.ofBare, Text.Numeral.read?_write, Option.filter_some,
      if_pos (decide_eq_true fits)]
  have taken := Xml.takeWhile_append_of_stop inner stop
  have dropped := Xml.dropWhile_append_of_stop inner stop
  have written : (PathStep.index place).inside ++ rest =
      Text.Numeral.write place ++ ']' :: rest := by
    simp [PathStep.inside]
  obtain ⟨c, cs, start⟩ := List.exists_cons_of_ne_nil (Text.Numeral.write_ne_nil place)
  have noQuote : ¬ (c = '"' ∨ c = '\'') := by
    have isDigit := inner c (start ▸ List.mem_cons_self ..)
    rintro (rfl | rfl)
    · simp [isInner] at isDigit
    · simp [isInner] at isDigit
  have trimmed : Text.trimEnd (Text.Numeral.write place) = Text.Numeral.write place :=
    Text.dropEndWhile_of_none visible
  rw [start] at taken dropped trimmed bare visible
  rw [written, start, bracket?, List.cons_append, trimStart_of_ne (visible c (List.mem_cons_self ..))]
  rw [List.cons_append] at taken dropped
  simp [noQuote, taken, dropped, trimmed, bare, closeBracket?]

/-- A step in brackets is read whatever follows. -/
theorem bracket?_inside {step : PathStep} (fits : step.Fits) (rest : List Char) :
    bracket? (step.inside ++ rest) = some (step, rest) := by
  cases step with
  | key name => exact bracket?_key name rest
  | index place => exact bracket?_index fits rest

/-! ## Reading a path -/

theorem steps?_bracket {cs rest : List Char} {step : PathStep}
    (found : bracket? cs = some (step, rest)) :
    steps? ('[' :: cs) = (steps? rest).map (step :: ·) := by
  rw [steps?, if_neg (by decide), if_pos rfl]
  split
  · rename_i found'
    cases found.symm.trans found'
    rfl
  · rename_i missing
    cases found.symm.trans missing

theorem steps?_bracketed {steps : List PathStep} (fits : ∀ step ∈ steps, step.Fits) :
    steps? (steps.flatMap PathStep.bracketed) = some steps := by
  induction steps with
  | nil => simp [steps?]
  | cons step steps ih =>
      obtain ⟨first, rest⟩ := List.forall_mem_cons.mp fits
      rw [List.flatMap_cons, PathStep.bracketed, List.cons_append,
        steps?_bracket (bracket?_inside first _), ih rest]
      rfl

theorem path?_bracketed {steps : List PathStep} (nonempty : steps ≠ [])
    (fits : ∀ step ∈ steps, step.Fits) :
    path? (steps.flatMap PathStep.bracketed) = some steps := by
  obtain ⟨step, more, rfl⟩ := List.exists_cons_of_ne_nil nonempty
  obtain ⟨first, rest⟩ := List.forall_mem_cons.mp fits
  rw [List.flatMap_cons, PathStep.bracketed, List.cons_append, path?]
  simp [bracket?_inside first, steps?_bracketed rest]

/-- A text with brackets at its ends has no blanks there. -/
theorem trim_of_ends {first last : Char} (start : Text.isBlank first = false)
    (stop : Text.isBlank last = false) (middle : List Char) :
    Text.trim (first :: (middle ++ [last])) = first :: (middle ++ [last]) := by
  rw [Text.trim, trimStart_of_ne start, Text.trimEnd, Text.dropEndWhile]
  simp [stop]

theorem exists_bracketed {steps : List PathStep} (nonempty : steps ≠ []) :
    ∃ middle, steps.flatMap PathStep.bracketed = '[' :: (middle ++ [']']) := by
  induction steps with
  | nil => exact absurd rfl nonempty
  | cons step steps ih =>
      have one : ∃ middle, step.bracketed = '[' :: (middle ++ [']']) := by
        cases step with
        | key name => exact ⟨'"' :: (name.toList.flatMap keyChar ++ ['"']), by
            simp [PathStep.bracketed, PathStep.inside]⟩
        | index place => exact ⟨Text.Numeral.write place, rfl⟩
      obtain ⟨front, first⟩ := one
      by_cases last : steps = []
      · exact ⟨front, by simp [last, first]⟩
      · obtain ⟨middle, rest⟩ := ih last
        exact ⟨front ++ ']' :: '[' :: middle, by simp [first, rest]⟩

/-- A path is read back from its steps in brackets. -/
theorem read_bracketed {a : DataPath} (nonempty : a.steps ≠ [])
    (fits : ∀ step ∈ a.steps, step.Fits) : read a.bracketed = a := by
  obtain ⟨table, steps⟩ := a
  have path := path?_bracketed nonempty fits
  obtain ⟨middle, written⟩ := exists_bracketed nonempty
  have trimmed : Text.trim (steps.flatMap PathStep.bracketed) =
      steps.flatMap PathStep.bracketed := by
    rw [written]
    exact trim_of_ends (by decide) (by decide) middle
  cases table with
  | false =>
      have noMark : Text.dropStart? tableMark.toList (steps.flatMap PathStep.bracketed) = none := by
        rw [written]
        rfl
      have text : (bracketed ⟨false, steps⟩).toList = steps.flatMap PathStep.bracketed := by
        simp [bracketed]
      simp [read, text, trimmed, noMark, path]
  | true =>
      have text : (bracketed ⟨true, steps⟩).toList =
          tableMark.toList ++ steps.flatMap PathStep.bracketed := by
        simp [bracketed]
      have whole : Text.trim (tableMark.toList ++ steps.flatMap PathStep.bracketed) =
          tableMark.toList ++ steps.flatMap PathStep.bracketed := by
        rw [written]
        exact trim_of_ends (by decide) (by decide) ("able:[".toList ++ middle)
      simp [read, text, whole, Xml.dropStart?_append, trimmed, path]

end DataPath

/-! ## The scan for the closing brace -/

namespace Placeholder

/-- The scan goes over a text, in which the closing brace is not. -/
def Passes (context : Context) (run : List Char) (after : Context) : Prop :=
  ∀ rest, closeBody? context (run ++ rest) =
    (closeBody? after rest).map fun found => (run ++ found.1, found.2)

section Passes

variable {context between after : Context} {run more : List Char}

theorem passes_nil (context : Context) : Passes context [] context :=
  fun _ => Option.map_id'.symm

theorem Passes.cons {c : Char} (goesOn : ¬ (context.isOpen ∧ c = '}'))
    (later : Passes (context.next c) run after) : Passes context (c :: run) after := by
  intro rest
  rw [List.cons_append, closeBody?, if_neg goesOn, later rest, Option.map_map]
  rfl

theorem Passes.append (first : Passes context run between) (later : Passes between more after) :
    Passes context (run ++ more) after := by
  intro rest
  rw [List.append_assoc, first, later, Option.map_map]
  simp [Function.comp_def]

/-- Characters that mean nothing to the scan are passed over. -/
theorem passes_of_forall (same : ∀ c ∈ run, context.next c = context ∧ c ≠ '}') :
    Passes context run context := by
  induction run with
  | nil => exact passes_nil context
  | cons c run ih =>
      obtain ⟨⟨stays, noBrace⟩, rest⟩ := List.forall_mem_cons.mp same
      refine .cons (fun ends => noBrace ends.2) ?_
      rw [stays]
      exact ih rest

/-- Inside a quoted key every character that was written for the key is passed over. -/
theorem passes_key (key : List Char) :
    Passes (.quote '"') (key.flatMap DataPath.keyChar) (.quote '"') := by
  induction key with
  | nil => exact passes_nil _
  | cons c key ih =>
      have closed : ∀ c, ¬ ((Context.quote '"').isOpen ∧ c = '}') := by simp [Context.isOpen]
      have closed' : ¬ ((Context.escape '"').isOpen ∧ c = '}') := by simp [Context.isOpen]
      rw [List.flatMap_cons, DataPath.keyChar]
      split
      · exact .cons (closed '\\') (.cons closed' ih)
      · rename_i plain
        rw [not_or] at plain
        refine .cons (closed c) ?_
        rw [Context.next, if_neg plain.1, if_neg plain.2]
        exact ih

theorem passes_bracketed (step : PathStep) : Passes .plain step.bracketed .plain := by
  have opened : ∀ {run after}, Passes .bracket run after → Passes .plain ('[' :: run) after :=
    fun later => .cons (by decide) later
  have closed : Passes .bracket [']'] .plain := .cons (by decide) (passes_nil _)
  cases step with
  | key name =>
      have ends : Passes (.quote '"') ['"', ']'] .plain := .cons (by decide) closed
      exact opened (.cons (by decide) ((passes_key name.toList).append ends))
  | index place =>
      have digits : ∀ n < 10, Context.next .bracket (Text.Numeral.digit n) = .bracket ∧
          Text.Numeral.digit n ≠ '}' := by decide
      refine opened (Passes.append (passes_of_forall fun c mem => ?_) closed)
      obtain ⟨n, small, rfl⟩ := Text.Numeral.exists_digit_of_mem_write mem
      exact digits n small

end Passes

theorem passes_steps (steps : List PathStep) :
    Passes .plain (steps.flatMap PathStep.bracketed) .plain := by
  induction steps with
  | nil => exact passes_nil _
  | cons step steps ih =>
      rw [List.flatMap_cons]
      exact (passes_bracketed step).append ih

/-- The closing brace of a path in brackets is the one that follows it. -/
theorem closeBody?_bracketed (a : DataPath) (rest : List Char) :
    closeBody? .plain (a.bracketed.toList ++ '}' :: rest) = some (a.bracketed.toList, rest) := by
  have mark : ∀ c ∈ DataPath.tableMark.toList, Context.next .plain c = .plain ∧ c ≠ '}' := by
    simp [DataPath.tableMark, Context.next]
  have passes : Passes .plain a.bracketed.toList .plain := by
    rw [DataPath.bracketed, String.toList_append, String.toList_ofList]
    refine Passes.append ?_ (passes_steps a.steps)
    split
    · exact passes_of_forall mark
    · exact passes_nil _
  rw [passes, closeBody?, if_pos ⟨rfl, rfl⟩]
  simp

/-! ## Where placeholders are -/

/-- A placeholder in a text with `count` bytes more in front. -/
def moved (count : Nat) (p : Placeholder) : Placeholder :=
  ⟨count + p.start, count + p.stop, p.body⟩

theorem byteLength_cons (c : Char) (cs : List Char) :
    byteLength (c :: cs) = c.utf8Size + byteLength cs := rfl

theorem byteLength_append (cs ds : List Char) :
    byteLength (cs ++ ds) = byteLength cs + byteLength ds := by
  induction cs with
  | nil => simp [byteLength]
  | cons c cs ih => rw [List.cons_append, byteLength_cons, ih, byteLength_cons, Nat.add_assoc]

theorem locate_consText (start : Nat) (c : Char) (all : List Piece) :
    locate start (consText c all) = locate (start + c.utf8Size) all := by
  rw [consText.eq_def]
  split
  · simp [locate, Piece.chars, byteLength_cons, Nat.add_assoc]
  · simp [locate, Piece.chars, byteLength]

/-- Text in front moves the placeholders, if none starts in it or where it ends. -/
theorem locate_append {before cs : List Char} (none : NoOpening before)
    (apart : before.getLast? = some '$' → cs.head? ≠ some '{') (start : Nat) :
    locate start (pieces (before ++ cs)) = locate (start + byteLength before) (pieces cs) := by
  rw [pieces_append none apart]
  clear none apart
  induction before generalizing start with
  | nil => rfl
  | cons c before ih =>
      rw [List.foldr_cons, locate_consText, ih, byteLength_cons, Nat.add_assoc]

theorem locate_add (count start : Nat) (all : List Piece) :
    locate (count + start) all = (locate start all).map (moved count) := by
  induction all generalizing start with
  | nil => rfl
  | cons piece all ih =>
      cases piece with
      | text chars => simp only [locate, Nat.add_assoc, ih]
      | placeholder body => simp only [locate, Nat.add_assoc, ih, List.map_cons, moved]

end Placeholder

/-- A path in brackets is read back, and as a placeholder it is found where it was written, with
the placeholders of the text after it. -/
theorem DataPath.find_bracketed {a : DataPath} (nonempty : a.steps ≠ [])
    (fits : ∀ step ∈ a.steps, step.Fits) :
    read a.bracketed = a ∧ ∀ before after : String, Placeholder.NoOpening before.toList →
      let stop := byteLength (before ++ "$\x7b" ++ a.bracketed ++ "\x7d").toList
      Placeholder.find (before ++ "$\x7b" ++ a.bracketed ++ "\x7d" ++ after) =
        ⟨byteLength before.toList, stop, a.bracketed⟩ ::
          (Placeholder.find after).map (Placeholder.moved stop) := by
  refine ⟨read_bracketed nonempty fits, fun before after none => ?_⟩
  intro stop
  have text : (before ++ "$\x7b" ++ a.bracketed ++ "\x7d" ++ after).toList =
      before.toList ++ '$' :: '{' :: (a.bracketed.toList ++ '}' :: after.toList) := by
    simp
  have apart : before.toList.getLast? = some '$' →
      ('$' :: '{' :: (a.bracketed.toList ++ '}' :: after.toList)).head? ≠ some '{' := by
    simp
  have width : byteLength before.toList +
      byteLength (Placeholder.Piece.placeholder a.bracketed.toList).chars = stop := by
    simp [stop, Placeholder.Piece.chars, ← Placeholder.byteLength_append]
  rw [Placeholder.find, text, Placeholder.locate_append none apart,
    Placeholder.pieces_found (Placeholder.closeBody?_bracketed a after.toList), Nat.zero_add,
    Placeholder.locate, width, String.ofList_toList, Placeholder.find]
  exact congrArg _ (Placeholder.locate_add stop 0 _)

/-- Keys with all that ends keys, brackets and placeholders, one without characters, and the largest
index. -/
def hardPath : DataPath :=
  ⟨true, [.key "a]\x7d\\\"b", .key "", .index 18446744073709551615, .key "\\$\x7bx\x7d'["]⟩

theorem DataPath.find_bracketed_hardPath :
    (hardPath.steps ≠ [] ∧ (∀ step ∈ hardPath.steps, step.Fits) ∧
        Placeholder.NoOpening "é$".toList) ∧
      read hardPath.bracketed = hardPath ∧
      Placeholder.find ("é$" ++ "$\x7b" ++ hardPath.bracketed ++ "\x7d" ++ "\x7d${y}") =
        ⟨3, 62, hardPath.bracketed⟩ ::
          (Placeholder.find "\x7d${y}").map (Placeholder.moved 62) :=
  have nonempty : hardPath.steps ≠ [] := by decide
  have fits : ∀ step ∈ hardPath.steps, step.Fits := by decide
  have none : Placeholder.NoOpening "é$".toList := by decide
  have both := find_bracketed nonempty fits
  have width : byteLength ("é$" ++ "$\x7b" ++ hardPath.bracketed ++ "\x7d").toList = 62 := by
    decide +kernel
  have found := both.2 "é$" "\x7d${y}" none
  ⟨⟨nonempty, fits, none⟩, both.1, by rw [width] at found; exact found⟩

example : hardPath.bracketed =
    "table:[\"a]\x7d\\\\\\\"b\"][\"\"][18446744073709551615][\"\\\\$\x7bx\x7d'[\"]" := by
  decide +kernel

end SheetFill
