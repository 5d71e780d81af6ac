import Mathlib.Data.List.TakeWhile
import SheetFill.Proofs.DataPath.Bracketed

/-!
# The grammar of paths

A path is a step and then any number of steps behind a point or in brackets (`Spells`). The grammar
says which texts are paths and which steps they spell, without saying how a text is read from left
to right; a text in brackets may even be cut into blanks and the text that is meant in several ways.
The reader finds the steps of a text exactly if the grammar gives it some (`path?_eq_some_iff`), so
a text spells one list of steps at most, and a body that spells none is one key (`read_eq_iff`).
-/

namespace SheetFill.DataPath

/-! ## Texts -/

/-- A text between quotes and the key that is meant. A backslash takes the next character as it is,
so it may stand before the quote. -/
inductive Quoted (mark : Char) : List Char → List Char → Prop where
  /-- No character. -/
  | nil : Quoted mark [] []
  /-- A character behind a backslash. -/
  | escaped {c : Char} {cs key : List Char} (rest : Quoted mark cs key) :
      Quoted mark ('\\' :: c :: cs) (c :: key)
  /-- Any other character. -/
  | plain {c : Char} {cs key : List Char} (noEscape : c ≠ '\\') (noMark : c ≠ mark)
      (rest : Quoted mark cs key) : Quoted mark (c :: cs) (c :: key)

/-- A text of one or more digits whose number fits in 64 bits. -/
def IsIndex (cs : List Char) : Prop :=
  cs ≠ [] ∧ (∀ c ∈ cs, c.isDigit = true) ∧ Text.Numeral.readFrom 0 cs ≤ Text.Numeral.maxWord64

instance : DecidablePred IsIndex := fun _ => inferInstanceAs (Decidable (_ ∧ _ ∧ _))

/-- What a text without quotes means. -/
inductive Unquoted : List Char → PathStep → Prop where
  /-- A number is an index. -/
  | index {cs : List Char} (isIndex : IsIndex cs) :
      Unquoted cs (.index (Text.Numeral.readFrom 0 cs))
  /-- Any other text is a key. -/
  | key {cs : List Char} (noIndex : ¬ IsIndex cs) : Unquoted cs (.key (String.ofList cs))

/-- Only blanks. -/
def AllBlank (cs : List Char) : Prop := ∀ c ∈ cs, Text.isBlank c = true

/-! ## Steps -/

/-- A step that is one or more characters other than points and brackets. -/
structure Bare (cs : List Char) (step : PathStep) : Prop where
  /-- There is a character. -/
  nonempty : cs ≠ []
  /-- None of them is a point or a bracket. -/
  spelled : ∀ c ∈ cs, isBare c = true
  /-- The step that is meant. -/
  meant : Unquoted cs step

/-- A step in brackets, with the brackets. -/
inductive Bracket : List Char → PathStep → Prop where
  /-- A key in quotes, with blanks around the quotes. -/
  | quoted {mark : Char} {before written key after : List Char}
      (isQuote : mark = '"' ∨ mark = '\'') (blanks : AllBlank before) (inside : Quoted mark written key)
      (blanks' : AllBlank after) :
      Bracket ('[' :: (before ++ mark :: (written ++ mark :: (after ++ [']']))))
        (.key (String.ofList key))
  /-- A text without brackets and quotes, not all blank. The blanks at its ends do not count. -/
  | unquoted {before inner : List Char} {step : PathStep} (blanks : AllBlank before)
      (spelled : ∀ c ∈ inner, isInner c = true) (visible : ∃ c ∈ inner, Text.isBlank c = false)
      (meant : Unquoted (Text.trim inner) step) : Bracket ('[' :: (before ++ inner ++ [']'])) step

/-- A step that does not come first: behind a point or in brackets. -/
inductive Later : List Char → PathStep → Prop where
  /-- A bare step behind a point. -/
  | bare {cs : List Char} {step : PathStep} (bare : Bare cs step) : Later ('.' :: cs) step
  /-- A step in brackets. -/
  | bracket {cs : List Char} {step : PathStep} (bracket : Bracket cs step) : Later cs step

/-- The steps that do not come first, one after another. -/
inductive Steps : List Char → List PathStep → Prop where
  /-- No step. -/
  | nil : Steps [] []
  /-- A step and more. -/
  | cons {cs rest : List Char} {step : PathStep} {steps : List PathStep} (first : Later cs step)
      (more : Steps rest steps) : Steps (cs ++ rest) (step :: steps)

/-- A text is a path with the given steps. -/
inductive Spells : List Char → List PathStep → Prop where
  /-- The first step is bare. -/
  | bare {cs rest : List Char} {step : PathStep} {steps : List PathStep} (first : Bare cs step)
      (more : Steps rest steps) : Spells (cs ++ rest) (step :: steps)
  /-- The first step is in brackets. -/
  | bracket {cs rest : List Char} {step : PathStep} {steps : List PathStep}
      (first : Bracket cs step) (more : Steps rest steps) : Spells (cs ++ rest) (step :: steps)

/-! ## Reading texts -/

theorem closeKey?_of_quoted {mark : Char} (isQuote : mark = '"' ∨ mark = '\'')
    {written key : List Char} (inside : Quoted mark written key) (rest : List Char) :
    closeKey? mark (written ++ mark :: rest) = some (key, rest) := by
  induction inside with
  | nil =>
      rcases isQuote with rfl | rfl
      · simp [closeKey?]
      · simp [closeKey?]
  | escaped _ ih =>
      rw [List.cons_append, List.cons_append, closeKey?_escaped, ih]
      rfl
  | plain noEscape noMark _ ih =>
      rw [List.cons_append, closeKey?_plain noEscape noMark, ih]
      rfl

theorem quoted_of_closeKey? {mark : Char} {cs key rest : List Char}
    (closed : closeKey? mark cs = some (key, rest)) :
    ∃ written, cs = written ++ mark :: rest ∧ Quoted mark written key := by
  fun_induction closeKey? mark cs generalizing key with
  | case1 => cases closed
  | case2 => cases closed
  | case3 c cs ih =>
      obtain ⟨⟨inner, after⟩, found, same⟩ := Option.map_eq_some_iff.mp closed
      cases same
      obtain ⟨written, rfl, inside⟩ := ih found
      exact ⟨'\\' :: c :: written, rfl, .escaped inside⟩
  | case4 cs _ _ =>
      cases closed
      exact ⟨[], rfl, .nil⟩
  | case5 c cs noEnd noEscape noMark ih =>
      obtain ⟨⟨inner, after⟩, found, same⟩ := Option.map_eq_some_iff.mp closed
      cases same
      obtain ⟨written, rfl, inside⟩ := ih found
      have plain : c ≠ '\\' := by
        rintro rfl
        cases whole : written ++ mark :: rest with
        | nil => exact noEnd rfl whole
        | cons d ds => exact noEscape d ds rfl whole
      exact ⟨c :: written, rfl, .plain plain noMark inside⟩

theorem closeBracket?_eq_some_iff {cs rest : List Char} :
    closeBracket? cs = some rest ↔ cs = ']' :: rest := by
  constructor
  · intro closed
    unfold closeBracket? at closed
    split at closed
    · cases closed
      rfl
    · cases closed
  · rintro rfl
    rfl

theorem ofBare_of_isIndex {cs : List Char} (isIndex : IsIndex cs) :
    PathStep.ofBare cs = .index (Text.Numeral.readFrom 0 cs) := by
  obtain ⟨nonempty, digits, fits⟩ := isIndex
  have number : Text.Numeral.read? cs = some (Text.Numeral.readFrom 0 cs) := by
    rw [Text.Numeral.read?, if_neg (by simpa using nonempty), if_pos (by simpa using digits)]
  rw [PathStep.ofBare, number, Option.filter_some, if_pos (decide_eq_true fits)]

theorem ofBare_of_not_isIndex {cs : List Char} (noIndex : ¬ IsIndex cs) :
    PathStep.ofBare cs = .key (String.ofList cs) := by
  have noNumber : (Text.Numeral.read? cs).filter (· ≤ Text.Numeral.maxWord64) = none := by
    rw [Option.filter_eq_none_iff]
    intro n number fits
    unfold Text.Numeral.read? at number
    split at number
    · cases number
    · rename_i nonempty
      split at number
      · rename_i digits
        cases number
        exact noIndex ⟨by simpa using nonempty, List.all_eq_true.mp digits, of_decide_eq_true fits⟩
      · cases number
  rw [PathStep.ofBare, noNumber]

theorem unquoted_iff {cs : List Char} {step : PathStep} :
    Unquoted cs step ↔ step = .ofBare cs := by
  constructor
  · rintro (isIndex | noIndex)
    · exact (ofBare_of_isIndex isIndex).symm
    · exact (ofBare_of_not_isIndex noIndex).symm
  · rintro rfl
    by_cases isIndex : IsIndex cs
    · rw [ofBare_of_isIndex isIndex]
      exact .index isIndex
    · rw [ofBare_of_not_isIndex isIndex]
      exact .key isIndex

/-! ## Reading steps -/

theorem bare?_of_bare {cs rest : List Char} {step : PathStep} (bare : Bare cs step)
    (stop : ∀ c ∈ rest.head?, isBare c = false) : bare? (cs ++ rest) = some (step, rest) := by
  rw [bare?]
  simp only [Xml.takeWhile_append_of_stop bare.spelled stop,
    Xml.dropWhile_append_of_stop bare.spelled stop, ← unquoted_iff.mp bare.meant]
  rw [if_neg (by simpa using bare.nonempty)]

theorem bare_of_bare? {cs rest : List Char} {step : PathStep}
    (found : bare? cs = some (step, rest)) : ∃ name, cs = name ++ rest ∧ Bare name step := by
  unfold bare? at found
  simp only at found
  split at found
  · cases found
  · rename_i nonempty
    cases found
    exact ⟨cs.takeWhile isBare, List.takeWhile_append_dropWhile.symm, by simpa using nonempty,
      List.all_eq_true.mp List.all_takeWhile, unquoted_iff.mpr rfl⟩

/-- What is left without the blanks in front starts with a character that is none. -/
theorem trimStart_eq_cons_iff {c : Char} {cs inside : List Char} :
    Text.trimStart cs = c :: inside ↔
      ∃ blanks, cs = blanks ++ c :: inside ∧ AllBlank blanks ∧ Text.isBlank c = false := by
  constructor
  · intro start
    have visible := List.head?_dropWhile_not Text.isBlank cs
    rw [Text.trimStart] at start
    rw [start] at visible
    refine ⟨cs.takeWhile Text.isBlank, ?_, List.all_eq_true.mp List.all_takeWhile,
      by simpa using visible⟩
    rw [← start, List.takeWhile_append_dropWhile]
  · rintro ⟨blanks, rfl, all, visible⟩
    rw [Text.trimStart, List.dropWhile_append_of_pos all]
    exact trimStart_of_ne visible inside

theorem trimStart_eq_nil_iff {cs : List Char} : Text.trimStart cs = [] ↔ AllBlank cs :=
  List.dropWhile_eq_nil_iff

theorem trimEnd_eq_nil_iff {cs : List Char} : Text.trimEnd cs = [] ↔ AllBlank cs := by
  rw [Text.trimEnd, Text.dropEndWhile, List.reverse_eq_nil_iff, List.dropWhile_eq_nil_iff]
  simp only [List.mem_reverse]
  rfl

/-- A closing bracket is found behind blanks. -/
theorem closeBracket?_trimStart_eq_some_iff {cs rest : List Char} :
    closeBracket? (Text.trimStart cs) = some rest ↔
      ∃ blanks, cs = blanks ++ ']' :: rest ∧ AllBlank blanks := by
  rw [closeBracket?_eq_some_iff, trimStart_eq_cons_iff]
  have visible : Text.isBlank ']' = false := by decide
  simp [visible]

/-- A quote after the bracket starts a key. -/
theorem bracket?_of_quote {mark : Char} {cs inside : List Char}
    (start : Text.trimStart cs = mark :: inside) (isQuote : mark = '"' ∨ mark = '\'') :
    bracket? cs = (closeKey? mark inside).bind fun found =>
      (closeBracket? (Text.trimStart found.2)).map fun rest =>
        (.key (String.ofList found.1), rest) := by
  rw [bracket?, start]
  simp only [if_pos isQuote, Option.map_eq_bind]
  rfl

/-- Any other character starts a text without quotes. -/
theorem bracket?_of_not_quote {c : Char} {cs inside : List Char}
    (start : Text.trimStart cs = c :: inside) (noQuote : ¬ (c = '"' ∨ c = '\'')) :
    bracket? cs =
      if Text.trimEnd ((c :: inside).takeWhile isInner) = [] then none
      else (closeBracket? ((c :: inside).dropWhile isInner)).map fun rest =>
        (.ofBare (Text.trimEnd ((c :: inside).takeWhile isInner)), rest) := by
  rw [bracket?, start]
  simp only [if_neg noQuote, List.isEmpty_iff]

theorem bracket?_of_bracket {cs rest : List Char} {step : PathStep}
    (bracket : Bracket ('[' :: cs) step) : bracket? (cs ++ rest) = some (step, rest) := by
  cases bracket with
  | @quoted mark before written key after isQuote blanks inside blanks' =>
      have visible : Text.isBlank mark = false := by
        rcases isQuote with rfl | rfl
        · decide
        · decide
      have start : Text.trimStart (before ++ mark :: (written ++ mark :: (after ++ [']'])) ++ rest) =
          mark :: (written ++ mark :: (after ++ ']' :: rest)) :=
        trimStart_eq_cons_iff.mpr ⟨before, by simp, blanks, visible⟩
      have ends : closeBracket? (Text.trimStart (after ++ ']' :: rest)) = some rest :=
        closeBracket?_trimStart_eq_some_iff.mpr ⟨after, rfl, blanks'⟩
      rw [bracket?_of_quote start isQuote, closeKey?_of_quoted isQuote inside, Option.bind_some,
        ends, Option.map_some]
  | @unquoted before inner _ blanks spelled notBlank meant =>
      -- The blanks in front of the text can be taken for a part of it.
      have some : Text.trimStart inner ≠ [] := by
        obtain ⟨c, mem, visible⟩ := notBlank
        intro none
        rw [trimStart_eq_nil_iff.mp none c mem] at visible
        cases visible
      obtain ⟨c, more, trimmed⟩ := List.exists_cons_of_ne_nil some
      obtain ⟨lead, rfl, blanks', visible⟩ := trimStart_eq_cons_iff.mp trimmed
      have start : Text.trimStart (before ++ (lead ++ c :: more) ++ [']'] ++ rest) =
          c :: (more ++ ']' :: rest) :=
        trimStart_eq_cons_iff.mpr
          ⟨before ++ lead, by simp, List.forall_mem_append.mpr ⟨blanks, blanks'⟩, visible⟩
      have inside : ∀ d ∈ c :: more, isInner d = true :=
        fun d mem => spelled d (List.mem_append_right lead mem)
      have stop : ∀ d ∈ (']' :: rest).head?, isInner d = false := by
        intro d first
        cases first
        decide
      have noQuote : ¬ (c = '"' ∨ c = '\'') := by
        have inner := inside c List.mem_cons_self
        rintro (rfl | rfl)
        · exact absurd inner (by decide)
        · exact absurd inner (by decide)
      have kept : Text.trimEnd (c :: more) ≠ [] := by
        intro none
        rw [trimEnd_eq_nil_iff.mp none c List.mem_cons_self] at visible
        cases visible
      have taken := Xml.takeWhile_append_of_stop inside stop
      have dropped := Xml.dropWhile_append_of_stop inside stop
      rw [List.cons_append] at taken dropped
      rw [Text.trim, trimmed] at meant
      rw [bracket?_of_not_quote start noQuote, taken, dropped, if_neg kept, unquoted_iff.mp meant]
      rfl

theorem bracket_of_bracket? {cs rest : List Char} {step : PathStep}
    (found : bracket? cs = some (step, rest)) :
    ∃ text, cs = text ++ rest ∧ Bracket ('[' :: text) step := by
  cases start : Text.trimStart cs with
  | nil =>
      rw [bracket?, start] at found
      cases found
  | cons c inside =>
      obtain ⟨blanks, rfl, all, visible⟩ := trimStart_eq_cons_iff.mp start
      by_cases isQuote : c = '"' ∨ c = '\''
      · rw [bracket?_of_quote start isQuote] at found
        obtain ⟨⟨key, behind⟩, closed, found⟩ := Option.bind_eq_some_iff.mp found
        obtain ⟨last, ends, same⟩ := Option.map_eq_some_iff.mp found
        cases same
        obtain ⟨written, rfl, quoted⟩ := quoted_of_closeKey? closed
        obtain ⟨after, rfl, all'⟩ := closeBracket?_trimStart_eq_some_iff.mp ends
        exact ⟨_, by simp, .quoted isQuote all quoted all'⟩
      · rw [bracket?_of_not_quote start isQuote] at found
        split at found
        · cases found
        · rename_i kept
          obtain ⟨last, ends, same⟩ := Option.map_eq_some_iff.mp found
          cases same
          have isInner_c : isInner c = true := by
            by_contra noInner
            rw [List.takeWhile_cons_of_neg noInner] at kept
            exact kept rfl
          have inner : (c :: inside).takeWhile isInner = c :: inside.takeWhile isInner :=
            List.takeWhile_cons_of_pos isInner_c
          have text : c :: inside = (c :: inside.takeWhile isInner) ++ ']' :: rest := by
            rw [← inner, ← closeBracket?_eq_some_iff.mp ends, List.takeWhile_append_dropWhile]
          rw [inner]
          refine ⟨blanks ++ (c :: inside.takeWhile isInner) ++ [']'], ?_, .unquoted all ?_
            ⟨c, List.mem_cons_self, visible⟩ ?_⟩
          · rw [text]
            simp
          · intro d mem
            exact List.all_eq_true.mp List.all_takeWhile d (inner ▸ mem)
          · rw [unquoted_iff, Text.trim, trimStart_of_ne visible]

/-! ## Reading paths -/

/-- A bare step starts with no bracket. -/
theorem Bare.head?_ne {cs : List Char} {step : PathStep} (bare : Bare cs step) (rest : List Char) :
    (cs ++ rest).head? ≠ some '[' := by
  obtain ⟨c, more, rfl⟩ := List.exists_cons_of_ne_nil bare.nonempty
  rintro ⟨⟩
  exact absurd (bare.spelled '[' List.mem_cons_self) (by decide)

theorem Bracket.exists_text {cs : List Char} {step : PathStep} (bracket : Bracket cs step) :
    ∃ text, cs = '[' :: text := by
  cases bracket
  · exact ⟨_, rfl⟩
  · exact ⟨_, rfl⟩

/-- The characters of a bare step do not go on in the steps behind it. -/
theorem Steps.stop {cs : List Char} {steps : List PathStep} (h : Steps cs steps) :
    ∀ c ∈ cs.head?, isBare c = false := by
  intro c first
  cases h with
  | nil => cases first
  | cons step more =>
      cases step with
      | bare bare =>
          cases first
          decide
      | bracket bracket =>
          obtain ⟨text, rfl⟩ := bracket.exists_text
          cases first
          decide

theorem steps?_bare {cs rest : List Char} {step : PathStep}
    (found : bare? cs = some (step, rest)) :
    steps? ('.' :: cs) = (steps? rest).map (step :: ·) := by
  rw [steps?, if_pos rfl]
  split
  · rename_i found'
    cases found.symm.trans found'
    rfl
  · rename_i missing
    cases found.symm.trans missing

theorem steps?_of_steps {cs : List Char} {steps : List PathStep} (h : Steps cs steps) :
    steps? cs = some steps := by
  induction h with
  | nil => rw [steps?]
  | @cons cs rest step steps first more ih =>
      cases first with
      | bare bare =>
          rw [List.cons_append, steps?_bare (bare?_of_bare bare more.stop), ih]
          rfl
      | bracket bracket =>
          obtain ⟨text, rfl⟩ := bracket.exists_text
          rw [List.cons_append, steps?_bracket (bracket?_of_bracket bracket), ih]
          rfl

theorem steps_of_steps? {cs : List Char} {steps : List PathStep} (found : steps? cs = some steps) :
    Steps cs steps := by
  fun_induction steps? cs generalizing steps with
  | case1 =>
      cases found
      exact .nil
  | case2 cs step rest found' ih =>
      obtain ⟨more, later, same⟩ := Option.map_eq_some_iff.mp found
      cases same
      obtain ⟨name, rfl, bare⟩ := bare_of_bare? found'
      exact .cons (.bare bare) (ih later)
  | case3 => cases found
  | case4 cs step rest found' _ ih =>
      obtain ⟨more, later, same⟩ := Option.map_eq_some_iff.mp found
      cases same
      obtain ⟨text, rfl, bracket⟩ := bracket_of_bracket? found'
      exact .cons (.bracket bracket) (ih later)
  | case5 => cases found
  | case6 => cases found

theorem path?_bracket (cs : List Char) :
    path? ('[' :: cs) =
      (bracket? cs).bind fun found => (steps? found.2).map (found.1 :: ·) := by
  simp only [path?, Option.map_eq_bind]
  rfl

theorem path?_bare {cs : List Char} (noBracket : cs.head? ≠ some '[') :
    path? cs = (bare? cs).bind fun found => (steps? found.2).map (found.1 :: ·) := by
  unfold path?
  split
  · exact absurd rfl noBracket
  · simp only [Option.map_eq_bind]
    rfl

/-- The reader finds the steps of a text if the grammar says that it spells them. -/
theorem path?_eq_some_iff {cs : List Char} {steps : List PathStep} :
    path? cs = some steps ↔ Spells cs steps := by
  constructor
  · intro found
    by_cases opened : cs.head? = some '['
    · obtain ⟨inside, rfl⟩ := List.head?_eq_some_iff.mp opened
      rw [path?_bracket] at found
      obtain ⟨⟨step, rest⟩, first, found⟩ := Option.bind_eq_some_iff.mp found
      obtain ⟨more, later, same⟩ := Option.map_eq_some_iff.mp found
      cases same
      obtain ⟨text, rfl, bracket⟩ := bracket_of_bracket? first
      exact .bracket bracket (steps_of_steps? later)
    · rw [path?_bare opened] at found
      obtain ⟨⟨step, rest⟩, first, found⟩ := Option.bind_eq_some_iff.mp found
      obtain ⟨more, later, same⟩ := Option.map_eq_some_iff.mp found
      cases same
      obtain ⟨name, rfl, bare⟩ := bare_of_bare? first
      exact .bare bare (steps_of_steps? later)
  · intro spells
    cases spells with
    | @bare cs rest step steps first more =>
        rw [path?_bare (first.head?_ne rest), bare?_of_bare first more.stop, Option.bind_some,
          steps?_of_steps more, Option.map_some]
    | @bracket cs rest step steps first more =>
        obtain ⟨text, rfl⟩ := first.exists_text
        rw [List.cons_append, path?_bracket, bracket?_of_bracket first, Option.bind_some,
          steps?_of_steps more, Option.map_some]

/-! ## Reading bodies -/

/-- The path in a body, and whether the elements it leads to go to rows of their own. -/
inductive Holds (body : List Char) : Bool → List Char → Prop where
  /-- All of the body but the blanks at its ends. -/
  | plain (noMark : ¬ tableMark.toList <+: Text.trim body) : Holds body false (Text.trim body)
  /-- What follows the mark, without blanks. -/
  | table {rest : List Char} (mark : Text.trim body = tableMark.toList ++ rest) :
      Holds body true (Text.trim rest)

/-- The steps that a text is read as: all of it is a key if it is no path. -/
inductive ReadAs (cs : List Char) : List PathStep → Prop where
  /-- The steps of a path. -/
  | path {steps : List PathStep} (spells : Spells cs steps) : ReadAs cs steps
  /-- One key. -/
  | key (noPath : ∀ steps, ¬ Spells cs steps) : ReadAs cs [.key (String.ofList cs)]

theorem readAs_iff {cs : List Char} {steps : List PathStep} :
    ReadAs cs steps ↔ (path? cs).getD [.key (String.ofList cs)] = steps := by
  constructor
  · rintro (spells | noPath)
    · rw [path?_eq_some_iff.mpr spells, Option.getD_some]
    · have none : path? cs = none :=
        Option.eq_none_iff_forall_ne_some.mpr fun steps found =>
          noPath steps (path?_eq_some_iff.mp found)
      rw [none, Option.getD_none]
  · rintro rfl
    cases found : path? cs with
    | none =>
        refine .key fun steps spells => ?_
        cases found.symm.trans (path?_eq_some_iff.mpr spells)
    | some steps => exact .path (path?_eq_some_iff.mp found)

/-- The path in a body, as the reader looks for it. -/
def pathOf (body : List Char) : Bool × List Char :=
  match Text.dropStart? tableMark.toList (Text.trim body) with
  | some rest => (true, Text.trim rest)
  | none => (false, Text.trim body)

theorem read_eq (body : String) :
    read body = ⟨(pathOf body.toList).1,
      (path? (pathOf body.toList).2).getD [.key (String.ofList (pathOf body.toList).2)]⟩ := rfl

theorem holds_iff {body path : List Char} {table : Bool} :
    Holds body table path ↔ pathOf body = (table, path) := by
  rw [pathOf]
  constructor
  · rintro (noMark | mark)
    · have none : Text.dropStart? tableMark.toList (Text.trim body) = none :=
        Option.eq_none_iff_forall_ne_some.mpr fun rest found =>
          noMark ⟨rest, (Xml.eq_append_of_dropStart? found).symm⟩
      rw [none]
    · rw [mark, Xml.dropStart?_append]
  · intro same
    split at same
    · rename_i rest found
      cases same
      exact .table (Xml.eq_append_of_dropStart? found)
    · rename_i none
      cases same
      refine .plain ?_
      rintro ⟨rest, mark⟩
      rw [← mark, Xml.dropStart?_append] at none
      cases none

/-- The reader finds the steps of a text exactly if the grammar says that it spells them, and a body
is read as the steps of the path in it, or as one key if there is no path. -/
theorem read_eq_iff :
    (∀ cs steps, path? cs = some steps ↔ Spells cs steps) ∧
      ∀ (body : String) (a : DataPath),
        read body = a ↔ ∃ path, Holds body.toList a.table path ∧ ReadAs path a.steps := by
  refine ⟨fun cs steps => path?_eq_some_iff, fun body a => ?_⟩
  constructor
  · rintro rfl
    exact ⟨(pathOf body.toList).2, holds_iff.mpr rfl, readAs_iff.mpr rfl⟩
  · rintro ⟨path, holds, readAs⟩
    rw [read_eq, holds_iff.mp holds, readAs_iff.mp readAs]

example : read " table: a[ 'x\\']' ].07 " = ⟨true, [.key "a", .key "x']", .index 7]⟩ := by
  decide +kernel

example : read "a.[0]" = ⟨false, [.key "a.[0]"]⟩ := by decide +kernel

end SheetFill.DataPath
