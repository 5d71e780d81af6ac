import SheetFill.Proofs.InsertionLog.Formulas

/-!
# Formulas written as tokens

The scanner of a formula looks for quotes and for the names of sheets, and takes any other character
as it comes. It finds what the writer of a formula meant as long as operators or blanks stand
between its texts, words and references: each token ends where the next one starts, quotes inside of
quotes included, and moving the references to a sheet moves those tokens and leaves all others
(`adjustFormula_text`).

A word is scanned in pieces, since it may have a `$` or a `:` that ends the name of a sheet. No
piece is taken for a name, because none is followed by a `!`.
-/

namespace SheetFill.Formula

/-! ## Tokens -/

/-- The operators of a formula, with parentheses and braces, and the blank. -/
def separators : List Char :=
  [',', ';', '+', '-', '*', '/', '^', '&', '=', '<', '>', '(', ')', '\x7b', '\x7d', '%', ' ']

/-- Whether a character may stand in a word. -/
def inWord (c : Char) : Bool := c.isAlphanum || c == '_' || c == '.' || c == '$' || c == ':'

/-- A text in which every quote is written twice. -/
def doubled (quote : Char) (cs : List Char) : List Char :=
  cs.flatMap fun c => if c = quote then [quote, quote] else [c]

theorem doubled_quote (mark : Char) (cs : List Char) :
    doubled mark (mark :: cs) = mark :: mark :: doubled mark cs := by
  rw [doubled, List.flatMap_cons, if_pos rfl]
  rfl

theorem doubled_other {mark c : Char} (other : c ≠ mark) (cs : List Char) :
    doubled mark (c :: cs) = c :: doubled mark cs := by
  rw [doubled, List.flatMap_cons, if_neg other]
  rfl

/-- Whether the name of a sheet needs no quotes. -/
def isBareName : List Char → Bool
  | [] => false
  | c :: cs => (c.isAlphanum || c == '_') && cs.all fun c => c.isAlphanum || c == '_' || c == '.'

/-- The name of a sheet in front of a `!`. -/
inductive SheetName where
  /-- A name without quotes. -/
  | bare (word : List Char) (isBare : isBareName word = true)
  /-- A name in quotes. -/
  | quoted (name : List Char)

namespace SheetName

/-- The name that is meant. -/
def meant : SheetName → List Char
  | .bare word _ => word
  | .quoted name => name

/-- The name as it is written. -/
def chars : SheetName → List Char
  | .bare word _ => word
  | .quoted name => '\'' :: (doubled '\'' name ++ ['\''])

end SheetName

/-- A range as it is written behind a `!`. -/
structure Target where
  /-- The address or the two addresses. -/
  written : List Char
  /-- The range that they are. -/
  range : CellRange
  /-- There are letters, digits, `$` and `:` only. -/
  spelled : written.all inReference = true
  /-- The range is read from them. -/
  read : CellRange.readChars written = .ok range

/-- A range in its own spelling. -/
def Target.ofRange (range : CellRange) (wellFormed : range.WellFormed) : Target where
  written := range.chars
  range := range
  spelled := List.all_eq_true.mpr fun _ mem => CellRange.inReference_of_mem_chars mem
  read := by
    rw [← CellRange.read_text wellFormed, CellRange.read, CellRange.text, String.toList_ofList]

/-- A range that grew. -/
def Target.grown (log : InsertionLog) (target : Target) : Target :=
  .ofRange (log.growRange target.range) (CellRange.wellFormed_relocate ..)

/-- A token of a formula. -/
inductive Token where
  /-- An operator or a blank. -/
  | separator (c : Char) (isSeparator : c ∈ separators)
  /-- A text in double quotes. -/
  | literal (inside : List Char)
  /-- Numbers, names and references without a sheet. -/
  | word (cs : List Char) (spelled : cs.all inWord = true)
  /-- A reference to a sheet. -/
  | reference (sheet : SheetName) (target : Target)

namespace Token

/-- Whether a token is an operator or a blank. -/
def isSeparator : Token → Bool
  | .separator _ _ => true
  | _ => false

/-- A token as it is written. -/
def chars : Token → List Char
  | .separator c _ => [c]
  | .literal inside => '"' :: (doubled '"' inside ++ ['"'])
  | .word cs _ => cs
  | .reference sheet target => sheet.chars ++ '!' :: target.written

/-- A token whose range has grown if it is a reference to the given sheet. -/
def adjusted (log : InsertionLog) (sheet : List Char) : Token → Token
  | .reference name target =>
      if sameName sheet name.meant then .reference name (target.grown log)
      else .reference name target
  | token => token

end Token

/-- Between two tokens that are no operator or blank stands one. -/
def Separated (tokens : List Token) : Prop :=
  tokens.IsChain fun a b => a.isSeparator = true ∨ b.isSeparator = true

/-- Tokens as they are written, one after another. -/
def text (tokens : List Token) : List Char := tokens.flatMap Token.chars

/-- A text begins with an operator or a blank, if there is one. -/
def StartsApart (rest : List Char) : Prop := ∀ c ∈ rest.head?, c ∈ separators

/-! ## Where tokens end -/

theorem separators_spec : ∀ c ∈ separators,
    c ≠ '"' ∧ c ≠ '\'' ∧ c ≠ '!' ∧ startsName c = false ∧ inName c = false ∧
      inReference c = false := by
  -- The list is tested: `decide` of the statement itself may go through all the characters.
  have tested : separators.all (fun c => decide (c ≠ '"' ∧ c ≠ '\'' ∧ c ≠ '!' ∧
      startsName c = false ∧ inName c = false ∧ inReference c = false)) = true := by decide
  exact fun c mem => of_decide_eq_true (List.all_eq_true.mp tested c mem)

theorem inWord_spec {c : Char} (word : inWord c = true) : c ≠ '"' ∧ c ≠ '\'' ∧ c ≠ '!' := by
  refine ⟨?_, ?_, ?_⟩
  all_goals
    rintro rfl
    exact absurd word (by decide)

theorem startsApart_append {token : Token} (separates : token.isSeparator = true)
    (rest : List Char) : StartsApart (token.chars ++ rest) := by
  cases token with
  | separator c isSeparator =>
      intro d first
      cases first
      exact isSeparator
  | literal inside => cases separates
  | word cs spelled => cases separates
  | reference sheet target => cases separates

/-- A letter or digit of ASCII may start the name of a sheet. -/
theorem startsName_of_isAlphanum {c : Char} (ascii : c.isAlphanum = true) :
    startsName c = true := by
  have small : c.toNat < 0x80 := by
    unfold Char.isAlphanum Char.isAlpha Char.isUpper Char.isLower Char.isDigit at ascii
    simp only [Bool.or_eq_true, Bool.and_eq_true, decide_eq_true_eq,
      UInt32.le_iff_toNat_le] at ascii
    simp only [Char.toNat]
    rcases ascii with (⟨_, high⟩ | ⟨_, high⟩) | ⟨_, high⟩
    all_goals exact Nat.lt_of_le_of_lt high (by decide)
  rw [startsName, Text.isLetterOrNumber, if_pos small, ascii]
  rfl

theorem closeString_doubled (inside : List Char) {rest : List Char}
    (ends : rest.head? ≠ some '"') :
    closeString (doubled '"' inside ++ '"' :: rest) = (doubled '"' inside ++ ['"'], rest) := by
  induction inside with
  | nil => exact closeString_quote ends
  | cons c inside ih =>
      by_cases quote : c = '"'
      · subst quote
        rw [doubled_quote, List.cons_append, List.cons_append, closeString, ih]
        rfl
      · rw [doubled_other quote, List.cons_append,
          closeString.eq_4 _ _ (fun _ same _ => quote same) quote, ih]
        rfl

theorem closeName_doubled (name : List Char) {rest : List Char} (ends : rest.head? ≠ some '\'') :
    closeName (doubled '\'' name ++ '\'' :: rest) =
      (doubled '\'' name ++ ['\''], some name, rest) := by
  induction name with
  | nil => exact closeName_quote ends
  | cons c name ih =>
      by_cases quote : c = '\''
      · subst quote
        rw [doubled_quote, List.cons_append, List.cons_append, closeName, ih]
        rfl
      · rw [doubled_other quote, List.cons_append,
          closeName.eq_4 _ _ (fun _ same _ => quote same) quote, ih]
        rfl

/-- The name of a sheet is found in front of its `!`. -/
theorem firstPart_sheetName (name : SheetName) {c : Char} {cs : List Char}
    (start : name.chars = c :: cs) (rest : List Char) :
    firstPart c (cs ++ '!' :: rest) =
      (.qualified name.chars (some name.meant) (rest.takeWhile inReference),
        rest.dropWhile inReference) := by
  cases name with
  | bare word isBare =>
      simp only [SheetName.chars] at start
      subst start
      simp only [isBareName, Bool.and_eq_true, List.all_eq_true] at isBare
      obtain ⟨first, all⟩ := isBare
      have ascii : startsName c = true := by
        rcases Bool.or_eq_true_iff.mp first with letter | mark
        · exact startsName_of_isAlphanum letter
        · rw [startsName, mark, Bool.or_true]
      have noString : c ≠ '"' := by
        rintro rfl
        exact absurd first (by decide)
      have noQuote : c ≠ '\'' := by
        rintro rfl
        exact absurd first (by decide)
      have inside : ∀ d ∈ cs, inName d = true := by
        intro d mem
        have spelled := all d mem
        rw [Bool.or_eq_true, Bool.or_eq_true] at spelled
        rcases spelled with (letter | mark) | dot
        · rw [inName, startsName_of_isAlphanum letter, Bool.true_or]
        · rw [inName, startsName, mark, Bool.or_true, Bool.true_or]
        · rw [inName, dot, Bool.or_true]
      have stop : ∀ d ∈ ('!' :: rest).head?, inName d = false := by
        intro d first
        cases first
        decide
      rw [firstPart, if_neg noString, if_neg noQuote, if_pos ascii]
      simp only [Xml.takeWhile_append_of_stop inside stop, Xml.dropWhile_append_of_stop inside stop,
        afterName, SheetName.chars, SheetName.meant]
  | quoted name =>
      simp only [SheetName.chars, List.cons.injEq] at start
      obtain ⟨rfl, rfl⟩ := start
      have noPair : ('!' :: rest).head? ≠ some '\'' := by
        intro same
        cases same
      rw [firstPart, if_neg (by decide), if_pos rfl, List.append_assoc, List.singleton_append,
        closeName_doubled name noPair]
      rfl

/-- The first piece of a word is a run of characters of a name or any other character. It is no
name, since what follows it is in the word or apart from it, so it is no `!`. -/
theorem exists_piece {c : Char} {cs rest : List Char} (spelled : ∀ d ∈ c :: cs, inWord d = true)
    (apart : StartsApart rest) :
    ∃ piece later, cs = piece ++ later ∧
      firstPart c (cs ++ rest) = (.plain (c :: piece), later ++ rest) := by
  rw [List.forall_mem_cons] at spelled
  obtain ⟨noString, noQuote, -⟩ := inWord_spec spelled.1
  by_cases name : startsName c = true
  · have inside : ∀ d ∈ cs.takeWhile inName, inName d = true :=
      List.all_eq_true.mp List.all_takeWhile
    have next : ∀ d ∈ (cs.dropWhile inName ++ rest).head?, inName d = false ∧ d ≠ '!' := by
      intro d first
      cases more : cs.dropWhile inName with
      | nil =>
          rw [more, List.nil_append] at first
          obtain ⟨-, -, noMark, -, noName, -⟩ := separators_spec d (apart d first)
          exact ⟨noName, noMark⟩
      | cons e es =>
          rw [more] at first
          cases first
          have mem : d ∈ cs := (List.dropWhile_suffix inName).subset (more ▸ List.mem_cons_self)
          exact ⟨stop_of_dropWhile (congrArg List.head? more.symm) d rfl,
            (inWord_spec (spelled.2 d mem)).2.2⟩
    have stop : ∀ d ∈ (cs.dropWhile inName ++ rest).head?, inName d = false :=
      fun d first => (next d first).1
    have noMark : (cs.dropWhile inName ++ rest).head? ≠ some '!' :=
      fun first => (next '!' first).2 rfl
    have split : cs ++ rest = cs.takeWhile inName ++ (cs.dropWhile inName ++ rest) := by
      rw [← List.append_assoc, List.takeWhile_append_dropWhile]
    refine ⟨cs.takeWhile inName, cs.dropWhile inName, List.takeWhile_append_dropWhile.symm, ?_⟩
    rw [firstPart, if_neg noString, if_neg noQuote, if_pos name, split]
    simp only [Xml.takeWhile_append_of_stop inside stop, Xml.dropWhile_append_of_stop inside stop,
      afterName_of_ne _ _ noMark]
  · exact ⟨[], cs, rfl, by rw [firstPart, if_neg noString, if_neg noQuote, if_neg name]⟩

/-! ## Rewritten formulas -/

section Rewritten

variable (log : InsertionLog) (sheet : List Char)

/-- A formula whose references to a sheet are moved. -/
def rewritten (cs : List Char) : List Char :=
  ((parts cs).map (Part.adjusted log sheet)).flatMap Part.chars

variable {log sheet}

theorem rewritten_of_firstPart {c : Char} {cs rest : List Char} {part : Part}
    (first : firstPart c cs = (part, rest)) :
    rewritten log sheet (c :: cs) =
      (part.adjusted log sheet).chars ++ rewritten log sheet rest := by
  rw [rewritten, parts_cons, first, List.map_cons, List.flatMap_cons]
  rfl

theorem rewritten_separator {c : Char} (isSeparator : c ∈ separators) (rest : List Char) :
    rewritten log sheet (c :: rest) = c :: rewritten log sheet rest := by
  obtain ⟨noString, noQuote, -, noName, -⟩ := separators_spec c isSeparator
  have first : firstPart c rest = (.plain [c], rest) := by
    simp [firstPart, noString, noQuote, noName]
  rw [rewritten_of_firstPart first]
  rfl

theorem rewritten_literal (inside : List Char) {rest : List Char} (apart : StartsApart rest) :
    rewritten log sheet ('"' :: (doubled '"' inside ++ '"' :: rest)) =
      '"' :: (doubled '"' inside ++ '"' :: rewritten log sheet rest) := by
  have ends : rest.head? ≠ some '"' := fun start => (separators_spec _ (apart _ start)).1 rfl
  have first : firstPart '"' (doubled '"' inside ++ '"' :: rest) =
      (.plain ('"' :: (doubled '"' inside ++ ['"'])), rest) := by
    rw [firstPart, if_pos rfl, closeString_doubled inside ends]
  rw [rewritten_of_firstPart first]
  simp [Part.adjusted, Part.chars]

/-- A word stays, by induction on its length. -/
theorem rewritten_word {cs : List Char} (spelled : ∀ c ∈ cs, inWord c = true) {rest : List Char}
    (apart : StartsApart rest) :
    rewritten log sheet (cs ++ rest) = cs ++ rewritten log sheet rest := by
  induction length : cs.length using Nat.strongRecOn generalizing cs with
  | ind n ih =>
      cases cs with
      | nil => rfl
      | cons c cs =>
          obtain ⟨piece, later, rfl, first⟩ := exists_piece spelled apart
          have shorter : later.length < n := by
            rw [← length, List.length_cons, List.length_append]
            omega
          have spelledLater : ∀ d ∈ later, inWord d = true :=
            fun d mem => spelled d (List.mem_cons_of_mem c (List.mem_append_right piece mem))
          rw [List.cons_append, rewritten_of_firstPart first, ih _ shorter spelledLater rfl,
            Part.adjusted, Part.chars, List.cons_append, List.cons_append, List.append_assoc]

theorem adjustItem_written (target : Target) :
    log.adjustItem target.written = (target.grown log).written := by
  rw [InsertionLog.adjustItem, target.read]
  rfl

/-- A reference is rewritten on its own if no character of a reference follows. -/
theorem rewritten_reference_of_stop (name : SheetName) (target : Target) {rest : List Char}
    (stop : ∀ d ∈ rest.head?, inReference d = false) :
    rewritten log sheet ((Token.reference name target).chars ++ rest) =
      ((Token.reference name target).adjusted log sheet).chars ++ rewritten log sheet rest := by
  obtain ⟨c, cs, start⟩ : ∃ c cs, name.chars = c :: cs := by
    cases name with
    | bare word isBare =>
        cases word with
        | nil => cases isBare
        | cons c cs => exact ⟨c, cs, rfl⟩
    | quoted name => exact ⟨_, _, rfl⟩
  have first := firstPart_sheetName name start (target.written ++ rest)
  rw [Xml.takeWhile_append_of_stop (List.all_eq_true.mp target.spelled) stop,
    Xml.dropWhile_append_of_stop (List.all_eq_true.mp target.spelled) stop] at first
  rw [Token.chars, start, List.append_assoc, List.cons_append, List.cons_append,
    rewritten_of_firstPart first, Part.adjusted, Token.adjusted, Option.any_some]
  split
  · simp only [Part.chars, Token.chars, adjustItem_written, List.append_assoc, List.cons_append]
  · simp only [Part.chars, Token.chars, List.append_assoc, List.cons_append]

theorem rewritten_reference (name : SheetName) (target : Target) {rest : List Char}
    (apart : StartsApart rest) :
    rewritten log sheet ((Token.reference name target).chars ++ rest) =
      ((Token.reference name target).adjusted log sheet).chars ++ rewritten log sheet rest :=
  rewritten_reference_of_stop name target fun d first =>
    (separators_spec d (apart d first)).2.2.2.2.2

/-- A token is rewritten on its own, if it is an operator or a blank or comes before one. -/
theorem rewritten_token (token : Token) {rest : List Char}
    (apart : token.isSeparator = true ∨ StartsApart rest) :
    rewritten log sheet (token.chars ++ rest) =
      (token.adjusted log sheet).chars ++ rewritten log sheet rest := by
  cases token with
  | separator c isSeparator => exact rewritten_separator isSeparator rest
  | literal inside =>
      have apart := apart.resolve_left Bool.false_ne_true
      simpa [Token.chars, Token.adjusted] using rewritten_literal inside apart
  | word cs spelled =>
      exact rewritten_word (List.all_eq_true.mp spelled) (apart.resolve_left Bool.false_ne_true)
  | reference name target =>
      exact rewritten_reference name target (apart.resolve_left Bool.false_ne_true)

/-- By induction on the tokens; what follows a token starts with the next one. -/
theorem rewritten_text {tokens : List Token} (separated : Separated tokens) :
    rewritten log sheet (text tokens) = text (tokens.map (Token.adjusted log sheet)) := by
  induction tokens with
  | nil => simp [rewritten, text, parts]
  | cons token tokens ih =>
      have apart : token.isSeparator = true ∨ StartsApart (text tokens) := by
        cases tokens with
        | nil => exact Or.inr fun c first => by cases first
        | cons next tokens =>
            exact (List.isChain_cons_cons.mp separated).1.imp_right fun separates =>
              startsApart_append separates (text tokens)
      have later := ih separated.of_cons
      rw [text, List.flatMap_cons, ← text, rewritten_token token apart, later, List.map_cons]
      rfl

end Rewritten

/-- Of a formula made of tokens with operators or blanks between them, exactly the references to a
sheet are moved: their ranges grow, and all other tokens stay. -/
theorem adjustFormula_text (log : InsertionLog) (sheet : String) (tokens : List Token)
    (separated : Separated tokens) :
    log.adjustFormula (String.ofList (text tokens)) sheet =
      String.ofList (text (tokens.map (Token.adjusted log sheet.toList))) := by
  rw [← rewritten_text separated, InsertionLog.adjustFormula, String.toList_ofList, rewritten,
    List.flatMap_map]

/-- A sum with references to two sheets, and a text with a reference and quotes in it. -/
def summedTokens : List Token :=
  [.word "SUM".toList (by decide), .separator '(' (by decide),
    .reference (.bare "data".toList (by decide))
      ⟨"$a1:B2".toList, ⟨⟨0, 0, false, true⟩, ⟨1, 1, false, false⟩, false⟩, by decide, rfl⟩,
    .separator ',' (by decide), .separator ' ' (by decide),
    .reference (.quoted "It's \"Data\"!".toList)
      ⟨"C2".toList, ⟨⟨1, 2, false, false⟩, ⟨1, 2, false, false⟩, true⟩, by decide, rfl⟩,
    .separator ',' (by decide), .word "$A$2:B2".toList (by decide), .separator ')' (by decide),
    .separator '&' (by decide), .literal "\"Data!A2\"".toList]

theorem adjustFormula_text_summedTokens :
    Separated summedTokens ∧
      threeMoreRows.adjustFormula (String.ofList (text summedTokens)) "Data" =
        String.ofList (text (summedTokens.map (Token.adjusted threeMoreRows "Data".toList))) := by
  have separated : Separated summedTokens := by
    unfold Separated
    decide
  exact ⟨separated, adjustFormula_text threeMoreRows "Data" summedTokens separated⟩

example : String.ofList (text summedTokens) =
    "SUM(data!$a1:B2, 'It''s \"Data\"!'!C2,$A$2:B2)&\"\"\"Data!A2\"\"\"" := by decide

example : String.ofList (text (summedTokens.map (Token.adjusted threeMoreRows "Data".toList))) =
    "SUM(data!$A1:B5, 'It''s \"Data\"!'!C2,$A$2:B2)&\"\"\"Data!A2\"\"\"" := by decide +kernel

end SheetFill.Formula
