import SheetFill.Proofs.InsertionLog.FormulaTokens

/-!
# What stays of a formula

Moving the references to a sheet changes a formula only at places where a range stands behind the
name of the sheet and a `!`, outside of quotes (`Place.Names`). All other characters stay
(`Edited`).

The scanner looks at the characters of the name and of the range only, not at what stands around
them. So it takes a place too where the name goes on to the left, as behind the number of another
workbook, or the range goes on to the right, as in a name that begins like an address. If a formula
has no such place, only complete references are changed (`adjustFormula_edited`).
-/

namespace SheetFill.Formula

/-! ## Quotes -/

/-- Whether a character is a quote. -/
def IsQuote (c : Char) : Prop := c = '"' ∨ c = '\''

instance : DecidablePred IsQuote := fun c => inferInstanceAs (Decidable (c = '"' ∨ c = '\''))

/-- The quote that is open behind a character. A quote written twice closes and opens again. -/
def quoteAfter : Option Char → Char → Option Char
  | none, c => if IsQuote c then some c else none
  | some mark, c => if c = mark then none else some mark

/-- The quote that is open at the end of a text. -/
def openQuote (cs : List Char) : Option Char := cs.foldl quoteAfter none

/-- A text in quotes. -/
def inQuotes (mark : Char) (cs : List Char) : List Char := mark :: (doubled mark cs ++ [mark])

theorem foldl_quoteAfter_doubled {mark : Char} (isQuote : IsQuote mark) (cs : List Char) :
    (doubled mark cs).foldl quoteAfter (some mark) = some mark := by
  induction cs with
  | nil => rfl
  | cons c cs ih =>
      by_cases quote : c = mark
      · subst quote
        rw [doubled_quote, List.foldl_cons, List.foldl_cons, quoteAfter, if_pos rfl, quoteAfter,
          if_pos isQuote, ih]
      · rw [doubled_other quote, List.foldl_cons, quoteAfter, if_neg quote, ih]

section OpenQuote

variable {front : List Char} (outside : openQuote front = none)

include outside

theorem openQuote_append_inQuotes {mark : Char} (isQuote : IsQuote mark) (cs : List Char) :
    openQuote (front ++ inQuotes mark cs) = none := by
  rw [openQuote] at outside
  rw [openQuote, List.foldl_append, outside, inQuotes, List.foldl_cons, quoteAfter, if_pos isQuote,
    List.foldl_append, foldl_quoteAfter_doubled isQuote, List.foldl_cons, quoteAfter, if_pos rfl]
  rfl

theorem openQuote_append {cs : List Char} (plain : ∀ c ∈ cs, ¬ IsQuote c) :
    openQuote (front ++ cs) = none := by
  rw [openQuote] at outside
  rw [openQuote, List.foldl_append, outside]
  induction cs with
  | nil => rfl
  | cons c cs ih =>
      rw [List.forall_mem_cons] at plain
      rw [List.foldl_cons, quoteAfter, if_neg plain.1, ih plain.2]

end OpenQuote

theorem not_isQuote_of_inName {c : Char} (name : inName c = true) : ¬ IsQuote c := by
  rintro (rfl | rfl)
  · exact absurd name (by decide)
  · exact absurd name (by decide)

theorem not_isQuote_of_inReference {c : Char} (reference : inReference c = true) :
    ¬ IsQuote c := by
  rintro (rfl | rfl)
  · exact absurd reference (by decide)
  · exact absurd reference (by decide)

theorem inName_of_startsName {c : Char} (starts : startsName c = true) : inName c = true := by
  rw [inName, starts, Bool.true_or]

/-! ## Names -/

/-- The name of a sheet as it is written, and the name that is meant. -/
inductive Named : List Char → List Char → Prop where
  /-- A name without quotes. -/
  | bare {c : Char} {cs : List Char} (starts : startsName c = true)
      (inside : ∀ d ∈ cs, inName d = true) : Named (c :: cs) (c :: cs)
  /-- A name in quotes. -/
  | quoted (name : List Char) : Named (inQuotes '\'' name) name

/-- A text ends in a name without quotes, or in a part of one. -/
def EndsInName (cs : List Char) : Prop :=
  ∃ front c name, cs = front ++ c :: name ∧ startsName c = true ∧ ∀ d ∈ name, inName d = true

/-- At the end of a text stand characters of references and dots behind a `!`. -/
def EndsInReference (cs : List Char) : Prop :=
  ∃ front run, cs = front ++ '!' :: run ∧ ∀ c ∈ run, inReference c = true ∨ c = '.'

theorem Named.openQuote_append {front written name : List Char} (named : Named written name)
    (outside : openQuote front = none) : openQuote (front ++ written) = none := by
  cases named with
  | @bare c cs starts inside =>
      have plain : ∀ d ∈ c :: cs, ¬ IsQuote d := by
        rw [List.forall_mem_cons]
        exact ⟨not_isQuote_of_inName (inName_of_startsName starts),
          fun d mem => not_isQuote_of_inName (inside d mem)⟩
      exact Formula.openQuote_append outside plain
  | quoted name => exact openQuote_append_inQuotes outside (.inr rfl) name

/-- Without a character that starts a name at its end, a text ends in a name only if it does so
before that character. -/
theorem EndsInName.of_append {cs : List Char} {c : Char} (noStart : startsName c = false)
    (ends : EndsInName (cs ++ [c])) : EndsInName cs ∧ inName c = true := by
  obtain ⟨front, d, name, same, starts, inside⟩ := ends
  rcases List.eq_nil_or_concat name with rfl | ⟨name, last, rfl⟩
  · obtain ⟨-, last⟩ := List.append_inj' same rfl
    cases last
    exact absurd starts (Bool.eq_false_iff.mp noStart)
  · rw [List.concat_eq_append, ← List.cons_append, ← List.append_assoc] at same
    obtain ⟨rfl, last⟩ := List.append_inj' same rfl
    cases last
    rw [List.concat_eq_append, List.forall_mem_append] at inside
    exact ⟨⟨front, d, name, rfl, starts, inside.1⟩, inside.2 c List.mem_cons_self⟩

/-! ## Places -/

/-- A text cut at a name, a `!` and a reference. -/
structure Place where
  /-- What stands in front of the name. -/
  front : List Char
  /-- The name. -/
  name : List Char
  /-- What stands behind the `!`. -/
  reference : List Char
  /-- What follows. -/
  after : List Char

namespace Place

/-- The text that is cut. -/
def text (p : Place) : List Char := p.front ++ (p.name ++ '!' :: (p.reference ++ p.after))

/-- The name of a sheet and a range stand at a place, outside of quotes. The range is the longest
run of characters of references. The name starts where no name stands, or behind a reference that
is cut off. -/
structure Names (sheet : List Char) (range : CellRange) (p : Place) : Prop where
  /-- No quote is open. -/
  outside : openQuote p.front = none
  /-- A name without quotes starts here. -/
  first : p.name.head? ≠ some '\'' → EndsInName p.front → EndsInReference p.front
  /-- It is the name of the sheet. -/
  named : ∃ name, Named p.name name ∧ sameName sheet name = true
  /-- There are letters, digits, `$` and `:` only. -/
  spelled : ∀ c ∈ p.reference, inReference c = true
  /-- They end here. -/
  stop : ∀ c ∈ p.after.head?, inReference c = false
  /-- They are the range. -/
  read : CellRange.readChars p.reference = .ok range

/-- Whether a name goes on to the left: behind the number or name of another workbook, the first
name of a range of sheets, another `!` or more characters of names. -/
def goesOnLeft (c : Char) : Bool := c == ']' || c == ':' || c == '!' || inName c

/-- Whether a reference goes on to the right: as a longer name, the name of a function or that of a
sheet. -/
def goesOnRight (c : Char) : Bool := c == '(' || c == '!' || inName c

/-- It is a reference to a sheet of this workbook and not a part of anything longer. -/
structure Complete (p : Place) : Prop where
  /-- The name does not go on to the left. -/
  left : ∀ c ∈ p.front.getLast?, goesOnLeft c = false
  /-- The reference does not go on to the right. -/
  right : ∀ c ∈ p.after.head?, goesOnRight c = false

end Place

section Edited

variable (log : InsertionLog) (sheet : List Char) (allowed : Place → Prop)

/-- What becomes of a text behind another one. At some of the places that are allowed the range
grows, and every other character stays. -/
inductive Edited : List Char → List Char → List Char → Prop where
  /-- Nothing is left. -/
  | done {front : List Char} : Edited front [] []
  /-- A character stays. -/
  | keep {front cs out : List Char} {c : Char} (later : Edited (front ++ [c]) cs out) :
      Edited front (c :: cs) (c :: out)
  /-- A range grows. -/
  | grow {front name reference after out : List Char} {range : CellRange}
      (names : Place.Names sheet range ⟨front, name, reference, after⟩)
      (isAllowed : allowed ⟨front, name, reference, after⟩)
      (later : Edited (front ++ (name ++ '!' :: reference)) after out) :
      Edited front (name ++ '!' :: (reference ++ after))
        (name ++ '!' :: ((log.growRange range).chars ++ out))

variable {log sheet allowed}

theorem Edited.keep_append {front text cs out : List Char}
    (later : Edited log sheet allowed (front ++ text) cs out) :
    Edited log sheet allowed front (text ++ cs) (text ++ out) := by
  induction text generalizing front with
  | nil => simpa using later
  | cons c text ih =>
      refine .keep (ih ?_)
      simpa using later

/-- Other places may be allowed if all those of the text are that have a name and a range. -/
theorem Edited.of_places {allowed' : Place → Prop} {front cs out : List Char}
    (edited : Edited log sheet allowed front cs out)
    (places : ∀ (p : Place) range, p.text = front ++ cs → p.Names sheet range → allowed p →
      allowed' p) :
    Edited log sheet allowed' front cs out := by
  induction edited with
  | done => exact .done
  | keep _ ih =>
      refine .keep (ih fun p range same => places p range ?_)
      rw [same, List.append_assoc]
      rfl
  | @grow front name reference after out range names isAllowed _ ih =>
      refine .grow names (places _ range rfl names isAllowed) (ih fun p range same =>
        places p range ?_)
      simpa using same

/-- Without a place nothing changes. -/
theorem Edited.eq_of_none {front cs out : List Char}
    (edited : Edited log sheet (fun _ => False) front cs out) : out = cs := by
  induction edited with
  | done => rfl
  | keep _ ih => rw [ih]
  | grow _ isAllowed => exact isAllowed.elim

end Edited

/-! ## What a part can be -/

/-- A part of a formula, and what follows it. -/
inductive Scanned : Part → List Char → Prop where
  /-- The rest of a formula from a quote on that is not closed. -/
  | unclosed (text : List Char) : Scanned (.plain text) []
  /-- A text in quotes. -/
  | quoted {mark : Char} (isQuote : IsQuote mark) (text rest : List Char) :
      Scanned (.plain (inQuotes mark text)) rest
  /-- A name without quotes that ends here. -/
  | word {c : Char} {cs rest : List Char} (starts : startsName c = true)
      (inside : ∀ d ∈ cs, inName d = true) (stop : ∀ d ∈ rest.head?, inName d = false) :
      Scanned (.plain (c :: cs)) rest
  /-- A character that starts nothing. -/
  | other {c : Char} (noStart : startsName c = false) (noQuote : ¬ IsQuote c) (rest : List Char) :
      Scanned (.plain [c]) rest
  /-- What stands behind a name and a `!`. -/
  | qualified {written name reference rest : List Char} (named : Named written name)
      (spelled : ∀ d ∈ reference, inReference d = true)
      (stop : ∀ d ∈ rest.head?, inReference d = false) :
      Scanned (.qualified written (some name) reference) rest

theorem closeString_eq {cs inside rest : List Char} (closed : closeString cs = (inside, rest)) :
    cs = inside ++ rest ∧ (rest = [] ∨ ∃ text, inside = doubled '"' text ++ ['"']) := by
  induction cs using closeString.induct generalizing inside with
  | case1 =>
      cases closed
      exact ⟨rfl, .inl rfl⟩
  | case2 cs inner after closed' ih =>
      rw [closeString, closed'] at closed
      cases closed
      obtain ⟨rfl, closes⟩ := ih closed'
      refine ⟨rfl, closes.imp_right ?_⟩
      rintro ⟨text, rfl⟩
      exact ⟨'"' :: text, by rw [doubled_quote]; rfl⟩
  | case3 cs other =>
      rw [closeString_quote (head?_ne_of_forall other)] at closed
      cases closed
      exact ⟨rfl, .inr ⟨[], rfl⟩⟩
  | case4 c cs noPair noQuote inner after closed' ih =>
      rw [closeString.eq_4 c cs noPair noQuote, closed'] at closed
      cases closed
      obtain ⟨rfl, closes⟩ := ih closed'
      refine ⟨rfl, closes.imp_right ?_⟩
      rintro ⟨text, rfl⟩
      exact ⟨c :: text, by rw [doubled_other noQuote]; rfl⟩

theorem closeName_eq {cs written rest : List Char} {name : Option (List Char)}
    (closed : closeName cs = (written, name, rest)) :
    cs = written ++ rest ∧
      (name = none ∧ rest = [] ∨
        ∃ text, name = some text ∧ written = doubled '\'' text ++ ['\'']) := by
  induction cs using closeName.induct generalizing written name with
  | case1 =>
      cases closed
      exact ⟨rfl, .inl ⟨rfl, rfl⟩⟩
  | case2 cs inner name' after closed' ih =>
      rw [closeName, closed'] at closed
      cases closed
      obtain ⟨rfl, ⟨rfl, rfl⟩ | ⟨text, rfl, rfl⟩⟩ := ih closed'
      · exact ⟨rfl, .inl ⟨rfl, rfl⟩⟩
      · exact ⟨rfl, .inr ⟨'\'' :: text, rfl, by rw [doubled_quote]; rfl⟩⟩
  | case3 cs other =>
      rw [closeName_quote (head?_ne_of_forall other)] at closed
      cases closed
      exact ⟨rfl, .inr ⟨[], rfl, rfl⟩⟩
  | case4 c cs noPair noQuote inner name' after closed' ih =>
      rw [closeName.eq_4 c cs noPair noQuote, closed'] at closed
      cases closed
      obtain ⟨rfl, ⟨rfl, rfl⟩ | ⟨text, rfl, rfl⟩⟩ := ih closed'
      · exact ⟨rfl, .inl ⟨rfl, rfl⟩⟩
      · exact ⟨rfl, .inr ⟨c :: text, rfl, by rw [doubled_other noQuote]; rfl⟩⟩

/-- Behind a name comes a reference, or the name is text. -/
theorem scanned_afterName {written name cs rest : List Char} {part : Part}
    (named : Named written name) (asText : Scanned (.plain written) cs)
    (found : afterName written (some name) cs = (part, rest)) :
    written ++ cs = part.chars ++ rest ∧ Scanned part rest := by
  by_cases mark : cs.head? = some '!'
  · obtain ⟨more, rfl⟩ := List.head?_eq_some_iff.mp mark
    cases found
    refine ⟨?_, .qualified named (List.all_eq_true.mp List.all_takeWhile) (stop_of_dropWhile rfl)⟩
    rw [Part.chars, List.append_assoc, List.cons_append, List.takeWhile_append_dropWhile]
  · rw [afterName_of_ne written _ mark] at found
    cases found
    exact ⟨rfl, asText⟩

/-- Nothing is lost by the cut. -/
theorem scanned_firstPart {c : Char} {cs rest : List Char} {part : Part}
    (first : firstPart c cs = (part, rest)) :
    c :: cs = part.chars ++ rest ∧ Scanned part rest := by
  rw [firstPart] at first
  split at first
  · rename_i quote
    subst quote
    obtain ⟨⟨inside, after⟩, closed⟩ : ∃ found, closeString cs = found := ⟨_, rfl⟩
    rw [closed] at first
    cases first
    obtain ⟨rfl, rfl | ⟨text, rfl⟩⟩ := closeString_eq closed
    · exact ⟨rfl, .unclosed _⟩
    · exact ⟨rfl, .quoted (.inl rfl) text rest⟩
  · rename_i noString
    split at first
    · rename_i quote
      subst quote
      obtain ⟨⟨written, name, after⟩, closed⟩ : ∃ found, closeName cs = found := ⟨_, rfl⟩
      rw [closed] at first
      obtain ⟨rfl, ⟨rfl, rfl⟩ | ⟨text, rfl, rfl⟩⟩ := closeName_eq closed
      · cases first
        exact ⟨rfl, .unclosed _⟩
      · exact scanned_afterName (.quoted text) (.quoted (.inr rfl) text after) first
    · rename_i noName
      split at first
      · rename_i starts
        have inside : ∀ d ∈ cs.takeWhile inName, inName d = true :=
          List.all_eq_true.mp List.all_takeWhile
        have stop : ∀ d ∈ (cs.dropWhile inName).head?, inName d = false := stop_of_dropWhile rfl
        have found := scanned_afterName (.bare starts inside) (.word starts inside stop) first
        rw [List.cons_append, List.takeWhile_append_dropWhile] at found
        exact found
      · rename_i noStart
        cases first
        have noQuote : ¬ IsQuote c := not_or.mpr ⟨noString, noName⟩
        exact ⟨rfl, .other (Bool.eq_false_iff.mpr noStart) noQuote cs⟩

/-! ## From part to part -/

/-- What holds between two parts. -/
structure Between (front rest : List Char) : Prop where
  /-- No quote is open. -/
  outside : openQuote front = none
  /-- No name goes on, but for one that starts behind a reference. -/
  apart : EndsInName front → EndsInReference front ∨ ∀ c ∈ rest.head?, inName c = false

theorem between_start (cs : List Char) : Between [] cs :=
  ⟨rfl, fun ⟨_, _, _, same, _⟩ => by simp at same⟩

/-- Where a name without quotes starts, no name goes on. -/
theorem Named.first {front written name rest : List Char} (named : Named written name)
    (between : Between front (written ++ rest)) (bare : written.head? ≠ some '\'')
    (ends : EndsInName front) : EndsInReference front := by
  cases named with
  | bare starts inside =>
      rcases between.apart ends with behind | apart
      · exact behind
      · have noName := apart _ rfl
        rw [inName_of_startsName starts] at noName
        cases noName
  | quoted name => exact absurd rfl bare

section Step

variable {front rest : List Char} {part : Part} (scanned : Scanned part rest)
  (between : Between front (part.chars ++ rest))

include scanned between

theorem Scanned.between_next : rest = [] ∨ Between (front ++ part.chars) rest := by
  cases scanned with
  | unclosed text => exact .inl rfl
  | @quoted mark isQuote text =>
      refine .inr ⟨openQuote_append_inQuotes between.outside isQuote text, fun ends => ?_⟩
      have noName : ¬ inName mark = true := fun name => not_isQuote_of_inName name isQuote
      have noStart : startsName mark = false :=
        Bool.eq_false_iff.mpr fun starts => noName (inName_of_startsName starts)
      rw [Part.chars, inQuotes, ← List.cons_append, ← List.append_assoc] at ends
      exact absurd (ends.of_append noStart).2 noName
  | @word c cs _ starts inside stop =>
      exact .inr ⟨(Named.bare starts inside).openQuote_append between.outside, fun _ => .inr stop⟩
  | @other c noStart noQuote =>
      refine .inr ⟨openQuote_append between.outside (List.forall_mem_singleton.mpr noQuote),
        fun ends => .inl ?_⟩
      obtain ⟨ends, name⟩ := ends.of_append noStart
      have dot : c = '.' := by simpa [inName, noStart] using name
      rcases between.apart ends with ⟨front, run, rfl, spelled⟩ | apart
      · refine ⟨front, run ++ ['.'], by simp [Part.chars, dot], ?_⟩
        rw [List.forall_mem_append]
        exact ⟨spelled, List.forall_mem_singleton.mpr (.inr rfl)⟩
      · exact absurd name (Bool.eq_false_iff.mp (apart c rfl))
  | @qualified written name reference _ named spelled stop =>
      have split : front ++ Part.chars (.qualified written (some name) reference) =
          front ++ written ++ '!' :: reference := by rw [Part.chars, List.append_assoc]
      have noQuote : ∀ c ∈ '!' :: reference, ¬ IsQuote c := by
        rw [List.forall_mem_cons]
        exact ⟨by decide, fun c mem => not_isQuote_of_inReference (spelled c mem)⟩
      rw [split]
      exact .inr ⟨openQuote_append (named.openQuote_append between.outside) noQuote,
        fun _ => .inl ⟨_, reference, rfl, fun c mem => .inl (spelled c mem)⟩⟩

theorem Scanned.edited {log : InsertionLog} {sheet out : List Char}
    (later : Edited log sheet (fun _ => True) (front ++ part.chars) rest out) :
    Edited log sheet (fun _ => True) front (part.chars ++ rest)
      ((part.adjusted log sheet).chars ++ out) := by
  cases scanned with
  | unclosed | quoted | word | other => exact later.keep_append
  | @qualified written name reference _ named spelled stop =>
      rw [Part.adjusted, Option.any_some]
      split
      · rename_i same
        rw [InsertionLog.adjustItem]
        split
        · rename_i range read
          rw [Part.chars, List.append_assoc] at between
          have names : Place.Names sheet range ⟨front, written, reference, rest⟩ :=
            ⟨between.outside, named.first between, ⟨name, named, same⟩, spelled, stop, read⟩
          simpa [Part.chars] using Edited.grow names trivial later
        · exact later.keep_append
      · exact later.keep_append

end Step

/-- By induction on the parts. -/
theorem edited_rewritten {log : InsertionLog} {sheet front cs : List Char}
    (between : cs = [] ∨ Between front cs) :
    Edited log sheet (fun _ => True) front cs (rewritten log sheet cs) := by
  induction cs using parts.induct generalizing front with
  | case1 =>
      rw [rewritten, parts]
      exact .done
  | case2 c cs ih =>
      obtain ⟨⟨part, rest⟩, first⟩ : ∃ found, firstPart c cs = found := ⟨_, rfl⟩
      have between := between.resolve_left (List.cons_ne_nil c cs)
      rw [first] at ih
      rw [rewritten_of_firstPart first]
      obtain ⟨split, scanned⟩ := scanned_firstPart first
      rw [split] at between ⊢
      exact scanned.edited between (ih (scanned.between_next between))

/-! ## Places that are taken -/

/-- What may stand in front of the name of a sheet: nothing or a workbook in brackets. -/
inductive Workbook : List Char → Prop where
  /-- The sheet is one of this workbook. -/
  | this : Workbook []
  /-- The sheet is one of another workbook. -/
  | other {c : Char} {cs : List Char} (starts : startsName c = true)
      (inside : ∀ d ∈ cs, inName d = true) : Workbook ('[' :: c :: (cs ++ [']']))

/-- A workbook in front is kept, and the scan starts again behind it. -/
theorem rewritten_workbook {log : InsertionLog} {sheet workbook : List Char}
    (inFront : Workbook workbook) (rest : List Char) :
    rewritten log sheet (workbook ++ rest) = workbook ++ rewritten log sheet rest := by
  cases inFront with
  | this => rfl
  | @other c cs starts inside =>
      have noQuote := not_isQuote_of_inName (inName_of_startsName starts)
      have stop : ∀ d ∈ (']' :: rest).head?, inName d = false := by
        intro d first
        cases first
        decide
      have opening : firstPart '[' (c :: (cs ++ ']' :: rest)) =
          (.plain ['['], c :: (cs ++ ']' :: rest)) := rfl
      have name : firstPart c (cs ++ ']' :: rest) = (.plain (c :: cs), ']' :: rest) := by
        rw [firstPart, if_neg (not_or.mp noQuote).1, if_neg (not_or.mp noQuote).2, if_pos starts]
        simp only [Xml.takeWhile_append_of_stop inside stop,
          Xml.dropWhile_append_of_stop inside stop]
        rfl
      have closing : firstPart ']' rest = (.plain [']'], rest) := rfl
      simp only [List.cons_append, List.append_assoc, List.nil_append]
      rw [rewritten_of_firstPart opening, rewritten_of_firstPart name,
        rewritten_of_firstPart closing]
      simp [Part.adjusted, Part.chars]

/-- A formula that has one `!` and no single quotes in front of it has one place at most. -/
theorem Place.Names.split {sheet word rest : List Char} {range : CellRange} {p : Place}
    (names : p.Names sheet range) (same : p.text = word ++ '!' :: rest)
    (one : '!' ∉ word ∧ '!' ∉ rest) (noQuote : '\'' ∉ word) :
    p.front = word.take (word.length - sheet.length) ∧ p.after = rest.dropWhile inReference := by
  rw [text, ← List.append_assoc] at same
  obtain ⟨rfl, -, rfl⟩ := (List.append_cons_inj_of_notMem one.1 one.2).mp same.symm
  obtain ⟨name, named, meant⟩ := names.named
  constructor
  · have length : p.name.length = sheet.length := by
      rw [sameName, beq_iff_eq] at meant
      have length := congrArg List.length meant
      rw [List.length_map, List.length_map] at length
      generalize p.name = written at named noQuote
      cases named with
      | bare => exact length.symm
      | quoted => exact absurd (by simp [inQuotes]) noQuote
    rw [List.length_append, length, Nat.add_sub_cancel, List.take_left]
  · exact (Xml.dropWhile_append_of_stop names.spelled names.stop).symm

end SheetFill.Formula

namespace SheetFill.InsertionLog

open Formula

section Adjust

variable (log : InsertionLog) (formula sheet : String)

theorem toList_adjustFormula_rewritten :
    (log.adjustFormula formula sheet).toList = rewritten log sheet.toList formula.toList := by
  rw [toList_adjustFormula, rewritten]

theorem edited_adjustFormula {allowed : Place → Prop}
    (places : ∀ (p : Place) range, p.text = formula.toList → p.Names sheet.toList range →
      allowed p) :
    Edited log sheet.toList allowed [] formula.toList (log.adjustFormula formula sheet).toList := by
  rw [toList_adjustFormula_rewritten]
  exact (edited_rewritten (.inr (between_start _))).of_places fun p range same names _ =>
    places p range same names

theorem adjustFormula_workbook {workbook : List Char} (inFront : Workbook workbook)
    (name : SheetName) (target : Target) (rest : List Char)
    (same : sameName sheet.toList name.meant = true)
    (stop : ∀ c ∈ rest.head?, inReference c = false) :
    (log.adjustFormula (String.ofList (workbook ++ ((Token.reference name target).chars ++ rest)))
        sheet).toList =
      workbook ++ ((Token.reference name (target.grown log)).chars ++
        (log.adjustFormula (String.ofList rest) sheet).toList) := by
  rw [toList_adjustFormula_rewritten, toList_adjustFormula_rewritten, String.toList_ofList,
    String.toList_ofList, rewritten_workbook inFront,
    rewritten_reference_of_stop name target stop, Token.adjusted, if_pos same]

/-- Moving the references to a sheet changes nothing but ranges that stand behind the name of the
sheet. If no name goes on to the left and no range to the right, only complete references are
changed, and without a place the formula stays. But what stands around a place is not looked at: a
range grows at the start of a formula whatever follows it, and behind a workbook in brackets. -/
theorem adjustFormula_edited :
    Edited log sheet.toList (fun _ => True) [] formula.toList
        (log.adjustFormula formula sheet).toList ∧
      ((∀ (p : Place) range, p.text = formula.toList → p.Names sheet.toList range → p.Complete) →
        Edited log sheet.toList Place.Complete [] formula.toList
          (log.adjustFormula formula sheet).toList) ∧
      ((∀ (p : Place) range, p.text = formula.toList → ¬ p.Names sheet.toList range) →
        log.adjustFormula formula sheet = formula) ∧
      ∀ workbook, Workbook workbook → ∀ name target rest,
        sameName sheet.toList name.meant = true →
        (∀ c ∈ rest.head?, inReference c = false) →
        (log.adjustFormula
            (String.ofList (workbook ++ ((Token.reference name target).chars ++ rest)))
            sheet).toList =
          workbook ++ ((Token.reference name (target.grown log)).chars ++
            (log.adjustFormula (String.ofList rest) sheet).toList) := by
  refine ⟨edited_adjustFormula log formula sheet fun _ _ _ _ => trivial,
    edited_adjustFormula log formula sheet, fun nowhere => ?_,
    fun _ inFront => adjustFormula_workbook log sheet inFront⟩
  exact String.toList_injective (edited_adjustFormula log formula sheet nowhere).eq_of_none

end Adjust

/-- A reference alone is complete. -/
theorem adjustFormula_edited_alone :
    (∀ (p : Place) range, p.text = "Data!A5".toList → p.Names "Data".toList range → p.Complete) ∧
      Edited threeMoreRows "Data".toList Place.Complete [] "Data!A5".toList
        (threeMoreRows.adjustFormula "Data!A5" "Data").toList := by
  have complete : ∀ (p : Place) range, p.text = "Data!A5".toList → p.Names "Data".toList range →
      p.Complete := by
    intro p range same names
    have cut : "Data!A5".toList = "Data".toList ++ '!' :: "A5".toList := by decide
    obtain ⟨front, after⟩ := names.split (same.trans cut) (by decide) (by decide)
    have atStart : p.front = [] := front.trans (by decide)
    have atEnd : p.after = [] := after.trans (by decide)
    refine ⟨fun c last => ?_, fun c first => ?_⟩
    · rw [atStart] at last
      cases last
    · rw [atEnd] at first
      cases first
  exact ⟨complete, (adjustFormula_edited threeMoreRows "Data!A5" "Data").2.1 complete⟩

/-- Without a complete reference a formula must not change. -/
theorem not_edited_complete {log : InsertionLog} {sheet formula : String}
    (incomplete : ∀ (p : Place) range, p.text = formula.toList → p.Names sheet.toList range →
      ¬ p.Complete)
    (changed : log.adjustFormula formula sheet ≠ formula) :
    ¬ Edited log sheet.toList Place.Complete [] formula.toList
      (log.adjustFormula formula sheet).toList := by
  intro edited
  exact changed (String.toList_injective (edited.of_places incomplete).eq_of_none)

/-- A reference to a sheet of another workbook grows, and so does a name that begins like an
address; neither is a complete reference to the sheet. -/
theorem adjustFormula_incomplete :
    ¬ Edited threeMoreRows "Data".toList Place.Complete [] "[1]Data!$A$5".toList
        (threeMoreRows.adjustFormula "[1]Data!$A$5" "Data").toList ∧
      ¬ Edited threeMoreRows "Data".toList Place.Complete [] "Data!Q2_total".toList
        (threeMoreRows.adjustFormula "Data!Q2_total" "Data").toList := by
  constructor
  · refine not_edited_complete (fun p range same names complete => ?_) (by decide +kernel)
    have cut : "[1]Data!$A$5".toList = "[1]Data".toList ++ '!' :: "$A$5".toList := by decide
    obtain ⟨front, -⟩ := names.split (same.trans cut) (by decide) (by decide)
    have behind : p.front = "[1]".toList := front.trans (by decide)
    have apart : Place.goesOnLeft ']' = false := complete.left ']' (by rw [behind]; rfl)
    cases apart
  · refine not_edited_complete (fun p range same names complete => ?_) (by decide +kernel)
    have cut : "Data!Q2_total".toList = "Data".toList ++ '!' :: "Q2_total".toList := by decide
    obtain ⟨-, after⟩ := names.split (same.trans cut) (by decide) (by decide)
    have ahead : p.after = "_total".toList := after.trans (by decide)
    have apart : Place.goesOnRight '_' = false := complete.right '_' (by rw [ahead]; rfl)
    cases apart

example : threeMoreRows.adjustFormula "[1]Data!$A$5" "Data" = "[1]Data!$A$8" := by
  decide +kernel

example : threeMoreRows.adjustFormula "Data!Q2_total" "Data" = "Data!Q2:Q5_total" := by
  decide +kernel

end SheetFill.InsertionLog
