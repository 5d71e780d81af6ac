import SheetFill.Text.Blank
import SheetFill.Xml.Error

/-!
# The tokens of XML text

A text is cut into runs of text and markup between angle brackets. What stands in a tag is kept as
it is written; names and attributes are read later. `lex` gives the tokens up to the first fault,
and `matchEnds` stops at the first end tag that does not close the innermost open element.
-/

namespace SheetFill.Xml

/-- A token of XML text. -/
inductive Token where
  /-- A start tag, without its brackets. -/
  | start (tag : List Char)
  /-- An empty tag, without its brackets and the slash before the last one. -/
  | empty (tag : List Char)
  /-- An end tag: what stands between the slash and the bracket. -/
  | close (name : List Char)
  /-- Text, with its escapes. -/
  | text (chars : List Char)
  /-- The content of a CDATA section. -/
  | cdata (chars : List Char)
  /-- The content of a comment. -/
  | comment (chars : List Char)
  /-- The content of a processing instruction. -/
  | instruction (chars : List Char)
  /-- The content of the XML declaration. -/
  | declaration (chars : List Char)
  /-- A document type. -/
  | doctype
deriving DecidableEq

/-- Blanks of XML text: space, carriage return, line feed and tab. -/
def isSpace (c : Char) : Bool := c == ' ' || c == '\r' || c == '\n' || c == '\t'

/-- The name that a tag starts with. -/
def tagName (tag : List Char) : List Char := tag.takeWhile (!isSpace ·)

/-- What comes after an opening bracket. -/
inductive Step where
  /-- A token, and what follows it. -/
  | token (t : Token) (rest : List Char)
  /-- Nothing. -/
  | finished
  /-- A fault. -/
  | fault (e : Error)

/-- The text before and the text after the first occurrence of a mark. -/
def breakOn? (mark : List Char) : List Char → Option (List Char × List Char)
  | [] => (Text.dropStart? mark []).map fun rest => ([], rest)
  | c :: cs =>
      match Text.dropStart? mark (c :: cs) with
      | some rest => some ([], rest)
      | none => (breakOn? mark cs).map fun (before, after) => (c :: before, after)

/-- The rest of a text that starts with a word in capitals, whatever its case. -/
def dropWord? (word cs : List Char) : Option (List Char) :=
  if (cs.take word.length).map Char.toUpper = word then some (cs.drop word.length) else none

/-- The text up to the first closing bracket, and what follows it; all of it if there is none. -/
def upToBracket (cs : List Char) : List Char × List Char :=
  (cs.takeWhile (· != '>'), (cs.dropWhile (· != '>')).drop 1)

/-- Whether the content of an instruction is that of the declaration. -/
def isDeclaration (content : List Char) : Bool :=
  match content with
  | 'x' :: 'm' :: 'l' :: c :: _ => isSpace c
  | _ => false

/-- An instruction, after its question mark. It ends at the first closing bracket, which must have a
question mark before it. -/
def instructionStep (cs : List Char) : Step :=
  let (inside, rest) := upToBracket cs
  match inside.reverse with
  | '?' :: c :: more =>
      let content := (c :: more).reverse
      .token (if isDeclaration content then .declaration content else .instruction content) rest
  | _ => .fault (.unclosed .instruction)

/-- A comment, after its exclamation mark. -/
def commentStep (cs : List Char) : Step :=
  match (Text.dropStart? "--".toList cs).bind (breakOn? "-->".toList) with
  | some (content, rest) => .token (.comment content) rest
  | none => .fault (.unclosed .comment)

/-- A CDATA section, after its exclamation mark. -/
def cdataStep (cs : List Char) : Step :=
  match (dropWord? "[CDATA[".toList cs).bind (breakOn? "]]>".toList) with
  | some (content, rest) => .token (.cdata content) rest
  | none => .fault (.unclosed .cdata)

/-- The text up to the closing bracket that `depth` inner pairs do not close, and what follows. -/
def closeDoctype? (depth : Nat) : List Char → Option (List Char × List Char)
  | [] => none
  | c :: cs =>
      if c = '>' ∧ depth = 0 then some ([], cs)
      else
        let depth := if c = '>' then depth - 1 else if c = '<' then depth + 1 else depth
        (closeDoctype? depth cs).map fun (inside, rest) => (c :: inside, rest)

/-- A document type, after its exclamation mark. -/
def doctypeStep (cs : List Char) : Step :=
  match closeDoctype? 0 cs with
  | none => .fault (.unclosed .doctype)
  | some (inside, rest) =>
      match dropWord? "DOCTYPE".toList inside with
      | none => .fault (.unclosed .doctype)
      | some content => if content.all isSpace then .fault .emptyDoctype else .token .doctype rest

/-- Markup after an opening bracket and an exclamation mark. -/
def bangStep : List Char → Step
  | [] => .fault (.unclosed .bang)
  | c :: cs =>
      if c = '-' then commentStep (c :: cs)
      else if c = '[' then cdataStep (c :: cs)
      else if c = 'D' ∨ c = 'd' then doctypeStep (c :: cs)
      else .fault (.unknownBang (firstByte c))

/-- The text up to the closing bracket outside of quotes, and what follows it; `quote` is the quote
that is open. -/
def closeTag? (quote : Option Char) : List Char → Option (List Char × List Char)
  | [] => none
  | c :: cs =>
      if quote = none ∧ c = '>' then some ([], cs)
      else
        let quote := match quote with
          | some q => if c = q then none else some q
          | none => if c = '"' ∨ c = '\'' then some c else none
        (closeTag? quote cs).map fun (inside, rest) => (c :: inside, rest)

/-- A start tag or an empty tag, after its opening bracket. -/
def tagStep (cs : List Char) : Step :=
  match closeTag? none cs with
  | none => .fault (.unclosed .tag)
  | some (inside, rest) =>
      match inside.reverse with
      | '/' :: tag => .token (.empty tag.reverse) rest
      | _ => .token (.start inside) rest

/-- What comes after an opening bracket. -/
def markupStep : List Char → Step
  | [] => .finished
  | c :: cs =>
      if c = '/' then
        let (name, rest) := upToBracket cs
        .token (.close name) rest
      else if c = '?' then instructionStep cs
      else if c = '!' then bangStep cs
      else tagStep (c :: cs)

/-! ## Every step gets ahead -/

theorem length_of_dropStart? {start cs rest : List Char}
    (h : Text.dropStart? start cs = some rest) :
    rest.length ≤ cs.length := by
  induction start generalizing cs with
  | nil =>
      simp only [Text.dropStart?, Option.some.injEq] at h
      simp [h]
  | cons s start ih =>
      cases cs with
      | nil => simp [Text.dropStart?] at h
      | cons c cs =>
          simp only [Text.dropStart?] at h
          split at h
          · have := ih h
            simp only [List.length_cons]
            omega
          · simp at h

theorem length_of_breakOn? {mark cs before rest : List Char}
    (h : breakOn? mark cs = some (before, rest)) : rest.length ≤ cs.length := by
  induction cs generalizing before with
  | nil =>
      obtain ⟨after, found, eq⟩ := Option.map_eq_some_iff.mp h
      simp only [Prod.mk.injEq] at eq
      exact eq.2 ▸ length_of_dropStart? found
  | cons c cs ih =>
      simp only [breakOn?] at h
      split at h
      · rename_i after found
        simp only [Option.some.injEq, Prod.mk.injEq] at h
        exact h.2 ▸ length_of_dropStart? found
      · obtain ⟨⟨inner, after⟩, found, eq⟩ := Option.map_eq_some_iff.mp h
        simp only [Prod.mk.injEq] at eq
        have := ih (eq.2 ▸ found)
        simp only [List.length_cons]
        omega

theorem length_of_dropWord? {word cs rest : List Char} (h : dropWord? word cs = some rest) :
    rest.length ≤ cs.length := by
  unfold dropWord? at h
  split at h
  · simp only [Option.some.injEq] at h
    simp [← h]
  · simp at h

theorem length_of_closeDoctype? {depth : Nat} {cs inside rest : List Char}
    (h : closeDoctype? depth cs = some (inside, rest)) : rest.length ≤ cs.length := by
  induction cs generalizing depth inside with
  | nil => simp [closeDoctype?] at h
  | cons c cs ih =>
      simp only [closeDoctype?] at h
      split at h
      · simp only [Option.some.injEq, Prod.mk.injEq] at h
        simp [h.2]
      · obtain ⟨⟨inner, after⟩, found, eq⟩ := Option.map_eq_some_iff.mp h
        simp only [Prod.mk.injEq] at eq
        have := ih (eq.2 ▸ found)
        simp only [List.length_cons]
        omega

theorem length_of_closeTag? {quote : Option Char} {cs inside rest : List Char}
    (h : closeTag? quote cs = some (inside, rest)) : rest.length ≤ cs.length := by
  induction cs generalizing quote inside with
  | nil => simp [closeTag?] at h
  | cons c cs ih =>
      simp only [closeTag?] at h
      split at h
      · simp only [Option.some.injEq, Prod.mk.injEq] at h
        simp [h.2]
      · obtain ⟨⟨inner, after⟩, found, eq⟩ := Option.map_eq_some_iff.mp h
        simp only [Prod.mk.injEq] at eq
        have := ih (eq.2 ▸ found)
        simp only [List.length_cons]
        omega

theorem length_upToBracket_le (cs : List Char) : (upToBracket cs).2.length ≤ cs.length := by
  have := (List.dropWhile_suffix (· != '>') (l := cs)).length_le
  simp only [upToBracket, List.length_drop]
  omega

theorem length_of_instructionStep {cs rest : List Char} {t : Token}
    (h : instructionStep cs = .token t rest) : rest.length ≤ cs.length := by
  unfold instructionStep at h
  simp only at h
  split at h
  · simp only [Step.token.injEq] at h
    exact h.2 ▸ length_upToBracket_le cs
  · simp at h

theorem length_of_commentStep {cs rest : List Char} {t : Token}
    (h : commentStep cs = .token t rest) : rest.length ≤ cs.length := by
  unfold commentStep at h
  split at h
  · rename_i found
    obtain ⟨inside, opening, found⟩ := Option.bind_eq_some_iff.mp found
    simp only [Step.token.injEq] at h
    exact h.2 ▸ Nat.le_trans (length_of_breakOn? found) (length_of_dropStart? opening)
  · simp at h

theorem length_of_cdataStep {cs rest : List Char} {t : Token}
    (h : cdataStep cs = .token t rest) : rest.length ≤ cs.length := by
  unfold cdataStep at h
  split at h
  · rename_i found
    obtain ⟨inside, opening, found⟩ := Option.bind_eq_some_iff.mp found
    simp only [Step.token.injEq] at h
    exact h.2 ▸ Nat.le_trans (length_of_breakOn? found) (length_of_dropWord? opening)
  · simp at h

theorem length_of_doctypeStep {cs rest : List Char} {t : Token}
    (h : doctypeStep cs = .token t rest) : rest.length ≤ cs.length := by
  unfold doctypeStep at h
  split at h
  · simp at h
  · rename_i found
    split at h
    · simp at h
    · split at h
      · simp at h
      · simp only [Step.token.injEq] at h
        exact h.2 ▸ length_of_closeDoctype? found

theorem length_of_bangStep {cs rest : List Char} {t : Token}
    (h : bangStep cs = .token t rest) : rest.length ≤ cs.length := by
  unfold bangStep at h
  split at h
  · simp at h
  · split at h
    · exact length_of_commentStep h
    · split at h
      · exact length_of_cdataStep h
      · split at h
        · exact length_of_doctypeStep h
        · simp at h

theorem length_of_tagStep {cs rest : List Char} {t : Token}
    (h : tagStep cs = .token t rest) : rest.length ≤ cs.length := by
  unfold tagStep at h
  split at h
  · simp at h
  · rename_i found
    split at h <;> simp only [Step.token.injEq] at h <;>
      exact h.2 ▸ length_of_closeTag? found

/-- What follows a token is not longer than what its opening bracket stood before. -/
theorem length_of_markupStep {cs rest : List Char} {t : Token}
    (h : markupStep cs = .token t rest) : rest.length ≤ cs.length := by
  unfold markupStep at h
  split at h
  · simp at h
  · split at h
    · simp only [Step.token.injEq] at h
      exact h.2 ▸ Nat.le_succ_of_le (length_upToBracket_le _)
    · split at h
      · exact Nat.le_succ_of_le (length_of_instructionStep h)
      · split at h
        · exact Nat.le_succ_of_le (length_of_bangStep h)
        · exact length_of_tagStep h

/-! ## Sequences of tokens -/

/-- The tokens of a text up to the first fault, and that fault. -/
structure Scan where
  /-- The tokens. -/
  tokens : List Token
  /-- The fault that stopped the reader before the end. -/
  fault : Option Error
deriving DecidableEq

/-- A scan with one more token in front. -/
def Scan.cons (t : Token) (scan : Scan) : Scan := ⟨t :: scan.tokens, scan.fault⟩

/-- The tokens of a text. -/
def lex (cs : List Char) : Scan :=
  match cs with
  | [] => ⟨[], none⟩
  | c :: rest =>
      if c = '<' then
        match _found : markupStep rest with
        | .token t rest => .cons t (lex rest)
        | .finished => ⟨[], none⟩
        | .fault e => ⟨[], some e⟩
      else
        .cons (.text (c :: rest.takeWhile (· != '<'))) (lex (rest.dropWhile (· != '<')))
termination_by cs.length
decreasing_by
  · exact Nat.lt_succ_of_le (length_of_markupStep _found)
  · exact Nat.lt_succ_of_le (List.dropWhile_suffix _).length_le

/-- The name in an end tag: what stands there without the blanks at its end, but blanks alone stay
as they are. -/
def endName (inside : List Char) : List Char :=
  if inside.all isSpace then inside else Text.dropEndWhile isSpace inside

/-- The tokens up to the first end tag that does not close the innermost of the open elements. -/
def matchEnds (fault : Option Error) (opened : List (List Char)) : List Token → Scan
  | [] => ⟨[], fault⟩
  | .start tag :: tokens => .cons (.start tag) (matchEnds fault (tagName tag :: opened) tokens)
  | .close name :: tokens =>
      match opened with
      | [] => ⟨[], some (.wrongEnd "" (String.ofList name))⟩
      | expected :: opened =>
          let found := endName name
          if found = expected then .cons (.close name) (matchEnds fault opened tokens)
          else ⟨[], some (.wrongEnd (String.ofList expected) (String.ofList found))⟩
  | t :: tokens => .cons t (matchEnds fault opened tokens)

/-- The tokens of a text up to the first fault. A byte order mark in front does not count. -/
def scan (text : String) : Scan :=
  let cs := text.toList
  let lexed := lex ((Text.dropStart? ['\uFEFF'] cs).getD cs)
  matchEnds lexed.fault [] lexed.tokens

end SheetFill.Xml
