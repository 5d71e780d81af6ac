import SheetFill.Text.Blank

/-!
# Placeholders in text

A placeholder is a body between a dollar sign with an opening brace and a closing brace. The closing
brace is the first one that does not stand inside a quoted key in brackets. A text is cut into
pieces that are placeholders or text (`pieces`); an opening without a closing brace, and all after
it, is text. Everything else is said of the pieces: where the placeholders are (`find`), whether a
text is nothing but one placeholder (`sole?`), and the text with other texts in their place
(`expand`).
-/

namespace SheetFill

/-- A placeholder and its place, in bytes from the start of the text. -/
structure Placeholder where
  /-- Where it starts. -/
  start : Nat
  /-- Where the text after it starts. -/
  stop : Nat
  /-- What stands between the braces. -/
  body : String
deriving DecidableEq

namespace Placeholder

/-- Where the scan for the closing brace is. -/
inductive Context where
  /-- Outside of brackets. -/
  | plain
  /-- Inside brackets. -/
  | bracket
  /-- Inside a quoted key, which this character ends. -/
  | quote (mark : Char)
  /-- After a backslash inside a quoted key. -/
  | escape (mark : Char)
deriving DecidableEq

/-- Whether a closing brace ends the placeholder here. -/
def Context.isOpen : Context → Bool
  | .plain | .bracket => true
  | .quote _ | .escape _ => false

/-- Where the scan is after one more character. -/
def Context.next (context : Context) (c : Char) : Context :=
  match context with
  | .escape mark => .quote mark
  | .quote mark => if c = '\\' then .escape mark else if c = mark then .bracket else .quote mark
  | .plain => if c = '[' then .bracket else .plain
  | .bracket =>
      if c = ']' then .plain else if c = '"' ∨ c = '\'' then .quote c else .bracket

/-- The text up to the closing brace, and what follows it. -/
def closeBody? (context : Context) : List Char → Option (List Char × List Char)
  | [] => none
  | c :: cs =>
      if context.isOpen ∧ c = '}' then some ([], cs)
      else (closeBody? (context.next c) cs).map fun (body, rest) => (c :: body, rest)

theorem length_of_closeBody? {context : Context} {cs body rest : List Char}
    (h : closeBody? context cs = some (body, rest)) :
    cs.length = body.length + rest.length + 1 := by
  induction cs generalizing context body with
  | nil => simp [closeBody?] at h
  | cons c cs ih =>
      simp only [closeBody?] at h
      split at h
      · simp only [Option.some.injEq, Prod.mk.injEq] at h
        simp [← h.1, ← h.2]
      · obtain ⟨⟨inner, after⟩, found, eq⟩ := Option.map_eq_some_iff.mp h
        simp only [Prod.mk.injEq] at eq
        have := ih (eq.2 ▸ found)
        simp only [List.length_cons, ← eq.1]
        omega

/-- A piece of a text. -/
inductive Piece where
  /-- Text outside of placeholders. -/
  | text (chars : List Char)
  /-- A placeholder with its body. -/
  | placeholder (body : List Char)
deriving DecidableEq

/-- Pieces with one more character of text in front. -/
def consText (c : Char) : List Piece → List Piece
  | .text chars :: pieces => .text (c :: chars) :: pieces
  | pieces => .text [c] :: pieces

/-- The pieces of a text. Text pieces are not empty and no two of them are neighbours. -/
def pieces : List Char → List Piece
  | [] => []
  | '$' :: '{' :: cs =>
      match _found : closeBody? .plain cs with
      | some (body, rest) => .placeholder body :: pieces rest
      | none => [.text ('$' :: '{' :: cs)]
  | c :: cs => consText c (pieces cs)
termination_by cs => cs.length
decreasing_by
  · have := length_of_closeBody? _found
    simp only [List.length_cons]
    omega
  · simp

/-- A piece as it is written. -/
def Piece.chars : Piece → List Char
  | .text chars => chars
  | .placeholder body => '$' :: '{' :: body ++ ['}']

/-- The body of a piece that is a placeholder. -/
def Piece.body? : Piece → Option (List Char)
  | .text _ => none
  | .placeholder body => some body

/-- The placeholders among pieces that start at a given byte. -/
def locate (start : Nat) : List Piece → List Placeholder
  | [] => []
  | piece :: rest =>
      let stop := start + Text.byteLength piece.chars
      match piece with
      | .text _ => locate stop rest
      | .placeholder body => ⟨start, stop, String.ofList body⟩ :: locate stop rest

/-- The placeholders of a text, from left to right. -/
def find (text : String) : List Placeholder := locate 0 (pieces text.toList)

/-- The bodies of the placeholders of a text, from left to right. -/
def bodies (text : String) : List String :=
  ((pieces text.toList).filterMap Piece.body?).map String.ofList

/-- The body of the placeholder that is the whole text. -/
def sole? (text : String) : Option String :=
  match pieces text.toList with
  | [.placeholder body] => some (String.ofList body)
  | _ => none

/-- Whether a text has a placeholder. -/
def occursIn (text : String) : Bool := (pieces text.toList).any fun piece => piece.body?.isSome

/-- Pieces with each placeholder replaced. -/
def replace (f : List Char → List Char) (pieces : List Piece) : List Char :=
  pieces.flatMap fun piece => match piece with
    | .text chars => chars
    | .placeholder body => f body

/-- A text with each placeholder replaced by what `f` makes of its body. -/
def expand (text : String) (f : String → String) : String :=
  String.ofList (replace (fun body => (f (String.ofList body)).toList) (pieces text.toList))

end Placeholder

end SheetFill
