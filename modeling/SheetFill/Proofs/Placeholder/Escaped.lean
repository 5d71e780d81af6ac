import SheetFill.Proofs.Placeholder.Markup
import SheetFill.Proofs.Placeholder.Spans

/-!
# Placeholders in escaped text

A text can be escaped and then cut into pieces, or cut into pieces that are then escaped: the result
is the same (`pieces_escapeText`). An escape is passed over like the character that it stands for,
also by the scan for a closing brace inside brackets, quotes and behind backslashes. So the
placeholders of XML text are those of the text that it was written from, and the escapes in their
bodies can be resolved afterwards (`find_escapeText`).
-/

namespace SheetFill

open Xml

/-! ## One escape after another -/

theorem Text.replaceAll_singleton (c : Char) (new cs : List Char) :
    replaceAll [c] new cs = cs.flatMap fun d => if d = c then new else [d] := by
  induction cs with
  | nil =>
      rw [replaceAll]
      rfl
  | cons d cs ih =>
      rw [replaceAll, List.flatMap_cons, ← ih, dropStart?]
      by_cases same : d = c
      · rw [if_pos same, if_pos same.symm]
        rfl
      · rw [if_neg same, if_neg (Ne.symm same)]
        rfl

/-- The three markup characters can be escaped in the whole text one after another, the ampersand
first. -/
theorem Xml.escapeText_eq_replaceAll (cs : List Char) :
    escapeText cs = Text.replaceAll ['>'] "&gt;".toList
      (Text.replaceAll ['<'] "&lt;".toList (Text.replaceAll ['&'] "&amp;".toList cs)) := by
  simp only [Text.replaceAll_singleton, List.flatMap_assoc]
  refine List.flatMap_congr fun c _ => ?_
  rw [escapeTextChar]
  split
  · rfl
  · rw [List.flatMap_singleton]
    split
    · rfl
    · rw [List.flatMap_singleton]

namespace Placeholder

open Text (byteLength)

/-! ## Pieces -/

/-- A piece as it stands in escaped text. -/
def Piece.escaped : Piece → Piece
  | .text chars => .text (escapeText chars)
  | .placeholder body => .placeholder (escapeText body)

theorem Piece.chars_escaped (piece : Piece) : piece.escaped.chars = escapeText piece.chars := by
  cases piece with
  | text chars => rfl
  | placeholder body =>
      show '$' :: '{' :: escapeText body ++ ['}'] = escapeText ('$' :: '{' :: (body ++ ['}']))
      rw [escapeText_cons, escapeText_cons, escapeText_append]
      rfl

theorem escapeTextChar_ne_nil (c : Char) : escapeTextChar c ≠ [] := by
  rcases escapeTextChar_cases c with same | escape
  · rw [same]
    exact List.cons_ne_nil c []
  · have some : ∀ escape ∈ textEscapes, escape.2 ≠ [] := by decide
    exact some _ escape

theorem foldr_consText_text (run chars : List Char) (all : List Piece) :
    run.foldr consText (.text chars :: all) = .text (run ++ chars) :: all := by
  induction run with
  | nil => rfl
  | cons c run ih => rw [List.foldr_cons, ih, consText, List.cons_append]

/-- Characters of text in front are escaped with the text that they become part of. -/
theorem map_escaped_consText (c : Char) (all : List Piece) :
    (consText c all).map Piece.escaped =
      (escapeTextChar c).foldr consText (all.map Piece.escaped) := by
  rw [consText.eq_def c all]
  split
  · rename_i chars rest
    rw [List.map_cons, List.map_cons, Piece.escaped, Piece.escaped, foldr_consText_text,
      escapeText_cons]
  · rename_i noText
    have first : ∀ d, consText d (all.map Piece.escaped) = .text [d] :: all.map Piece.escaped := by
      intro d
      rw [consText]
      intro chars rest same
      obtain ⟨piece, more, rfl, escaped, -⟩ := List.map_eq_cons_iff.mp same
      cases piece with
      | text chars => exact noText chars more rfl
      | placeholder body => cases escaped
    obtain ⟨front, last, split⟩ :=
      (List.eq_nil_or_concat (escapeTextChar c)).resolve_left (escapeTextChar_ne_nil c)
    rw [split, List.concat_eq_append, List.foldr_append, List.foldr_cons, List.foldr_nil, first,
      foldr_consText_text, ← List.concat_eq_append, ← split, List.map_cons, Piece.escaped,
      escapeText_cons]
    rw [show escapeText [] = [] from rfl, List.append_nil]

/-- Escaped text is cut where the text is cut. -/
theorem pieces_escapeText (cs : List Char) :
    pieces (escapeText cs) = (pieces cs).map Piece.escaped := by
  have quoted : Context.plain.Quoted := trivial
  have opening : ∀ cs, escapeText ('$' :: '{' :: cs) = '$' :: '{' :: escapeText cs := fun _ => rfl
  induction cs using pieces.induct with
  | case1 =>
      rw [show escapeText [] = [] from rfl, pieces]
      rfl
  | case2 cs body rest found ih =>
      have found' := (closeBody?_escapeText quoted cs).trans (congrArg _ found)
      rw [opening, pieces_found found', pieces_found found, ih]
      rfl
  | case3 cs missing =>
      have missing' := (closeBody?_escapeText quoted cs).trans (congrArg _ missing)
      rw [opening, pieces_unclosed missing', pieces_unclosed missing, ← opening]
      rfl
  | case4 c cs other ih =>
      have plain := head?_ne_of_forall other
      have apart : (escapeTextChar c).getLast? = some '$' →
          (escapeText cs).head? ≠ some '{' := by
        intro ends
        have start : (escapeText cs ++ []).head? ≠ some '{' :=
          head?_flatMap escapes_text (plain (eq_dollar_of_escape escapes_text ends))
            (Option.some_ne_none '{').symm
        rwa [List.append_nil] at start
      rw [escapeText_cons, pieces_append (noOpening_escape escapes_text c) apart, ih,
        pieces_cons plain, map_escaped_consText]

/-! ## Places -/

theorem flatMap_chars_pieces (cs : List Char) : (pieces cs).flatMap Piece.chars = cs := by
  refine Eq.trans ?_ (replace_marked cs)
  refine List.flatMap_congr fun piece _ => ?_
  cases piece with
  | text chars => rfl
  | placeholder body => exact (toList_marked body).symm

/-- A placeholder of a text once the text is escaped: it starts and stops where the escaped text in
front of these places ends. -/
def escapedIn (text : List Char) (p : Placeholder) : Placeholder :=
  ⟨byteLength (escapeText (takeBytes p.start text)),
    byteLength (escapeText (takeBytes p.stop text)), String.ofList (escapeText p.body.toList)⟩

theorem locate_escaped (read : List Char) (all : List Piece) :
    locate (byteLength (escapeText read)) (all.map Piece.escaped) =
      (locate (byteLength read) all).map (escapedIn (read ++ all.flatMap Piece.chars)) := by
  induction all generalizing read with
  | nil => rfl
  | cons piece all ih =>
      have text : read ++ (piece :: all).flatMap Piece.chars =
          (read ++ piece.chars) ++ all.flatMap Piece.chars := by
        rw [List.flatMap_cons, List.append_assoc]
      have stop : byteLength read + byteLength piece.chars = byteLength (read ++ piece.chars) :=
        (byteLength_append ..).symm
      have stop' : byteLength (escapeText read) + byteLength piece.escaped.chars =
          byteLength (escapeText (read ++ piece.chars)) := by
        rw [piece.chars_escaped, escapeText_append, byteLength_append]
      have later := ih (read ++ piece.chars)
      rw [← text] at later
      cases piece with
      | text chars =>
          simp only [List.map_cons, locate, stop, stop']
          exact later
      | placeholder body =>
          simp only [List.map_cons, locate, stop, stop']
          refine List.cons_eq_cons.mpr ⟨?_, later⟩
          rw [escapedIn, takeBytes_append, text, takeBytes_append, String.toList_ofList]

/-- Text is escaped by replacing its markup characters one after another. The placeholders of
escaped text are those of the text, one for one and in order, with their bodies and the text around
them escaped. Resolving the escapes gives the text back, and in each body the body that stands in
the text. -/
theorem find_escapeText (text : String) :
    let written := String.ofList (escapeText text.toList)
    written.toList = Text.replaceAll ['>'] "&gt;".toList
        (Text.replaceAll ['<'] "&lt;".toList (Text.replaceAll ['&'] "&amp;".toList text.toList)) ∧
      pieces written.toList = (pieces text.toList).map Piece.escaped ∧
      find written = (find text).map (escapedIn text.toList) ∧
      unescapeMarkup written.toList = text.toList ∧
      (find written).map (fun p => String.ofList (unescapeMarkup p.body.toList)) =
        (find text).map Placeholder.body := by
  intro written
  have cut : pieces written.toList = (pieces text.toList).map Piece.escaped := by
    rw [String.toList_ofList, pieces_escapeText]
  have places : find written = (find text).map (escapedIn text.toList) := by
    have moved := locate_escaped [] (pieces text.toList)
    rw [List.nil_append, flatMap_chars_pieces] at moved
    rw [find, cut]
    exact moved
  refine ⟨?_, cut, places, ?_, ?_⟩
  · rw [String.toList_ofList, escapeText_eq_replaceAll]
  · rw [String.toList_ofList, unescapeMarkup_escapeText]
  · rw [places, List.map_map]
    refine List.map_congr_left fun p _ => ?_
    show String.ofList (unescapeMarkup (escapedIn text.toList p).body.toList) = p.body
    rw [escapedIn, String.toList_ofList, unescapeMarkup_escapeText, String.ofList_toList]

/-- A backslash in front of an escape hides its first character only, and the quote stays open. -/
example : (find "$\x7ba['\\&amp;\x7d']\x7d &lt;").map (·.body) = ["a['\\&amp;\x7d']"] := by cbv

end Placeholder

end SheetFill
