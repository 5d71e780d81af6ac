import SheetFill.Proofs.Placeholder.Bodies
import SheetFill.Proofs.Placeholder.Filled

/-!
# Places of placeholders

The placeholders of a text stand at places that are bytes of the text. They are found from left to
right: the next one opens at the first opening behind the last one, and the search ends at an
opening without a closing brace (`Found`). From this it follows what is at these places
(`MarkedBy`), and that the text can be put together again from what stands at them and between them
(`find_marks`).
-/

namespace SheetFill.Placeholder

open Text (byteLength)

/-! ## Bytes -/

/-- The text from a byte on. -/
def dropBytes : Nat → List Char → List Char
  | 0, cs => cs
  | _ + 1, [] => []
  | n + 1, c :: cs => dropBytes (n + 1 - c.utf8Size) cs

/-- The text up to a byte. -/
def takeBytes : Nat → List Char → List Char
  | 0, _ => []
  | _ + 1, [] => []
  | n + 1, c :: cs => c :: takeBytes (n + 1 - c.utf8Size) cs

/-- The text between two bytes. -/
def slice (start stop : Nat) (text : List Char) : List Char :=
  takeBytes (stop - start) (dropBytes start text)

/-- Between two bytes of a text stands a run of characters of it, so both bytes are in the text and
on the boundaries of characters. -/
def RunAt (text : List Char) (start stop : Nat) (run : List Char) : Prop :=
  ∃ before after, text = before ++ run ++ after ∧ start = byteLength before ∧
    stop = start + byteLength run

theorem dropBytes_append (before after : List Char) :
    dropBytes (byteLength before) (before ++ after) = after := by
  induction before with
  | nil => cases after <;> rfl
  | cons c before ih =>
      obtain ⟨n, size⟩ : ∃ n, c.utf8Size = n + 1 := Nat.exists_eq_add_one.mpr c.utf8Size_pos
      have rest : n + byteLength before + 1 - (n + 1) = byteLength before := by omega
      rw [byteLength_cons, size, Nat.add_right_comm, List.cons_append, dropBytes, size, rest, ih]

theorem takeBytes_append (run after : List Char) :
    takeBytes (byteLength run) (run ++ after) = run := by
  induction run with
  | nil => cases after <;> rfl
  | cons c run ih =>
      obtain ⟨n, size⟩ : ∃ n, c.utf8Size = n + 1 := Nat.exists_eq_add_one.mpr c.utf8Size_pos
      have rest : n + byteLength run + 1 - (n + 1) = byteLength run := by omega
      rw [byteLength_cons, size, Nat.add_right_comm, List.cons_append, takeBytes, size, rest, ih]

theorem slice_append (before run after : List Char) :
    slice (byteLength before) (byteLength (before ++ run)) (before ++ (run ++ after)) = run := by
  rw [slice, byteLength_append, dropBytes_append, Nat.add_sub_cancel_left, takeBytes_append]

/-! ## Openings that are not closed -/

theorem chars_placeholder_append (body rest : List Char) :
    (Piece.placeholder body).chars ++ rest = '$' :: '{' :: (body ++ '}' :: rest) := by
  simp [Piece.chars]

theorem replace_placeholder (f : List Char → List Char) (body : List Char) (all : List Piece) :
    replace f (.placeholder body :: all) = f body ++ replace f all := rfl

theorem noOpening_nil : NoOpening [] := noOpening_of_notMem List.not_mem_nil

/-- The first opening in a text, if there is one, is not closed. -/
def Unclosed (cs : List Char) : Prop :=
  ∀ before body rest, NoOpening before → BracesInKeys false body →
    cs ≠ before ++ ((Piece.placeholder body).chars ++ rest)

/-- A text that starts with an opening has no other one first. -/
theorem eq_nil_of_opening {before cs cs' : List Char} (none : NoOpening before)
    (same : '$' :: '{' :: cs = before ++ '$' :: '{' :: cs') : before = [] := by
  match before, none, same with
  | [], _, _ => rfl
  | [c], _, same => simp at same
  | c :: d :: before, none, same =>
      simp only [List.cons_append, List.cons.injEq] at same
      exact absurd (congrArg some same.2.1.symm) (none.plain same.1.symm)

theorem unclosed_nil : Unclosed [] := by
  intro before body rest _ _ same
  cases before
  · cases same
  · cases same

theorem unclosed_of_closeBody? {cs : List Char} (missing : closeBody? .plain cs = none) :
    Unclosed ('$' :: '{' :: cs) := by
  intro before body rest noOpening closed same
  rw [chars_placeholder_append] at same
  cases eq_nil_of_opening noOpening same
  simp only [List.nil_append, List.cons.injEq, true_and] at same
  cases missing.symm.trans (closeBody?_eq_some_iff.mpr ⟨same, closed⟩)

/-- A character in front that opens nothing with the first character behind it. -/
theorem NoOpening.cons_of_append {c : Char} {before rest : List Char}
    (plain : c = '$' → (before ++ rest).head? ≠ some '{') (none : NoOpening before) :
    NoOpening (c :: before) := by
  refine none.cons fun dollar => ?_
  cases before with
  | nil => exact nofun
  | cons d before => exact plain dollar

section Unclosed

variable {c : Char} {cs : List Char} (plain : c = '$' → cs.head? ≠ some '{')

include plain

theorem Unclosed.cons (unclosed : Unclosed cs) : Unclosed (c :: cs) := by
  intro before body rest noOpening closed same
  cases before with
  | nil =>
      obtain ⟨rfl, rfl⟩ := List.cons.inj same
      exact plain rfl rfl
  | cons d before =>
      obtain ⟨rfl, rfl⟩ := List.cons.inj same
      exact unclosed before body rest noOpening.tail closed rfl

theorem Unclosed.tail (unclosed : Unclosed (c :: cs)) : Unclosed cs := by
  rintro before body rest noOpening closed rfl
  exact unclosed (c :: before) body rest (noOpening.cons_of_append plain) closed rfl

end Unclosed

/-- In such a text nothing is replaced. -/
theorem Unclosed.replace_eq {f : List Char → List Char} {cs : List Char} (unclosed : Unclosed cs) :
    replace f (pieces cs) = cs := by
  induction cs using pieces.induct with
  | case1 =>
      rw [pieces]
      rfl
  | case2 cs body rest found ih =>
      obtain ⟨rfl, closed⟩ := closeBody?_eq_some_iff.mp found
      exact absurd (by simp [Piece.chars]) (unclosed [] body rest noOpening_nil closed)
  | case3 cs missing =>
      rw [pieces_unclosed missing]
      simp [replace]
  | case4 c cs other ih =>
      have plain := head?_ne_of_forall other
      rw [pieces_cons plain, replace_consText, ih (unclosed.tail plain)]

/-! ## The search -/

/-- The placeholders that are found in the rest of a text. -/
inductive Found : List Char → List Char → List Placeholder → Prop where
  /-- There is no opening, or the first one is not closed. -/
  | none {read cs : List Char} (unclosed : Unclosed cs) : Found read cs []
  /-- The first opening is closed, and the search goes on behind the closing brace. -/
  | next {read before body rest : List Char} {ps : List Placeholder} (noOpening : NoOpening before)
      (closed : BracesInKeys false body)
      (later : Found (read ++ before ++ (Piece.placeholder body).chars) rest ps) :
      Found read (before ++ ((Piece.placeholder body).chars ++ rest))
        (⟨byteLength (read ++ before),
          byteLength (read ++ before ++ (Piece.placeholder body).chars),
          String.ofList body⟩ :: ps)

theorem Found.cons {read : List Char} {c : Char} {cs : List Char} {ps : List Placeholder}
    (plain : c = '$' → cs.head? ≠ some '{') (found : Found (read ++ [c]) cs ps) :
    Found read (c :: cs) ps := by
  cases found with
  | none unclosed => exact .none (unclosed.cons plain)
  | @next _ before body rest ps noOpening closed later =>
      have text : read ++ [c] ++ before = read ++ c :: before := by simp
      rw [text] at later ⊢
      exact .next (noOpening.cons_of_append plain) closed later

/-- What is found are the placeholders among the pieces. -/
theorem found_locate (read cs : List Char) :
    Found read cs (locate (byteLength read) (pieces cs)) := by
  induction cs using pieces.induct generalizing read with
  | case1 =>
      rw [pieces]
      exact .none unclosed_nil
  | case2 cs body rest found ih =>
      obtain ⟨rfl, closed⟩ := closeBody?_eq_some_iff.mp found
      have next :=
        Found.next noOpening_nil closed (ih (read ++ [] ++ (Piece.placeholder body).chars))
      rw [pieces_found found, locate]
      simpa [Piece.chars, byteLength_append] using next
  | case3 cs missing =>
      rw [pieces_unclosed missing]
      exact .none (unclosed_of_closeBody? missing)
  | case4 c cs other ih =>
      have plain := head?_ne_of_forall other
      have later := ih (read ++ [c])
      rw [byteLength_append] at later
      rw [pieces_cons plain, locate_consText]
      exact later.cons plain

/-! ## What is at the places -/

/-- The runs of bytes before and between places, from a byte on. -/
def gaps (start : Nat) : List Placeholder → List (Nat × Nat)
  | [] => []
  | p :: ps => (start, p.start) :: gaps p.stop ps

/-- Where the last place ends. -/
def lastStop (start : Nat) : List Placeholder → Nat
  | [] => start
  | p :: ps => lastStop p.stop ps

/-- A text with other texts at some places, from a byte on. -/
def splice (f : String → String) (text : List Char) (start : Nat) : List Placeholder → List Char
  | [] => dropBytes start text
  | p :: ps => slice start p.start text ++ (f p.body).toList ++ splice f text p.stop ps

/-- A placeholder as it is written. -/
def marked (body : String) : String := "$\x7b" ++ body ++ "\x7d"

/-- What stands at the places of the placeholders of a text, and between them. -/
structure MarkedBy (text : List Char) (ps : List Placeholder) : Prop where
  /-- They are in order and apart from each other. -/
  inOrder : ps.Pairwise fun p q => p.start < q.start ∧ p.stop ≤ q.start
  /-- At each place stands a placeholder. -/
  here : ∀ p ∈ ps, RunAt text p.start p.stop (marked p.body).toList
  /-- In the bodies closing braces stand in keys only. -/
  bodies : ∀ p ∈ ps, BracesInKeys false p.body.toList
  /-- Nothing opens before and between them. -/
  gaps : ∀ gap ∈ gaps 0 ps, NoOpening (slice gap.1 gap.2 text)
  /-- The next opening behind the last one is not closed. -/
  last : Unclosed (dropBytes (lastStop 0 ps) text)

theorem toList_marked (body : List Char) :
    (marked (String.ofList body)).toList = (Piece.placeholder body).chars := by
  simp [marked, Piece.chars]

theorem eq_nil_of_byteLength {cs : List Char} (empty : byteLength cs = 0) : cs = [] := by
  cases cs with
  | nil => rfl
  | cons c cs =>
      have size := c.utf8Size_pos
      rw [byteLength_cons] at empty
      omega

/-- A place starts before it stops. -/
theorem byteLength_lt_append_chars (read : List Char) (body : List Char) :
    byteLength read < byteLength (read ++ (Piece.placeholder body).chars) := by
  have dollar := '$'.utf8Size_pos
  rw [byteLength_append, Piece.chars, List.cons_append, byteLength_cons]
  omega

section Found

variable {read cs : List Char} {ps : List Placeholder} (found : Found read cs ps)

include found

theorem Found.start_le : ∀ p ∈ ps, byteLength read ≤ p.start := by
  induction found with
  | none => exact nofun
  | @next read before body _ _ _ _ _ ih =>
      rw [List.forall_mem_cons, byteLength_append]
      refine ⟨Nat.le_add_right .., fun p mem => ?_⟩
      have later := ih p mem
      rw [byteLength_append, byteLength_append] at later
      omega

theorem Found.inOrder : ps.Pairwise fun p q => p.start < q.start ∧ p.stop ≤ q.start := by
  induction found with
  | none => exact .nil
  | @next read before body _ _ _ _ later ih =>
      refine .cons (fun q mem => ?_) ih
      have behind := later.start_le q mem
      exact ⟨Nat.lt_of_lt_of_le (byteLength_lt_append_chars _ body) behind, behind⟩

theorem Found.here : ∀ p ∈ ps, RunAt (read ++ cs) p.start p.stop (marked p.body).toList := by
  induction found with
  | none => exact nofun
  | @next read before body rest _ _ _ _ ih =>
      simp only [← List.append_assoc] at ih ⊢
      rw [List.forall_mem_cons]
      refine ⟨⟨read ++ before, rest, ?_, rfl, ?_⟩, ih⟩
      · rw [toList_marked]
      · rw [toList_marked, ← byteLength_append]

theorem Found.bodies : ∀ p ∈ ps, BracesInKeys false p.body.toList := by
  induction found with
  | none => exact nofun
  | next _ closed _ ih =>
      rw [List.forall_mem_cons, String.toList_ofList]
      exact ⟨closed, ih⟩

theorem Found.gaps :
    ∀ gap ∈ gaps (byteLength read) ps, NoOpening (slice gap.1 gap.2 (read ++ cs)) := by
  induction found with
  | none => exact nofun
  | @next read before body rest _ noOpening _ _ ih =>
      have gap := slice_append read before ((Piece.placeholder body).chars ++ rest)
      simp only [← List.append_assoc] at gap ih ⊢
      rw [Placeholder.gaps, List.forall_mem_cons, gap]
      exact ⟨noOpening, ih⟩

theorem Found.last : Unclosed (dropBytes (lastStop (byteLength read) ps) (read ++ cs)) := by
  induction found with
  | @none read cs unclosed =>
      rw [lastStop, dropBytes_append]
      exact unclosed
  | next _ _ _ ih =>
      simp only [← List.append_assoc] at ih ⊢
      exact ih

/-- A place that is all of the rest of the text is its only piece. -/
theorem Found.pieces_eq {body : String}
    (only : ps = [⟨byteLength read, byteLength (read ++ cs), body⟩]) :
    pieces cs = [.placeholder body.toList] := by
  cases found with
  | none => cases only
  | @next _ before inner rest _ _ closed _ =>
      simp only [List.cons.injEq, Placeholder.mk.injEq, byteLength_append] at only
      obtain ⟨⟨start, stop, rfl⟩, -⟩ := only
      have noneBefore : before = [] := eq_nil_of_byteLength (by omega)
      have noneBehind : rest = [] := eq_nil_of_byteLength (by omega)
      subst noneBefore noneBehind
      rw [List.nil_append, chars_placeholder_append, String.toList_ofList]
      rw [pieces_found (closeBody?_eq_some_iff.mpr ⟨rfl, closed⟩), pieces]

/-- Putting texts at the places is replacing the placeholders among the pieces. -/
theorem Found.splice_eq (f : String → String) :
    splice f (read ++ cs) (byteLength read) ps =
      replace (fun body => (f (String.ofList body)).toList) (pieces cs) := by
  induction found with
  | @none read cs unclosed => rw [splice, dropBytes_append, unclosed.replace_eq]
  | @next read before body rest _ noOpening closed _ ih =>
      have gap := slice_append read before ((Piece.placeholder body).chars ++ rest)
      have apart : before.getLast? = some '$' →
          ((Piece.placeholder body).chars ++ rest).head? ≠ some '{' := by simp [Piece.chars]
      have pieces_next : pieces ((Piece.placeholder body).chars ++ rest) =
          .placeholder body :: pieces rest := by
        rw [chars_placeholder_append]
        exact pieces_found (closeBody?_eq_some_iff.mpr ⟨rfl, closed⟩)
      rw [replace_append noOpening apart, pieces_next]
      simp only [← List.append_assoc] at gap ih ⊢
      rw [splice, gap, ih, replace_placeholder, List.append_assoc]

end Found

/-! ## All of it -/

theorem markedBy_find (text : String) : MarkedBy text.toList (find text) := by
  have found := found_locate [] text.toList
  exact ⟨found.inOrder, found.here, found.bodies, found.gaps, found.last⟩

theorem toList_expand (text : String) (f : String → String) :
    (expand text f).toList = splice f text.toList 0 (find text) := by
  have found := found_locate [] text.toList
  rw [expand, String.toList_ofList]
  exact (found.splice_eq f).symm

/-- Replaced by themselves, the placeholders leave the text as it is. -/
theorem replace_marked (cs : List Char) :
    replace (fun body => (marked (String.ofList body)).toList) (pieces cs) = cs := by
  induction cs using pieces.induct with
  | case1 =>
      rw [pieces]
      rfl
  | case2 cs body rest found ih =>
      rw [pieces_found found, replace_placeholder, toList_marked, ih]
      rw [(closeBody?_eq_some_iff.mp found).1, chars_placeholder_append]
  | case3 cs missing =>
      rw [pieces_unclosed missing]
      simp [replace]
  | case4 c cs other ih => rw [replace_cons (head?_ne_of_forall other), ih]

theorem sole?_iff_pieces {text body : String} :
    sole? text = some body ↔ pieces text.toList = [.placeholder body.toList] := by
  rw [sole?.eq_def]
  split
  · rename_i inner same
    rw [same]
    simp [String.ext_iff]
  · rename_i other
    simp only [reduceCtorEq, false_iff]
    exact other _

/-- The only placeholder of a text is all of it. -/
theorem sole?_eq_some_iff {text body : String} :
    sole? text = some body ↔ find text = [⟨0, byteLength text.toList, body⟩] := by
  rw [sole?_iff_pieces]
  constructor
  · intro only
    have whole := replace_marked text.toList
    rw [only, replace_placeholder, toList_marked] at whole
    rw [← whole, find, only, locate, locate, String.ofList_toList, Nat.zero_add]
    simp [replace]
  · intro only
    exact (found_locate [] text.toList).pieces_eq only

/-- What is at the places of the placeholders of a text and between them; so putting texts in their
place is putting them at these places, it changes nothing if these texts are the placeholders
themselves, and a placeholder is the whole text if its place is the only one and all of the text. -/
theorem find_marks (text : String) :
    MarkedBy text.toList (find text) ∧
      (∀ f, (expand text f).toList = splice f text.toList 0 (find text)) ∧
      expand text marked = text ∧
      ∀ body, sole? text = some body ↔ find text = [⟨0, byteLength text.toList, body⟩] := by
  refine ⟨markedBy_find text, toList_expand text, ?_, fun body => sole?_eq_some_iff⟩
  rw [expand, replace_marked, String.ofList_toList]

/-- Places count bytes, and the opening without a closing brace is text. -/
example : find "é$\x7ba\x7d$\x7bb" = [⟨2, 6, "a"⟩] := by cbv

end SheetFill.Placeholder
