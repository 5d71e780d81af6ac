import SheetFill.Proofs.Placeholder.Spans

/-!
# Openings without a closing brace

An opening without a closing brace is text, and so is all that follows it: the search for
placeholders ends there. A search that passes over such an opening and goes on (`scan`) finds the
same placeholders first. What it finds behind the first unclosed opening is what the other search
misses (`find_scan`). An unbalanced quote in brackets is enough for that, since braces do not count
up to its end.
-/

namespace SheetFill.Placeholder

open Text (byteLength)

/-! ## A search that goes on -/

/-- The placeholders of a text that starts at a byte, from left to right. An opening without a
closing brace is passed over. -/
def scan (start : Nat) : List Char → List Placeholder
  | [] => []
  | '$' :: '{' :: cs =>
      match _found : closeBody? .plain cs with
      | some (body, rest) =>
          let stop := start + byteLength (Piece.placeholder body).chars
          ⟨start, stop, String.ofList body⟩ :: scan stop rest
      | none => scan (start + byteLength ['$', '{']) cs
  | c :: cs => scan (start + c.utf8Size) cs
termination_by cs => cs.length
decreasing_by
  · have := length_of_closeBody? _found
    simp only [List.length_cons]
    omega
  · simp only [List.length_cons]
    omega
  · simp

section Scan

variable {start : Nat} {cs body rest : List Char}

theorem scan_found (found : closeBody? .plain cs = some (body, rest)) :
    scan start ('$' :: '{' :: cs) =
      ⟨start, start + byteLength (Piece.placeholder body).chars, String.ofList body⟩ ::
        scan (start + byteLength (Piece.placeholder body).chars) rest := by
  rw [scan]
  split
  · rename_i found'
    cases found.symm.trans found'
    rfl
  · rename_i missing
    cases found.symm.trans missing

theorem scan_unclosed (missing : closeBody? .plain cs = none) :
    scan start ('$' :: '{' :: cs) = scan (start + byteLength ['$', '{']) cs := by
  rw [scan]
  split
  · rename_i found
    cases missing.symm.trans found
  · rfl

theorem scan_cons {c : Char} (plain : c = '$' → cs.head? ≠ some '{') :
    scan start (c :: cs) = scan (start + c.utf8Size) cs := by
  rw [scan]
  rintro rest rfl rfl
  exact plain rfl rfl

/-- Text in front is passed over if no placeholder starts in it or where it ends. -/
theorem scan_append {before : List Char} (none : NoOpening before)
    (apart : before.getLast? = some '$' → cs.head? ≠ some '{') :
    scan start (before ++ cs) = scan (start + byteLength before) cs := by
  induction before generalizing start with
  | nil => rfl
  | cons c before ih =>
      have plain : c = '$' → (before ++ cs).head? ≠ some '{' := by
        cases before with
        | nil => exact fun dollar => apart (congrArg some dollar)
        | cons d before => exact none.plain
      have apart' : before.getLast? = some '$' → cs.head? ≠ some '{' := by
        cases before with
        | nil => exact nofun
        | cons d before => exact apart
      rw [List.cons_append, scan_cons plain, ih none.tail apart', byteLength_cons, Nat.add_assoc]

end Scan

/-! ## What both searches find -/

/-- The search that ends early finds the same placeholders, up to the first opening that is not
closed. -/
theorem Found.scan_eq {read cs : List Char} {ps : List Placeholder} (found : Found read cs ps) :
    scan (byteLength read) cs = ps ++ scan (lastStop (byteLength read) ps)
      (dropBytes (lastStop (byteLength read) ps) (read ++ cs)) := by
  induction found with
  | none unclosed => rw [lastStop, dropBytes_append, List.nil_append]
  | @next read before body rest ps noOpening closed _ ih =>
      have apart : before.getLast? = some '$' →
          ((Piece.placeholder body).chars ++ rest).head? ≠ some '{' := by simp [Piece.chars]
      have first : scan (byteLength (read ++ before)) ((Piece.placeholder body).chars ++ rest) =
          ⟨byteLength (read ++ before),
            byteLength (read ++ before ++ (Piece.placeholder body).chars), String.ofList body⟩ ::
            scan (byteLength (read ++ before ++ (Piece.placeholder body).chars)) rest := by
        rw [chars_placeholder_append, scan_found (closeBody?_eq_some_iff.mpr ⟨rfl, closed⟩),
          ← byteLength_append]
      rw [scan_append noOpening apart, ← byteLength_append, first]
      simp only [← List.append_assoc] at ih ⊢
      rw [ih, lastStop, List.cons_append]

/-! ## What is behind an unclosed opening -/

/-- No opening in a text is closed. -/
def NoneClosed (cs : List Char) : Prop :=
  ∀ before body rest, BracesInKeys false body →
    cs ≠ before ++ ((Piece.placeholder body).chars ++ rest)

section NoneClosed

variable {c : Char} {cs : List Char}

theorem NoneClosed.of_append (before : List Char) (none : NoneClosed (before ++ cs)) :
    NoneClosed cs := by
  rintro before' body rest closed rfl
  exact none (before ++ before') body rest closed (List.append_assoc ..).symm

theorem NoneClosed.missing (none : NoneClosed ('$' :: '{' :: cs)) :
    closeBody? .plain cs = .none := by
  cases found : closeBody? .plain cs with
  | none => rfl
  | some split =>
      obtain ⟨rfl, closed⟩ := closeBody?_eq_some_iff.mp found
      exact absurd (chars_placeholder_append ..).symm (none [] _ _ closed)

theorem NoneClosed.cons (plain : c = '$' → cs.head? ≠ some '{') (none : NoneClosed cs) :
    NoneClosed (c :: cs) := by
  intro before body rest closed same
  cases before with
  | nil =>
      obtain ⟨rfl, rfl⟩ := List.cons.inj same
      exact plain rfl rfl
  | cons d before => exact none before body rest closed (List.cons.inj same).2

theorem NoneClosed.opening (missing : closeBody? .plain cs = .none)
    (none : NoneClosed cs) : NoneClosed ('$' :: '{' :: cs) := by
  intro before body rest closed same
  cases before with
  | nil =>
      rw [List.nil_append, chars_placeholder_append] at same
      have split := (List.cons.inj (List.cons.inj same).2).2
      cases missing.symm.trans (closeBody?_eq_some_iff.mpr ⟨split, closed⟩)
  | cons d before =>
      have brace : NoneClosed ('{' :: cs) := none.cons nofun
      exact brace before body rest closed (List.cons.inj same).2

end NoneClosed

/-- The search that goes on finds nothing exactly if no opening is closed. -/
theorem scan_eq_nil_iff (start : Nat) (cs : List Char) : scan start cs = [] ↔ NoneClosed cs := by
  induction start, cs using scan.induct with
  | case1 start =>
      refine iff_of_true (by rw [scan]) fun before body rest _ same => ?_
      simp [Piece.chars] at same
  | case2 start cs body rest found stop ih =>
      rw [scan_found found]
      refine iff_of_false (List.cons_ne_nil _ _) fun none => ?_
      cases found.symm.trans none.missing
  | case3 start cs missing ih =>
      rw [scan_unclosed missing, ih]
      exact ⟨fun none => none.opening missing, fun none => none.of_append ['$', '{']⟩
  | case4 start c cs other ih =>
      have plain := head?_ne_of_forall other
      rw [scan_cons plain, ih]
      exact ⟨fun none => none.cons plain, fun none => none.of_append [c]⟩

/-! ## All of it -/

/-- The search that goes on finds the placeholders of a text and then those behind the first opening
that is not closed. So none is missing exactly if no opening behind that one is closed. -/
theorem find_scan (text : String) :
    let stop := lastStop 0 (find text)
    let behind := dropBytes stop text.toList
    scan 0 text.toList = find text ++ scan stop behind ∧ Unclosed behind ∧
      (find text = scan 0 text.toList ↔ NoneClosed behind) := by
  intro stop behind
  have found := found_locate [] text.toList
  have split : scan 0 text.toList = find text ++ scan stop behind := found.scan_eq
  refine ⟨split, found.last, ?_⟩
  rw [split, List.self_eq_append_right]
  exact scan_eq_nil_iff stop behind

/-- Behind a quote that does not end, one search finds nothing and the other a placeholder. -/
theorem find_unterminated :
    find "$\x7ba[\"b\x7d $\x7bc\x7d" = [] ∧
      scan 0 "$\x7ba[\"b\x7d $\x7bc\x7d".toList = [⟨8, 12, "c"⟩] := by
  decide +kernel

end SheetFill.Placeholder
