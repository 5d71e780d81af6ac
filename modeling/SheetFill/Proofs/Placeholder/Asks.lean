import SheetFill.Placeholder

/-!
# What a text asks for

A text asks for what the bodies of its placeholders lead to. Text that follows takes no placeholder
away (`mem_pieces_append`), and text in front in which no placeholder starts brings none
(`Asks.append`).
-/

namespace SheetFill.Placeholder

/-! ## Pieces -/

theorem pieces_found {cs body rest : List Char} (found : closeBody? .plain cs = some (body, rest)) :
    pieces ('$' :: '{' :: cs) = .placeholder body :: pieces rest := by
  rw [pieces]
  split
  · rename_i found'
    cases found.symm.trans found'
    rfl
  · rename_i missing
    cases found.symm.trans missing

theorem pieces_unclosed {cs : List Char} (missing : closeBody? .plain cs = none) :
    pieces ('$' :: '{' :: cs) = [.text ('$' :: '{' :: cs)] := by
  rw [pieces]
  split
  · rename_i found
    cases missing.symm.trans found
  · rfl

/-- A character that starts no placeholder is text. -/
theorem pieces_cons {c : Char} {cs : List Char} (plain : c = '$' → cs.head? ≠ some '{') :
    pieces (c :: cs) = consText c (pieces cs) := by
  rw [pieces]
  rintro rest rfl rfl
  exact plain rfl rfl

theorem head?_ne_of_forall {c : Char} {cs : List Char}
    (other : ∀ rest, c = '$' → cs = '{' :: rest → False) : c = '$' → cs.head? ≠ some '{' := by
  intro dollar start
  obtain ⟨rest, same⟩ := List.head?_eq_some_iff.mp start
  exact other rest dollar same

theorem placeholder_mem_consText {c : Char} {all : List Piece} {body : List Char} :
    .placeholder body ∈ consText c all ↔ .placeholder body ∈ all := by
  rw [consText.eq_def]
  split
  · simp
  · simp

theorem closeBody?_append {context : Context} {cs body rest : List Char}
    (found : closeBody? context cs = some (body, rest)) (more : List Char) :
    closeBody? context (cs ++ more) = some (body, rest ++ more) := by
  induction cs generalizing context body with
  | nil => cases found
  | cons c cs ih =>
      rw [closeBody?] at found
      rw [List.cons_append, closeBody?]
      split
      · rename_i ends
        rw [if_pos ends] at found
        cases found
        rfl
      · rename_i goesOn
        rw [if_neg goesOn] at found
        obtain ⟨⟨inner, after⟩, found, same⟩ := Option.map_eq_some_iff.mp found
        cases same
        rw [ih found]
        rfl

/-- A placeholder is one whatever follows. -/
theorem mem_pieces_append {cs body : List Char} (mem : .placeholder body ∈ pieces cs)
    (more : List Char) : .placeholder body ∈ pieces (cs ++ more) := by
  induction cs using pieces.induct with
  | case1 =>
      rw [pieces] at mem
      cases mem
  | case2 cs found rest closed ih =>
      rw [pieces_found closed] at mem
      rw [List.cons_append, List.cons_append, pieces_found (closeBody?_append closed more)]
      rcases List.mem_cons.mp mem with same | mem
      · exact same ▸ List.mem_cons_self ..
      · exact List.mem_cons_of_mem _ (ih mem)
  | case3 cs unclosed =>
      rw [pieces_unclosed unclosed] at mem
      cases List.mem_singleton.mp mem
  | case4 c cs other ih =>
      have plain := head?_ne_of_forall other
      rw [pieces_cons plain, placeholder_mem_consText] at mem
      rw [List.cons_append, pieces_cons, placeholder_mem_consText]
      · exact ih mem
      · -- The text does not end here, since there is a placeholder in the rest of it.
        cases cs with
        | nil =>
            rw [pieces] at mem
            cases mem
        | cons d cs => exact plain

/-! ## Openings -/

/-- In a text no placeholder starts. -/
def NoOpening (cs : List Char) : Prop := ¬ ['$', '{'] <:+: cs

instance : DecidablePred NoOpening := fun cs => inferInstanceAs (Decidable (¬ ['$', '{'] <:+: cs))

/-- In a piece that is text no placeholder starts. -/
def Piece.Closed : Piece → Prop
  | .text chars => NoOpening chars
  | .placeholder _ => True

instance : DecidablePred Piece.Closed
  | .text chars => inferInstanceAs (Decidable (NoOpening chars))
  | .placeholder _ => isTrue trivial

/-- Every placeholder that starts in a text ends in it. -/
def Closed (cs : List Char) : Prop := ∀ piece ∈ pieces cs, piece.Closed

instance : DecidablePred Closed :=
  fun cs => inferInstanceAs (Decidable (∀ piece ∈ pieces cs, piece.Closed))

theorem NoOpening.tail {c : Char} {cs : List Char} (h : NoOpening (c :: cs)) : NoOpening cs :=
  fun inside => h (inside.trans (List.suffix_cons c cs).isInfix)

theorem NoOpening.plain {c : Char} {cs : List Char} (h : NoOpening (c :: cs)) :
    c = '$' → cs.head? ≠ some '{' := by
  rintro rfl start
  obtain ⟨rest, rfl⟩ := List.head?_eq_some_iff.mp start
  exact h (List.prefix_append ['$', '{'] rest).isInfix

theorem NoOpening.cons {c : Char} {cs : List Char} (plain : c = '$' → cs.head? ≠ some '{')
    (none : NoOpening cs) : NoOpening (c :: cs) := by
  intro inside
  rcases List.infix_cons_iff.mp inside with start | later
  · obtain ⟨dollar, rest⟩ := List.cons_prefix_cons.mp start
    obtain ⟨more, same⟩ := rest
    exact plain dollar.symm (by rw [← same]; rfl)
  · exact none later

/-- No placeholder starts in a text or in the one after it, or where one ends and the other
starts. -/
theorem NoOpening.append {before after : List Char} (none : NoOpening before)
    (apart : before.getLast? = some '$' → after.head? ≠ some '{') (later : NoOpening after) :
    NoOpening (before ++ after) := by
  induction before with
  | nil => exact later
  | cons c before ih =>
      cases before with
      | nil => exact later.cons fun dollar => apart (congrArg some dollar)
      | cons d before => exact (ih none.tail apart).cons none.plain

/-- Text in front in which no placeholder starts, and none where it ends, is text in front of the
first piece. -/
theorem pieces_append {before cs : List Char} (none : NoOpening before)
    (apart : before.getLast? = some '$' → cs.head? ≠ some '{') :
    pieces (before ++ cs) = before.foldr consText (pieces cs) := by
  induction before with
  | nil => rfl
  | cons c before ih =>
      cases before with
      | nil => exact pieces_cons fun dollar => apart (congrArg some dollar)
      | cons d before =>
          have plain : c = '$' → (d :: before ++ cs).head? ≠ some '{' := none.plain
          rw [List.cons_append, pieces_cons plain, ih none.tail apart]
          rfl

theorem noOpening_of_notMem {cs : List Char} (noDollar : '$' ∉ cs) : NoOpening cs :=
  fun inside => noDollar (inside.subset (List.mem_cons_self ..))

/-- A text in which no placeholder starts is one piece of text. -/
theorem NoOpening.pieces_eq {cs : List Char} (none : NoOpening cs) :
    pieces cs = if cs = [] then [] else [.text cs] := by
  induction cs with
  | nil => rw [pieces, if_pos rfl]
  | cons c cs ih =>
      rw [pieces_cons none.plain, ih none.tail, if_neg (List.cons_ne_nil c cs)]
      split
      · rename_i empty
        rw [empty]
        rfl
      · rfl

theorem NoOpening.closed {cs : List Char} (none : NoOpening cs) : Closed cs := by
  intro piece mem
  rw [none.pieces_eq] at mem
  split at mem
  · cases mem
  · rw [List.mem_singleton.mp mem]
    exact none

theorem NoOpening.notMem {cs : List Char} (none : NoOpening cs) (body : List Char) :
    .placeholder body ∉ pieces cs := by
  intro mem
  rw [none.pieces_eq] at mem
  split at mem
  · cases mem
  · cases List.mem_singleton.mp mem

theorem Closed.tail {c : Char} {cs : List Char} (plain : c = '$' → cs.head? ≠ some '{')
    (closed : Closed (c :: cs)) : Closed cs := by
  rw [Closed, pieces_cons plain, consText.eq_def] at closed
  split at closed
  · rename_i chars others same
    obtain ⟨first, rest⟩ := List.forall_mem_cons.mp closed
    rw [Closed, same]
    exact List.forall_mem_cons.mpr ⟨NoOpening.tail first, rest⟩
  · exact (List.forall_mem_cons.mp closed).2

theorem Closed.rest {cs body rest : List Char} (found : closeBody? .plain cs = some (body, rest))
    (closed : Closed ('$' :: '{' :: cs)) : Closed rest := by
  rw [Closed, pieces_found found] at closed
  exact (List.forall_mem_cons.mp closed).2

theorem Closed.exists_body {cs : List Char} (closed : Closed ('$' :: '{' :: cs)) :
    ∃ body rest, closeBody? .plain cs = some (body, rest) := by
  cases found : closeBody? .plain cs with
  | none =>
      have unclosed := closed (.text ('$' :: '{' :: cs))
        (by rw [pieces_unclosed found]; exact List.mem_singleton_self _)
      exact absurd (List.prefix_append ['$', '{'] cs).isInfix unclosed
  | some split => exact ⟨split.1, split.2, rfl⟩

/-! ## Bodies -/

/-- All bodies of the placeholders in a text are among those that are allowed. -/
def Asks (allowed : List Char → Prop) (cs : List Char) : Prop :=
  ∀ body, .placeholder body ∈ pieces cs → allowed body

section Asks

variable {allowed : List Char → Prop} {cs : List Char}

theorem asks_nil : Asks allowed [] := by
  intro body mem
  rw [pieces] at mem
  cases mem

theorem Asks.cons {c : Char} (plain : c = '$' → cs.head? ≠ some '{') (h : Asks allowed cs) :
    Asks allowed (c :: cs) := by
  intro body mem
  rw [pieces_cons plain, placeholder_mem_consText] at mem
  exact h body mem

theorem Asks.cons_of_ne {c : Char} (other : c ≠ '$') (h : Asks allowed cs) :
    Asks allowed (c :: cs) := h.cons fun dollar => absurd dollar other

/-- Text in front asks for nothing if no placeholder starts in it or where it ends. -/
theorem Asks.append {before : List Char} (none : NoOpening before)
    (apart : before.getLast? = some '$' → cs.head? ≠ some '{') (h : Asks allowed cs) :
    Asks allowed (before ++ cs) := by
  intro body mem
  rw [pieces_append none apart] at mem
  refine h body ?_
  clear none apart
  induction before with
  | nil => exact mem
  | cons c before ih => exact ih (placeholder_mem_consText.mp mem)

end Asks

end SheetFill.Placeholder
