import SheetFill.Xml.Escape

/-!
# Escapes are read back

Every character that `escapeText` or `escapeAttribute` changes becomes one escape, which stands for
that character again. So resolving the escapes of an escaped text gives the text back, whatever its
characters are. What was escaped has no opening bracket, and an escaped attribute value has no
double quote, so neither ends early when it is read.
-/

namespace SheetFill.Xml

/-! ## Runs of characters -/

section Spans

variable {α : Type} {p : α → Bool} {run rest : List α}

/-- A run of characters that satisfy `p` ends where the first one follows that does not. -/
theorem takeWhile_append_of_stop (inside : ∀ c ∈ run, p c = true)
    (stop : ∀ c ∈ rest.head?, p c = false) : (run ++ rest).takeWhile p = run := by
  rw [List.takeWhile_append_of_pos inside]
  cases rest with
  | nil => simp
  | cons c rest => simp [stop c rfl]

theorem dropWhile_append_of_stop (inside : ∀ c ∈ run, p c = true)
    (stop : ∀ c ∈ rest.head?, p c = false) : (run ++ rest).dropWhile p = rest := by
  rw [List.dropWhile_append_of_pos inside]
  cases rest with
  | nil => rfl
  | cons c rest => simp [stop c rfl]

end Spans

/-! ## One escape -/

/-- The escapes of `written` stand for `chars`, wherever the text starts. -/
def Unescapes (written chars : List Char) : Prop := ∀ place, unescapeFrom place written = .ok chars

theorem Unescapes.unescape {written chars : List Char} (h : Unescapes written chars) :
    unescape written = .ok chars := h 0

theorem unescapes_nil : Unescapes [] [] := by
  intro place
  rw [unescapeFrom]

/-- A character other than the ampersand stands for itself. -/
theorem Unescapes.cons {c : Char} {written chars : List Char} (plain : c ≠ '&')
    (h : Unescapes written chars) : Unescapes (c :: written) (c :: chars) := by
  intro place
  rw [unescapeFrom, if_neg plain, h]
  rfl

/-- An escape stands for the character of its name. -/
theorem Unescapes.entity {name written chars : List Char} {c : Char}
    (inside : ∀ d ∈ name, inEntity d = true) (means : ∀ start stop, entity start stop name = .ok c)
    (h : Unescapes written chars) :
    Unescapes ('&' :: (name ++ ';' :: written)) (c :: chars) := by
  intro place
  have stop : ∀ d ∈ (';' :: written).head?, inEntity d = false := by
    intro d hd
    obtain rfl := Option.some.inj hd
    rfl
  rw [unescapeFrom, if_pos rfl, takeWhile_append_of_stop inside stop]
  split
  · rename_i tail after
    rw [dropWhile_append_of_stop inside stop] at after
    obtain rfl := (List.cons.inj after).2
    simp only [means, h (place + 1 + Text.byteLength name + 1)]
    rfl
  · rename_i noTail
    exact absurd (dropWhile_append_of_stop inside stop) (noTail _)

/-! ## Escaped characters -/

/-- How a character is written: as itself, or by an escape that stands for it. -/
inductive Escaped (c : Char) : List Char → Prop where
  /-- The character is no markup. -/
  | itself (noAmpersand : c ≠ '&') (noBracket : c ≠ '<') : Escaped c [c]
  /-- The name of the escape is no markup. -/
  | named (name : List Char) (inside : ∀ d ∈ name, inEntity d = true)
      (noMarkup : ∀ d ∈ name, d ≠ '<' ∧ d ≠ '"')
      (means : ∀ start stop, entity start stop name = .ok c) : Escaped c ('&' :: (name ++ [';']))

theorem Escaped.ofName {c : Char} (name : List Char)
    (plain : name.all (fun d => inEntity d && (d != '<' && d != '"')) = true)
    (means : ∀ start stop, entity start stop name = .ok c) : Escaped c ('&' :: (name ++ [';'])) := by
  refine .named name ?_ ?_ means
  · intro d mem
    exact (Bool.and_eq_true_iff.mp (List.all_eq_true.mp plain d mem)).1
  · intro d mem
    have kept := (Bool.and_eq_true_iff.mp (List.all_eq_true.mp plain d mem)).2
    simpa using kept

theorem escaped_escapeTextChar (c : Char) : Escaped c (escapeTextChar c) := by
  unfold escapeTextChar
  split
  · rename_i amp
    subst amp
    exact .ofName ['a', 'm', 'p'] rfl (fun _ _ => rfl)
  · split
    · rename_i lt
      subst lt
      exact .ofName ['l', 't'] rfl (fun _ _ => rfl)
    · split
      · rename_i gt
        subst gt
        exact .ofName ['g', 't'] rfl (fun _ _ => rfl)
      · rename_i noAmpersand noBracket _
        exact .itself noAmpersand noBracket

theorem escaped_escapeAttributeChar (c : Char) : Escaped c (escapeAttributeChar c) := by
  unfold escapeAttributeChar
  split
  · rename_i quote
    subst quote
    exact .ofName ['q', 'u', 'o', 't'] rfl (fun _ _ => rfl)
  · split
    · rename_i feed
      subst feed
      exact .ofName ['#', '1', '0'] rfl (fun _ _ => rfl)
    · split
      · rename_i ret
        subst ret
        exact .ofName ['#', '1', '3'] rfl (fun _ _ => rfl)
      · split
        · rename_i tab
          subst tab
          exact .ofName ['#', '9'] rfl (fun _ _ => rfl)
        · exact escaped_escapeTextChar c

theorem Unescapes.escaped {c : Char} {one written chars : List Char} (first : Escaped c one)
    (h : Unescapes written chars) : Unescapes (one ++ written) (c :: chars) := by
  cases first with
  | itself noAmpersand _ => exact h.cons noAmpersand
  | named name inside _ means =>
      rw [List.cons_append, List.append_assoc]
      exact h.entity inside means

theorem Escaped.bracket_notMem {c : Char} {one : List Char} (h : Escaped c one) : '<' ∉ one := by
  cases h with
  | itself _ noBracket => exact fun mem => noBracket (List.mem_singleton.mp mem).symm
  | named name _ noMarkup _ =>
      intro mem
      rcases List.mem_cons.mp mem with eq | mem
      · exact absurd eq (by decide)
      · rcases List.mem_append.mp mem with mem | mem
        · exact (noMarkup _ mem).1 rfl
        · exact absurd mem (by decide)

/-- A double quote stands only for itself. -/
theorem Escaped.eq_quote {c : Char} {one : List Char} (h : Escaped c one) (mem : '"' ∈ one) :
    c = '"' ∧ one = ['"'] := by
  cases h with
  | itself => exact ⟨(List.mem_singleton.mp mem).symm, by rw [List.mem_singleton.mp mem]⟩
  | named name _ noMarkup _ =>
      rcases List.mem_cons.mp mem with eq | mem
      · exact absurd eq (by decide)
      · rcases List.mem_append.mp mem with mem | mem
        · exact absurd rfl (noMarkup _ mem).2
        · exact absurd mem (by decide)

/-! ## Escaped texts -/

/-- A text is read back if each of its characters is written in a way that stands for it. -/
theorem unescapes_flatMap {escape : Char → List Char} (each : ∀ c, Escaped c (escape c))
    (cs : List Char) : Unescapes (cs.flatMap escape) cs := by
  induction cs with
  | nil => exact unescapes_nil
  | cons c cs ih =>
      rw [List.flatMap_cons]
      exact ih.escaped (each c)

/-- A text is read back from between tags. -/
theorem unescape_escapeText (cs : List Char) : unescape (escapeText cs) = .ok cs :=
  (unescapes_flatMap escaped_escapeTextChar cs).unescape

/-- An attribute value is read back from between double quotes. -/
theorem unescape_escapeAttribute (cs : List Char) : unescape (escapeAttribute cs) = .ok cs :=
  (unescapes_flatMap escaped_escapeAttributeChar cs).unescape

theorem bracket_notMem_escapeText (cs : List Char) : '<' ∉ escapeText cs := by
  intro mem
  obtain ⟨c, -, mem⟩ := List.mem_flatMap.mp mem
  exact (escaped_escapeTextChar c).bracket_notMem mem

theorem quote_notMem_escapeAttribute (cs : List Char) : '"' ∉ escapeAttribute cs := by
  intro mem
  obtain ⟨c, -, mem⟩ := List.mem_flatMap.mp mem
  obtain ⟨rfl, same⟩ := (escaped_escapeAttributeChar c).eq_quote mem
  exact absurd same (by decide)

theorem escapeText_append (as bs : List Char) :
    escapeText (as ++ bs) = escapeText as ++ escapeText bs := List.flatMap_append

theorem escapeText_eq_nil {cs : List Char} (h : escapeText cs = []) : cs = [] := by
  have read := unescape_escapeText cs
  rw [h] at read
  exact (Except.ok.inj (unescapes_nil.unescape.symm.trans read)).symm

end SheetFill.Xml
