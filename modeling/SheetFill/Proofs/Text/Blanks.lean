import SheetFill.Text.Blank

/-!
# Texts without blanks

Cutting blanks, or any other characters, from the ends of a text changes nothing if the text has
none of them, and cutting them again changes nothing either (`trim_trim`). A text of one word is
that word with blanks at its ends.
-/

namespace SheetFill.Text

variable {p : Char → Bool} {cs : List Char}

theorem dropWhile_of_none (none : ∀ c ∈ cs, p c = false) : cs.dropWhile p = cs := by
  cases cs with
  | nil => rfl
  | cons c cs =>
      rw [List.dropWhile_cons, none c (List.mem_cons_self ..)]
      rfl

theorem dropEndWhile_of_none (none : ∀ c ∈ cs, p c = false) : dropEndWhile p cs = cs := by
  rw [dropEndWhile, dropWhile_of_none fun c mem => none c (List.mem_reverse.mp mem),
    List.reverse_reverse]

theorem trim_of_none (none : ∀ c ∈ cs, isBlank c = false) : trim cs = cs := by
  rw [trim, trimStart, dropWhile_of_none none, trimEnd, dropEndWhile_of_none none]

theorem mem_of_mem_trim {c : Char} (mem : c ∈ trim cs) : c ∈ cs := by
  rw [trim, trimEnd, dropEndWhile, List.mem_reverse] at mem
  have start := List.mem_reverse.mp ((List.dropWhile_suffix isBlank).mem mem)
  exact (List.dropWhile_suffix isBlank).mem start

theorem dropEndWhile_append {ends : List Char} (all : ∀ c ∈ ends, p c = true) :
    dropEndWhile p (cs ++ ends) = dropEndWhile p cs := by
  rw [dropEndWhile, List.reverse_append,
    List.dropWhile_append_of_pos fun c mem => all c (List.mem_reverse.mp mem), dropEndWhile]

/-! ## Blanks around a text -/

/-- What is cut from the ends of a text is blank. -/
theorem exists_of_trim (cs : List Char) :
    ∃ before after, cs = before ++ (trim cs ++ after) ∧ (∀ c ∈ before, isBlank c = true) ∧
      ∀ c ∈ after, isBlank c = true := by
  refine ⟨cs.takeWhile isBlank, ((trimStart cs).reverse.takeWhile isBlank).reverse, ?_,
    List.all_eq_true.mp List.all_takeWhile, fun c mem => ?_⟩
  · have back : trim cs ++ ((trimStart cs).reverse.takeWhile isBlank).reverse = trimStart cs := by
      rw [trim, trimEnd, dropEndWhile, ← List.reverse_append, List.takeWhile_append_dropWhile,
        List.reverse_reverse]
    rw [back, trimStart, List.takeWhile_append_dropWhile]
  · exact List.all_eq_true.mp List.all_takeWhile c (List.mem_reverse.mp mem)

theorem trim_blanks_append {before : List Char} (blank : ∀ c ∈ before, isBlank c = true)
    (cs : List Char) : trim (before ++ cs) = trim cs := by
  rw [trim, trimStart, List.dropWhile_append_of_pos blank, trim, trimStart]

theorem trim_append_blanks {after : List Char} (blank : ∀ c ∈ after, isBlank c = true)
    (cs : List Char) : trim (cs ++ after) = trim cs := by
  have nothing : after.dropWhile isBlank = [] := by
    have all : (after ++ []).dropWhile isBlank = [].dropWhile isBlank :=
      List.dropWhile_append_of_pos blank
    rw [List.append_nil] at all
    exact all
  rw [trim, trimStart, List.dropWhile_append, trim, trimStart]
  split
  · rename_i empty
    rw [nothing, List.isEmpty_iff.mp empty]
  · exact dropEndWhile_append blank

theorem trim_trimStart (cs : List Char) : trim (trimStart cs) = trim cs := by
  have blank : ∀ c ∈ cs.takeWhile isBlank, isBlank c = true := List.all_eq_true.mp List.all_takeWhile
  rw [← trim_blanks_append blank (trimStart cs), trimStart, List.takeWhile_append_dropWhile]

theorem trim_trimEnd (cs : List Char) : trim (trimEnd cs) = trim cs := by
  have blank : ∀ c ∈ (cs.reverse.takeWhile isBlank).reverse, isBlank c = true :=
    fun c mem => List.all_eq_true.mp List.all_takeWhile c (List.mem_reverse.mp mem)
  rw [← trim_append_blanks blank (trimEnd cs), trimEnd, dropEndWhile, ← List.reverse_append,
    List.takeWhile_append_dropWhile, List.reverse_reverse]

theorem trim_trim (cs : List Char) : trim (trim cs) = trim cs := by
  show trim (trimEnd (trimStart cs)) = trim cs
  rw [trim_trimEnd, trim_trimStart]

theorem dropWhile_append_cons {c : Char} (stop : p c = false) (before after : List Char) :
    (before ++ c :: after).dropWhile p = before.dropWhile p ++ c :: after := by
  rw [List.dropWhile_append, List.dropWhile_cons, stop]
  split
  · rename_i empty
    rw [List.isEmpty_iff.mp empty]
    rfl
  · rfl

/-- Nothing is cut beyond a character that is not blank. -/
theorem trim_append_cons {c : Char} (noBlank : isBlank c = false) (before after : List Char) :
    trim (before ++ c :: after) = trimStart before ++ c :: trimEnd after := by
  have turned : (trimStart before ++ c :: after).reverse =
      after.reverse ++ c :: (trimStart before).reverse := by
    simp only [List.reverse_append, List.reverse_cons, List.append_assoc, List.singleton_append]
  rw [trim, trimStart, dropWhile_append_cons noBlank, ← trimStart, trimEnd, dropEndWhile, turned,
    dropWhile_append_cons noBlank, List.reverse_append, List.reverse_cons, List.reverse_reverse,
    List.append_assoc, List.singleton_append, trimEnd, dropEndWhile]

/-! ## Texts of one word -/

theorem fields_ne_nil (p : Char → Bool) (cs : List Char) : fields p cs ≠ [] := by
  induction cs with
  | nil => simp [fields]
  | cons c cs ih =>
      rw [fields]
      split
      · simp
      · cases found : fields p cs with
        | nil => exact absurd found ih
        | cons field more => simp

/-- If no field but the first one has characters, then the text is this field and characters that
end fields. -/
theorem exists_of_fields {field : List Char} {more : List (List Char)}
    (found : fields p cs = field :: more) (empty : ∀ other ∈ more, other = []) :
    ∃ ends, cs = field ++ ends ∧ (∀ c ∈ ends, p c = true) ∧ ∀ c ∈ field, p c = false := by
  induction cs generalizing field more with
  | nil =>
      cases found
      exact ⟨[], rfl, by simp, by simp⟩
  | cons c cs ih =>
      obtain ⟨first, rest, later⟩ := List.exists_cons_of_ne_nil (fields_ne_nil p cs)
      rw [fields, later] at found
      split at found
      · rename_i ends
        cases found
        rw [List.forall_mem_cons] at empty
        obtain ⟨blanks, split, all, -⟩ := ih later empty.2
        refine ⟨c :: blanks, ?_, List.forall_mem_cons.mpr ⟨ends, all⟩, by simp⟩
        rw [split, empty.1]
        rfl
      · rename_i inside
        cases found
        obtain ⟨ends, split, all, none⟩ := ih later empty
        refine ⟨ends, by rw [split]; rfl, all, ?_⟩
        exact List.forall_mem_cons.mpr ⟨Bool.eq_false_iff.mpr inside, none⟩

/-- The only word of a text is the text without the blanks at its ends, and it has no others. -/
theorem trim_of_words {word : List Char} (one : words cs = [word]) :
    trim cs = word ∧ ∀ c ∈ word, isBlank c = false := by
  induction cs with
  | nil => cases one
  | cons c cs ih =>
      by_cases blank : isBlank c = true
      · rw [words, fields, if_pos blank] at one
        rw [trim, trimStart, List.dropWhile_cons_of_pos blank]
        exact ih one
      · obtain ⟨field, more, found⟩ := List.exists_cons_of_ne_nil (fields_ne_nil isBlank cs)
        rw [words, fields, if_neg blank, found, List.modifyHead_cons,
          List.filter_cons_of_pos rfl] at one
        obtain ⟨rfl, noWords⟩ := List.cons.inj one
        have empty : ∀ other ∈ more, other = [] := by
          intro other mem
          simpa using List.filter_eq_nil_iff.mp noWords other mem
        obtain ⟨ends, split, all, none⟩ := exists_of_fields found empty
        have noBlank : ∀ d ∈ c :: field, isBlank d = false :=
          List.forall_mem_cons.mpr ⟨Bool.eq_false_iff.mpr blank, none⟩
        refine ⟨?_, noBlank⟩
        rw [trim, trimStart, List.dropWhile_cons_of_neg blank, trimEnd, split, ← List.cons_append,
          dropEndWhile_append all, dropEndWhile_of_none noBlank]

end SheetFill.Text
