import SheetFill.Package.PartPath
import SheetFill.Proofs.Text.Blanks

/-!
# Targets seen from a folder

A target leads from place to place, one step after another. Where it leads is written as a path, and
the path is read as the same place again when a target goes on from it (`place_join`). So a target
of two parts leads where its second part leads from the place that its first part leads to, and no
target leads to a path with steps that stay or go up, however often it goes up itself
(`resolve_steps`).
-/

namespace SheetFill

/-! ## Fields joined again -/

namespace Text

/-- A character that ends fields ends the last one before it and starts a new one. -/
theorem fields_append_cons {p : Char → Bool} {c : Char} (ends : p c = true)
    (before after : List Char) :
    fields p (before ++ c :: after) = fields p before ++ fields p after := by
  induction before with
  | nil => exact if_pos ends
  | cons d before ih =>
      obtain ⟨field, more, split⟩ := List.exists_cons_of_ne_nil (fields_ne_nil p before)
      rw [List.cons_append, fields, fields, ih, split]
      by_cases stop : p d
      · rw [if_pos stop, if_pos stop]
        rfl
      · rw [if_neg stop, if_neg stop]
        rfl

theorem notMem_of_mem_fields {mark : Char} {cs field : List Char}
    (mem : field ∈ fields (· == mark) cs) : mark ∉ field := by
  induction cs generalizing field with
  | nil =>
      cases List.mem_singleton.mp mem
      exact List.not_mem_nil
  | cons c cs ih =>
      obtain ⟨first, more, split⟩ := List.exists_cons_of_ne_nil (fields_ne_nil (· == mark) cs)
      rw [split] at ih
      rw [fields, split] at mem
      split at mem
      · rcases List.mem_cons.mp mem with rfl | mem
        · exact List.not_mem_nil
        · exact ih mem
      · rename_i other
        rcases List.mem_cons.mp mem with rfl | mem
        · have different : mark ≠ c := fun same => other (beq_iff_eq.mpr same.symm)
          exact List.not_mem_cons_of_ne_of_not_mem different (ih (List.mem_cons_self ..))
        · exact ih (List.mem_cons_of_mem _ mem)

theorem fields_of_notMem {mark : Char} {cs : List Char} (none : mark ∉ cs) :
    fields (· == mark) cs = [cs] := by
  induction cs with
  | nil => rfl
  | cons c cs ih =>
      have other : ¬ (c == mark) = true := fun same =>
        none ((beq_iff_eq.mp same) ▸ List.mem_cons_self ..)
      rw [fields, if_neg other, ih fun mem => none (List.mem_cons_of_mem _ mem)]
      rfl

theorem join_cons_cons (separator first second : List Char) (more : List (List Char)) :
    join separator (first :: second :: more) =
      first ++ separator ++ join separator (second :: more) := by
  rw [join, List.intersperse_cons_cons, List.flatten_cons, List.flatten_cons, List.append_assoc]
  rfl

/-- Texts without the mark are the fields of what they are joined to. -/
theorem fields_join {mark : Char} {texts : List (List Char)} (some : texts ≠ [])
    (none : ∀ text ∈ texts, mark ∉ text) :
    fields (· == mark) (join [mark] texts) = texts := by
  induction texts with
  | nil => exact absurd rfl some
  | cons first texts ih =>
      rw [List.forall_mem_cons] at none
      cases texts with
      | nil =>
          rw [join, List.intersperse_singleton, List.flatten_singleton]
          exact fields_of_notMem none.1
      | cons second more =>
          rw [join_cons_cons, List.append_assoc, List.singleton_append,
            fields_append_cons (p := (· == mark)) (beq_self_eq_true mark), fields_of_notMem none.1,
            ih (List.cons_ne_nil second more) none.2, List.singleton_append]

end Text

namespace PartPath

/-! ## Places -/

/-- A target that does not start at the top of the package. -/
def Relative (target : String) : Prop := target.toList.head? ≠ some '/'

instance : DecidablePred Relative :=
  fun target => inferInstanceAs (Decidable (target.toList.head? ≠ some '/'))

/-- The steps of a path. The empty path, which names the top of the package, has none. -/
def components (path : String) : List (List Char) :=
  if path = "" then [] else steps path.toList

/-- A step leads into a folder or to a part: it neither stays nor goes up. -/
def Leads (step : List Char) : Prop := step ≠ [] ∧ step ≠ ['.'] ∧ step ≠ ['.', '.']

instance : DecidablePred Leads :=
  fun step => inferInstanceAs (Decidable (step ≠ [] ∧ step ≠ ['.'] ∧ step ≠ ['.', '.']))

/-- The steps of a place are such as a path can show: none is empty or has a separator in it. -/
def IsPlace (place : List (List Char)) : Prop := ∀ step ∈ place, step ≠ [] ∧ '/' ∉ step

theorem isPlace_place (folder : List Char) : IsPlace (place folder) := by
  intro step mem
  obtain ⟨mem, some⟩ := List.mem_filter.mp mem
  exact ⟨by simpa using some, Text.notMem_of_mem_fields mem⟩

/-- What a step does: it stays, goes up or is added. -/
theorem follow_cases (place : List (List Char)) (step : List Char) :
    follow place step = place ∨ follow place step = place.dropLast ∨
      Leads step ∧ follow place step = place ++ [step] := by
  rw [follow]
  split
  · exact .inl rfl
  · rename_i goes
    split
    · exact .inr (.inl rfl)
    · rename_i noUp
      exact .inr (.inr ⟨⟨fun same => goes (.inl same), fun same => goes (.inr same), noUp⟩, rfl⟩)

theorem follow_of_leads {step : List Char} (leads : Leads step) (place : List (List Char)) :
    follow place step = place ++ [step] := by
  rw [follow, if_neg (not_or.mpr ⟨leads.1, leads.2.1⟩), if_neg leads.2.2]

/-- The steps of the place behind a step are those from before and the step, if it leads on. -/
theorem mem_follow {place : List (List Char)} {step other : List Char}
    (mem : other ∈ follow place step) : other ∈ place ∨ Leads step ∧ other = step := by
  rcases follow_cases place step with stays | up | ⟨leads, added⟩
  · exact .inl (stays ▸ mem)
  · exact .inl ((List.dropLast_sublist place).mem (up ▸ mem))
  · rw [added] at mem
    exact (List.mem_append.mp mem).imp_right fun mem => ⟨leads, List.mem_singleton.mp mem⟩

/-- Whatever the steps are, the place at the end has steps of the first place and steps that lead
on. -/
theorem mem_foldl_follow {steps place : List (List Char)} {other : List Char}
    (mem : other ∈ steps.foldl follow place) :
    other ∈ place ∨ Leads other ∧ other ∈ steps := by
  induction steps generalizing place with
  | nil => exact .inl mem
  | cons step steps ih =>
      rcases ih mem with here | ⟨leads, later⟩
      · rcases mem_follow here with before | ⟨leads, rfl⟩
        · exact .inl before
        · exact .inr ⟨leads, List.mem_cons_self ..⟩
      · exact .inr ⟨leads, List.mem_cons_of_mem _ later⟩

theorem isPlace_foldl_follow {place : List (List Char)} (isPlace : IsPlace place)
    (target : List Char) : IsPlace ((steps target).foldl follow place) := by
  intro step mem
  rcases mem_foldl_follow mem with before | ⟨leads, inside⟩
  · exact isPlace step before
  · exact ⟨leads.1, Text.notMem_of_mem_fields inside⟩

/-! ## Places as paths -/

theorem steps_join {here : List (List Char)} (some : here ≠ []) (isPlace : IsPlace here) :
    steps (Text.join ['/'] here) = here :=
  Text.fields_join some fun step mem => (isPlace step mem).2

/-- A place is read back from its path. -/
theorem place_join {here : List (List Char)} (isPlace : IsPlace here) :
    place (Text.join ['/'] here) = here := by
  cases here with
  | nil => rfl
  | cons first more =>
      rw [place, steps_join (List.cons_ne_nil first more) isPlace, List.filter_eq_self]
      intro step mem
      simpa using (isPlace step mem).1

theorem components_join {here : List (List Char)} (isPlace : IsPlace here) :
    components (String.ofList (Text.join ['/'] here)) = here := by
  cases here with
  | nil => rfl
  | cons first more =>
      have split := steps_join (List.cons_ne_nil first more) isPlace
      rw [components, String.toList_ofList, split, if_neg]
      -- The only step of the empty path would be empty.
      intro top
      have noText : Text.join ['/'] (first :: more) = [] := by
        rw [← String.toList_ofList (l := Text.join ['/'] (first :: more)), top]
        rfl
      rw [noText] at split
      cases split
      exact (isPlace [] (List.mem_singleton_self _)).1 rfl

/-- A path has no other steps than the place that it names, but for empty ones. -/
theorem mem_components_of_mem_place {folder : String} {step : List Char}
    (mem : step ∈ place folder.toList) : step ∈ components folder := by
  rw [components]
  split
  · rename_i top
    rw [top] at mem
    cases mem
  · exact (List.mem_filter.mp mem).1

/-! ## Targets -/

/-- The path that a target leads to is the one of the place that its steps lead to. -/
theorem resolve_relative (folder : String) {target : String} (relative : Relative target) :
    resolve folder target = String.ofList
      (Text.join ['/'] ((steps target.toList).foldl follow (place folder.toList))) := by
  rw [resolve]
  split
  · rename_i path same
    exact absurd (congrArg List.head? same) relative
  · rfl

theorem components_resolve (folder : String) {target : String} (relative : Relative target) :
    components (resolve folder target) =
      (steps target.toList).foldl follow (place folder.toList) := by
  rw [resolve_relative folder relative]
  exact components_join (isPlace_foldl_follow (isPlace_place _) _)

theorem place_resolve (folder : String) {target : String} (relative : Relative target) :
    place (resolve folder target).toList =
      (steps target.toList).foldl follow (place folder.toList) := by
  rw [resolve_relative folder relative, String.toList_ofList]
  exact place_join (isPlace_foldl_follow (isPlace_place _) _)

/-- A target of two parts leads on from where its first part leads. -/
theorem resolve_append (folder : String) {first second : String} (some : first ≠ "")
    (relative : Relative first) (relative' : Relative second) :
    resolve folder (first ++ "/" ++ second) = resolve (resolve folder first) second := by
  have text : (first ++ "/" ++ second).toList = first.toList ++ '/' :: second.toList := by simp
  have whole : Relative (first ++ "/" ++ second) := by
    cases start : first.toList with
    | nil => exact absurd (String.toList_eq_nil_iff.mp start) some
    | cons c cs =>
        rw [Relative, start] at relative
        rw [Relative, text, start]
        exact relative
  have split : steps (first.toList ++ '/' :: second.toList) =
      steps first.toList ++ steps second.toList := Text.fields_append_cons rfl ..
  rw [resolve_relative folder whole, resolve_relative _ relative', place_resolve folder relative,
    text, split, List.foldl_append]

/-- From a folder whose path only leads on, every target leads to such a path. -/
theorem leads_of_mem_components {folder target : String}
    (clean : ∀ step ∈ components folder, Leads step) (relative : Relative target) :
    ∀ step ∈ components (resolve folder target), Leads step := by
  intro step mem
  rw [components_resolve folder relative] at mem
  rcases mem_foldl_follow mem with before | ⟨leads, -⟩
  · exact clean step (mem_components_of_mem_place before)
  · exact leads

theorem components_resolve_step (folder : String) {step : String} (noMark : '/' ∉ step.toList) :
    components (resolve folder step) = follow (place folder.toList) step.toList := by
  have relative : Relative step := fun start => noMark (List.mem_of_head? start)
  rw [components_resolve folder relative, steps, Text.fields_of_notMem noMark, List.foldl_cons,
    List.foldl_nil]

/-- Targets lead on from each other; from a path whose steps all lead on they lead to such a path,
however often they go up. Two dots go one folder up, at the top nowhere, and a step that leads on is
added. -/
theorem resolve_steps (folder : String) :
    (∀ first second, first ≠ "" → Relative first → Relative second →
      resolve folder (first ++ "/" ++ second) = resolve (resolve folder first) second) ∧
    ((∀ step ∈ components folder, Leads step) → ∀ target, Relative target →
      ∀ step ∈ components (resolve folder target), Leads step) ∧
    components (resolve folder "..") = (place folder.toList).dropLast ∧
    ∀ step : String, '/' ∉ step.toList → Leads step.toList →
      components (resolve folder step) = place folder.toList ++ [step.toList] := by
  refine ⟨fun _ _ => resolve_append folder, fun clean _ => leads_of_mem_components clean, ?_, ?_⟩
  · exact components_resolve_step folder (by decide)
  · intro step noMark leads
    rw [components_resolve_step folder noMark, follow_of_leads leads]

/-- A part that is found in three steps, one of them past the top of the package. -/
theorem resolve_steps_climbing :
    resolve "xl/worksheets" ("../a/./b" ++ "/" ++ "../../../..//c/") =
        resolve (resolve "xl/worksheets" "../a/./b") "../../../..//c/" ∧
      (∀ step ∈ components (resolve "xl/worksheets" "../../../..//c/"), Leads step) ∧
      components (resolve "xl/worksheets" "..") = ["xl".toList] ∧
      components (resolve "xl/worksheets" "...") =
        ["xl".toList, "worksheets".toList, "...".toList] := by
  have clean : ∀ step ∈ components "xl/worksheets", Leads step := by decide
  obtain ⟨composed, kept, up, on⟩ := resolve_steps "xl/worksheets"
  exact ⟨composed _ _ (by decide) (by decide) (by decide), kept clean _ (by decide), up,
    on "..." (by decide) (by decide)⟩

end PartPath

end SheetFill
