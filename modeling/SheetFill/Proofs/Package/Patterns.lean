import SheetFill.Package.Basic

/-!
# What a pattern stands for

A pattern stands for the paths that come out if each `*` gives way to a run of characters other than
`/` (`Denotes`). The runs are chosen all at once there, while the search of `fits` goes through the
pattern from the left, tries all rests for a `*` and stops at a `/`. It finds runs whenever there
are some (`fits_iff_denotes`), so the parts that are listed are those that the pattern stands for
(`Package.list_denotes`).
-/

namespace SheetFill

namespace Pattern

/-- A pattern with runs of characters in place of its stars, the first run for the first star. -/
def withRuns : List Char → List (List Char) → List Char
  | [], _ => []
  | c :: pattern, runs =>
      if c = '*' then runs.headD [] ++ withRuns pattern runs.tail else c :: withRuns pattern runs

/-- A path is a pattern with a run of characters other than `/` in place of each star. -/
def Denotes (pattern path : List Char) : Prop :=
  ∃ runs : List (List Char), runs.length = pattern.count '*' ∧ (∀ run ∈ runs, '/' ∉ run) ∧
    path = withRuns pattern runs

/-! ## From the left -/

variable {pattern path : List Char}

theorem denotes_nil_iff : Denotes [] path ↔ path = [] := by
  constructor
  · rintro ⟨runs, -, -, rfl⟩
    rfl
  · rintro rfl
    exact ⟨[], rfl, fun _ mem => absurd mem List.not_mem_nil, rfl⟩

/-- The first star takes a run, and the pattern behind it stands for the rest. -/
theorem denotes_star_iff : Denotes ('*' :: pattern) path ↔
    ∃ run rest, '/' ∉ run ∧ path = run ++ rest ∧ Denotes pattern rest := by
  constructor
  · rintro ⟨runs, length, inStep, rfl⟩
    rw [List.count_cons_self] at length
    obtain ⟨run, runs, rfl⟩ := List.exists_cons_of_length_eq_add_one length
    obtain ⟨first, others⟩ := List.forall_mem_cons.mp inStep
    refine ⟨run, withRuns pattern runs, first, ?_, runs, Nat.succ.inj length, others, rfl⟩
    rw [withRuns, if_pos rfl]
    rfl
  · rintro ⟨run, rest, first, rfl, runs, length, others, rfl⟩
    refine ⟨run :: runs, ?_, List.forall_mem_cons.mpr ⟨first, others⟩, ?_⟩
    · rw [List.count_cons_self, List.length_cons, length]
    · rw [withRuns, if_pos rfl]
      rfl

/-- Any other character stands for itself. -/
theorem denotes_cons_iff {c : Char} (literal : c ≠ '*') : Denotes (c :: pattern) path ↔
    ∃ rest, path = c :: rest ∧ Denotes pattern rest := by
  have stars : (c :: pattern).count '*' = pattern.count '*' := List.count_cons_of_ne literal
  constructor
  · rintro ⟨runs, length, inStep, rfl⟩
    rw [stars] at length
    refine ⟨withRuns pattern runs, ?_, runs, length, inStep, rfl⟩
    rw [withRuns, if_neg literal]
  · rintro ⟨rest, rfl, runs, length, inStep, rfl⟩
    refine ⟨runs, stars ▸ length, inStep, ?_⟩
    rw [withRuns, if_neg literal]

/-! ## The search -/

/-- The rests that are tried for a star are those behind a run of characters other than `/`. -/
theorem mem_rests_iff {cs rest : List Char} :
    rest ∈ rests cs ↔ ∃ run, '/' ∉ run ∧ cs = run ++ rest := by
  induction cs with
  | nil =>
      rw [rests, List.mem_singleton]
      constructor
      · rintro rfl
        exact ⟨[], List.not_mem_nil, rfl⟩
      · rintro ⟨run, -, split⟩
        exact (List.append_eq_nil_iff.mp split.symm).2
  | cons c cs ih =>
      rw [rests, List.mem_cons]
      constructor
      · rintro (rfl | later)
        · exact ⟨[], List.not_mem_nil, rfl⟩
        · split at later
          · cases later
          · rename_i other
            obtain ⟨run, inStep, rfl⟩ := ih.mp later
            refine ⟨c :: run, ?_, rfl⟩
            rw [List.mem_cons, not_or]
            exact ⟨Ne.symm other, inStep⟩
      · rintro ⟨run, inStep, split⟩
        cases run with
        | nil => exact .inl split.symm
        | cons d run =>
            obtain ⟨rfl, rfl⟩ := List.cons.inj split
            rw [List.mem_cons, not_or] at inStep
            rw [if_neg (Ne.symm inStep.1)]
            exact .inr (ih.mpr ⟨run, inStep.2, rfl⟩)

/-- A text fits a pattern exactly if the pattern stands for it, by induction on the pattern. -/
theorem fits_iff_denotes : fits pattern path = true ↔ Denotes pattern path := by
  induction pattern generalizing path with
  | nil => rw [fits, List.isEmpty_iff, denotes_nil_iff]
  | cons c pattern ih =>
      by_cases star : c = '*'
      · subst star
        rw [fits, List.any_eq_true, denotes_star_iff]
        constructor
        · rintro ⟨rest, tried, fit⟩
          obtain ⟨run, inStep, split⟩ := mem_rests_iff.mp tried
          exact ⟨run, rest, inStep, split, ih.mp fit⟩
        · rintro ⟨run, rest, inStep, split, denotes⟩
          exact ⟨rest, mem_rests_iff.mpr ⟨run, inStep, split⟩, ih.mpr denotes⟩
      · rw [denotes_cons_iff star]
        cases path with
        | nil => simp [fits]
        | cons d path =>
            have first : fits (c :: pattern) (d :: path) = (c == d && fits pattern path) := by
              rw [fits]
              exact star
            rw [first, Bool.and_eq_true, beq_iff_eq, ih]
            constructor
            · rintro ⟨rfl, denotes⟩
              exact ⟨path, rfl, denotes⟩
            · rintro ⟨rest, split, denotes⟩
              obtain ⟨rfl, rfl⟩ := List.cons.inj split
              exact ⟨rfl, denotes⟩

instance (pattern path : List Char) : Decidable (Denotes pattern path) :=
  decidable_of_iff _ fits_iff_denotes

example : Denotes "xl/*/é*.xml".toList "xl/sheets/é.xml".toList := by decide
example : ¬ Denotes "*é*.xml".toList "xl/é.xml".toList := by decide

end Pattern

/-- The paths that fit a pattern are those that the pattern stands for, however many stars it has.
Listed are the paths of the parts it stands for that are no folders, in the order of the
archive. -/
theorem Package.list_denotes (p : Package) (pattern : String) :
    (∀ path : String, Pattern.fits pattern.toList path.toList = true ↔
      Pattern.Denotes pattern.toList path.toList) ∧
      p.list pattern = (p.parts.filter fun part =>
        part.isFolder = false ∧ Pattern.Denotes pattern.toList part.path.toList).map Part.path := by
  refine ⟨fun path => Pattern.fits_iff_denotes, ?_⟩
  rw [Package.list]
  refine congrArg (List.map Part.path) (List.filter_congr fun part _ => ?_)
  rw [Bool.eq_iff_iff, Bool.and_eq_true, Bool.not_eq_true', decide_eq_true_iff,
    Pattern.fits_iff_denotes]

end SheetFill
