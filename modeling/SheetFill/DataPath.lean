import SheetFill.Text.Blank
import SheetFill.Text.Numeral

/-!
# Paths into the data

The body of a placeholder is a path into the data, such as `people[0].name` or `table:rows.total`. A
path is a step and then any number of steps behind a point or in brackets. A bare step is a run of
characters other than points and brackets. Brackets hold a quoted key, in which a backslash takes
the next character as it is, or a bare text without quotes. A bare step of digits is an index if it
fits in 64 bits. Reading never fails: a body that is no path is one key, which holds all of it.
-/

namespace SheetFill

/-- One step of a path. -/
inductive PathStep where
  /-- The field of a mapping. -/
  | key (name : String)
  /-- A place in a sequence, from zero. -/
  | index (place : Nat)
deriving DecidableEq

/-- A path into the data, as the body of a placeholder gives it. -/
structure DataPath where
  /-- Whether the elements of a sequence go to rows of their own. -/
  table : Bool
  /-- The steps, first one first. -/
  steps : List PathStep
deriving DecidableEq

namespace PathStep

/-- The step that a bare text is. -/
def ofBare (cs : List Char) : PathStep :=
  match (Text.Numeral.read? cs).filter (· ≤ Text.Numeral.maxWord64) with
  | some n => .index n
  | none => .key (String.ofList cs)

/-- A step as it stands at the start of a path. -/
def text : PathStep → String
  | .key name => name
  | .index place => "[" ++ Text.Numeral.text place ++ "]"

end PathStep

namespace DataPath

/-- What stands in front of a path whose elements go to rows of their own. -/
def tableMark : String := "table:"

/-- Whether a character may stand in a bare step. -/
def isBare (c : Char) : Bool := c != '.' && c != '[' && c != ']'

/-- Whether a character may stand in a bare text in brackets. -/
def isInner (c : Char) : Bool := c != '[' && c != ']' && c != '"' && c != '\''

/-- The rest of a key that `mark` ends, and what follows it. -/
def closeKey? (mark : Char) : List Char → Option (List Char × List Char)
  | [] => none
  | '\\' :: [] => none
  | '\\' :: c :: cs => (closeKey? mark cs).map fun (key, rest) => (c :: key, rest)
  | c :: cs =>
      if c = mark then some ([], cs)
      else (closeKey? mark cs).map fun (key, rest) => (c :: key, rest)

/-- The rest of a text that starts with a closing bracket. -/
def closeBracket? : List Char → Option (List Char)
  | ']' :: cs => some cs
  | _ => none

/-- The step in brackets, after its opening bracket, and what follows the closing one. -/
def bracket? (cs : List Char) : Option (PathStep × List Char) :=
  match Text.trimStart cs with
  | [] => none
  | c :: inside =>
      if c = '"' ∨ c = '\'' then do
        let (key, rest) ← closeKey? c inside
        let rest ← closeBracket? (Text.trimStart rest)
        some (.key (String.ofList key), rest)
      else
        let bare := Text.trimEnd ((c :: inside).takeWhile isInner)
        if bare.isEmpty then none
        else (closeBracket? ((c :: inside).dropWhile isInner)).map fun rest => (.ofBare bare, rest)

/-- The bare step at the start of a text, and what follows it. -/
def bare? (cs : List Char) : Option (PathStep × List Char) :=
  let name := cs.takeWhile isBare
  if name.isEmpty then none else some (.ofBare name, cs.dropWhile isBare)

theorem length_of_closeKey? {mark : Char} {cs key rest : List Char}
    (h : closeKey? mark cs = some (key, rest)) : rest.length < cs.length := by
  fun_induction closeKey? mark cs generalizing key with
  | case1 => simp at h
  | case2 => simp at h
  | case3 c cs ih =>
      obtain ⟨⟨inner, after⟩, found, eq⟩ := Option.map_eq_some_iff.mp h
      simp only [Prod.mk.injEq] at eq
      have := ih (eq.2 ▸ found)
      simp only [List.length_cons]
      omega
  | case4 cs _ _ =>
      simp only [Option.some.injEq, Prod.mk.injEq] at h
      simp [h.2]
  | case5 c cs _ _ _ ih =>
      obtain ⟨⟨inner, after⟩, found, eq⟩ := Option.map_eq_some_iff.mp h
      simp only [Prod.mk.injEq] at eq
      have := ih (eq.2 ▸ found)
      simp only [List.length_cons]
      omega

theorem length_of_closeBracket? {cs rest : List Char} (h : closeBracket? cs = some rest) :
    rest.length < cs.length := by
  unfold closeBracket? at h
  split at h
  · simp only [Option.some.injEq] at h
    simp [h]
  · simp at h

theorem length_of_bracket? {cs rest : List Char} {step : PathStep}
    (h : bracket? cs = some (step, rest)) : rest.length < cs.length := by
  unfold bracket? at h
  have trimmed : (Text.trimStart cs).length ≤ cs.length := (List.dropWhile_suffix _).length_le
  split at h
  · simp at h
  · rename_i c inside eq
    rw [eq] at trimmed
    split at h
    · obtain ⟨⟨key, after⟩, found, h⟩ := Option.bind_eq_some_iff.mp h
      obtain ⟨last, closed, h⟩ := Option.bind_eq_some_iff.mp h
      simp only [Option.some.injEq, Prod.mk.injEq] at h
      have inner := length_of_closeKey? found
      have outer := length_of_closeBracket? closed
      have between : (Text.trimStart after).length ≤ after.length :=
        (List.dropWhile_suffix _).length_le
      simp only [List.length_cons] at trimmed
      rw [← h.2]
      omega
    · simp only at h
      split at h
      · simp at h
      · obtain ⟨last, closed, h⟩ := Option.map_eq_some_iff.mp h
        simp only [Prod.mk.injEq] at h
        have outer := length_of_closeBracket? closed
        have between := (List.dropWhile_suffix isInner (l := c :: inside)).length_le
        rw [← h.2]
        omega

theorem length_of_bare? {cs rest : List Char} {step : PathStep}
    (h : bare? cs = some (step, rest)) : rest.length ≤ cs.length := by
  unfold bare? at h
  simp only at h
  split at h
  · simp at h
  · simp only [Option.some.injEq, Prod.mk.injEq] at h
    rw [← h.2]
    exact (List.dropWhile_suffix _).length_le

/-- The steps after the first one. -/
def steps? : List Char → Option (List PathStep)
  | [] => some []
  | c :: cs =>
      if c = '.' then
        match _found : bare? cs with
        | some (step, rest) => (steps? rest).map (step :: ·)
        | none => none
      else if c = '[' then
        match _found : bracket? cs with
        | some (step, rest) => (steps? rest).map (step :: ·)
        | none => none
      else none
termination_by cs => cs.length
decreasing_by
  · exact Nat.lt_succ_of_le (length_of_bare? _found)
  · exact Nat.lt_succ_of_lt (length_of_bracket? _found)

/-- The steps of a path, if the text is one. -/
def path? (cs : List Char) : Option (List PathStep) := do
  let (first, rest) ← match cs with
    | '[' :: inside => bracket? inside
    | _ => bare? cs
  let more ← steps? rest
  some (first :: more)

/-- Read the body of a placeholder. -/
def read (body : String) : DataPath :=
  let cs := Text.trim body.toList
  let (table, path) := match Text.dropStart? tableMark.toList cs with
    | some rest => (true, Text.trim rest)
    | none => (false, cs)
  ⟨table, (path? path).getD [.key (String.ofList path)]⟩

/-- A step as it stands inside a path. -/
def laterText : PathStep → String
  | .key name => "." ++ name
  | step => step.text

/-- A path for a message. Keys are not quoted, so the text need not read back. -/
def text (a : DataPath) : String :=
  let steps := match a.steps with
    | [] => []
    | first :: more => first.text :: more.map laterText
  (if a.table then tableMark else "") ++ String.join steps

end DataPath

end SheetFill
