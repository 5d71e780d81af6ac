import Mathlib.Data.Sym.Sym2
import SheetFill.Proofs.Reference.Moves

/-!
# The marks of a range

A range is written with any two opposite corners. Its rows and columns are put in order, but each
`$` stays with the corner that it was written in, the first or the second one. So a `$` leaves its
row if the rows change places and only one of them has a `$`, and the same goes for columns. In all
other cases each row and each column keeps what it was written with (`marks_kept_iff`).
-/

namespace SheetFill

namespace CellRange

/-- A text is written with two corners. -/
inductive WrittenWith (text : String) : CellAddress → CellAddress → Prop where
  /-- Two addresses with a colon between them. -/
  | corners (first second : List Char) {a b : CellAddress}
      (split : text.toList = first ++ ':' :: second) (absent : ':' ∉ first)
      (one : CellAddress.read (String.ofList first) = .ok a)
      (two : CellAddress.read (String.ofList second) = .ok b) : WrittenWith text a b
  /-- One address, which is both corners. -/
  | cell {a : CellAddress} (one : CellAddress.read text = .ok a) : WrittenWith text a a

/-- The rows of two corners, each of them absolute or not, in either order. -/
def markedRows (a b : CellAddress) : Sym2 (Nat × Bool) :=
  s((a.row, a.rowAbsolute), (b.row, b.rowAbsolute))

/-- The columns of two corners, each of them absolute or not, in either order. -/
def markedCols (a b : CellAddress) : Sym2 (Nat × Bool) :=
  s((a.col, a.colAbsolute), (b.col, b.colAbsolute))

/-- The corners of a range have the marks of two addresses wherever they have their row or
column. -/
structure HasMarksOf (r : CellRange) (a b : CellAddress) : Prop where
  /-- A row is absolute if it is so in an address. -/
  row : ∀ corner ∈ [r.start, r.stop], ∀ written ∈ [a, b],
    corner.row = written.row → corner.rowAbsolute = written.rowAbsolute
  /-- A column is absolute if it is so in an address. -/
  col : ∀ corner ∈ [r.start, r.stop], ∀ written ∈ [a, b],
    corner.col = written.col → corner.colAbsolute = written.colAbsolute

/-! ## Coordinates in order -/

section Coordinates

variable {m n : Nat} {x y : Bool}

/-- Two coordinates are put in order while their marks stay where they are. Nothing is lost exactly
if they were in order or have the same mark. -/
theorem marked_sort_iff : s((min m n, x), (max m n, y)) = s((m, x), (n, y)) ↔ m ≤ n ∨ x = y := by
  rcases Nat.lt_or_ge n m with swapped | inOrder
  · rw [Nat.min_eq_right swapped.le, Nat.max_eq_left swapped.le, Sym2.eq_iff]
    have different : n ≠ m := swapped.ne
    simp only [Prod.mk.injEq, different, true_and, false_and, false_or]
    constructor
    · rintro ⟨same, -⟩
      exact .inr same
    · rintro (inOrder | same)
      · exact absurd inOrder (Nat.not_le.mpr swapped)
      · exact ⟨same, same.symm⟩
  · rw [Nat.min_eq_left inOrder, Nat.max_eq_right inOrder]
    exact ⟨fun _ => .inl inOrder, fun _ => rfl⟩

/-- The same for different coordinates, seen from each of them. -/
theorem marks_sort_iff (different : m ≠ n) :
    (min m n = n → x = y) ∧ (max m n = m → y = x) ↔ m ≤ n ∨ x = y := by
  rcases Nat.lt_or_ge n m with swapped | inOrder
  · rw [Nat.min_eq_right swapped.le, Nat.max_eq_left swapped.le]
    constructor
    · rintro ⟨same, -⟩
      exact .inr (same rfl)
    · rintro (inOrder | same)
      · exact absurd inOrder (Nat.not_le.mpr swapped)
      · exact ⟨fun _ => same, fun _ => same.symm⟩
  · rw [Nat.min_eq_left inOrder, Nat.max_eq_right inOrder]
    exact ⟨fun _ => .inl inOrder,
      fun _ => ⟨fun same => absurd same different, fun same => absurd same.symm different⟩⟩

end Coordinates

/-! ## Corners in order -/

variable {a b : CellAddress}

theorem sort_eq (m n : Nat) : (if m ≤ n then (m, n) else (n, m)) = (min m n, max m n) := by
  split
  · rename_i inOrder
    rw [Nat.min_eq_left inOrder, Nat.max_eq_right inOrder]
  · rename_i swapped
    rw [Nat.min_eq_right (Nat.le_of_not_le swapped), Nat.max_eq_left (Nat.le_of_not_le swapped)]

/-- Rows and columns are put in order, and the marks stay where they are. -/
theorem between_eq (first : a.OnSheet) (second : b.OnSheet) :
    between a b = ⟨⟨min a.row b.row, min a.col b.col, a.rowAbsolute, a.colAbsolute⟩,
      ⟨max a.row b.row, max a.col b.col, b.rowAbsolute, b.colAbsolute⟩, false⟩ := by
  rw [between, sort_eq, sort_eq]
  dsimp only
  rw [CellAddress.relocate_of_inside (Nat.lt_of_le_of_lt (Nat.min_le_left ..) first.row)
      (Nat.lt_of_le_of_lt (Nat.min_le_left ..) first.col),
    CellAddress.relocate_of_inside (Nat.max_lt.mpr ⟨first.row, second.row⟩)
      (Nat.max_lt.mpr ⟨first.col, second.col⟩)]

theorem markedRows_between_iff (first : a.OnSheet) (second : b.OnSheet) :
    markedRows (between a b).start (between a b).stop = markedRows a b ↔
      a.row ≤ b.row ∨ a.rowAbsolute = b.rowAbsolute := by
  rw [between_eq first second]
  exact marked_sort_iff

theorem markedCols_between_iff (first : a.OnSheet) (second : b.OnSheet) :
    markedCols (between a b).start (between a b).stop = markedCols a b ↔
      a.col ≤ b.col ∨ a.colAbsolute = b.colAbsolute := by
  rw [between_eq first second]
  exact marked_sort_iff

theorem hasMarksOf_between_iff (first : a.OnSheet) (second : b.OnSheet) (rows : a.row ≠ b.row)
    (cols : a.col ≠ b.col) : (between a b).HasMarksOf a b ↔
      (a.row ≤ b.row ∨ a.rowAbsolute = b.rowAbsolute) ∧
        (a.col ≤ b.col ∨ a.colAbsolute = b.colAbsolute) := by
  have fields (r : CellRange) : r.HasMarksOf a b ↔ _ ∧ _ :=
    ⟨fun h => ⟨h.row, h.col⟩, fun h => ⟨h.1, h.2⟩⟩
  rw [fields, between_eq first second]
  simp only [List.forall_mem_cons, List.not_mem_nil, false_implies, implies_true, and_true,
    true_and]
  exact and_congr (marks_sort_iff rows) (marks_sort_iff cols)

/-! ## Texts -/

theorem colon_notMem_of_readTrimmed {cs : List Char} (one : CellAddress.readTrimmed cs = .ok a) :
    ':' ∉ cs := by
  obtain ⟨letters, number, rfl, spelling⟩ := CellAddress.exists_of_readTrimmed one
  obtain ⟨signed, digits, rfl, read, -⟩ := Text.Numeral.unsigned?_eq_some_iff.mp spelling.row
  have mark : ∀ isAbsolute, ':' ∉ CellAddress.mark isAbsolute := by decide
  have sign : ∀ signed, ':' ∉ Text.Numeral.plusSign signed := by decide
  intro mem
  simp only [CellAddress.spelled, List.mem_append, mark, sign, false_or] at mem
  rcases mem with mem | mem
  · exact absurd (spelling.isLetter ':' mem) (by decide)
  · exact absurd ((Text.Numeral.read?_eq_some_iff.mp read).2.1 ':' mem) (by decide)

theorem exists_of_splitFirst? {mark : Char} {cs first second : List Char}
    (split : Text.splitFirst? mark cs = some (first, second)) :
    cs = first ++ mark :: second ∧ mark ∉ first := by
  induction cs generalizing first with
  | nil => cases split
  | cons c cs ih =>
      rw [Text.splitFirst?] at split
      split at split
      · rename_i same
        cases split
        exact ⟨by rw [same]; rfl, List.not_mem_nil⟩
      · rename_i different
        obtain ⟨⟨inner, rest⟩, found, same⟩ := Option.map_eq_some_iff.mp split
        cases same
        obtain ⟨rfl, absent⟩ := ih found
        refine ⟨rfl, ?_⟩
        rw [List.mem_cons, not_or]
        exact ⟨Ne.symm different, absent⟩

/-- A range is read only from a text that is written with two corners. -/
theorem exists_writtenWith_of_read {text : String} {r : CellRange} (found : read text = .ok r) :
    ∃ a b, WrittenWith text a b := by
  rw [read, readChars] at found
  split at found
  · rename_i first second split
    split at found
    · rename_i a b one two
      cases found
      refine ⟨a, b, ?_⟩
      -- The blanks at the ends of the text belong to the first and the second address.
      obtain ⟨before, after, whole, blank, blank'⟩ := Text.exists_of_trim text.toList
      obtain ⟨inside, absent⟩ := exists_of_splitFirst? split
      refine .corners (before ++ first) (second ++ after) ?_ ?_ ?_ ?_
      · rw [whole, inside]
        simp only [List.append_assoc, List.cons_append]
      · rw [List.mem_append, not_or]
        exact ⟨fun mem => absurd (blank ':' mem) (by decide), absent⟩
      · rw [CellAddress.read, String.toList_ofList, Text.trim_blanks_append blank, one]
      · rw [CellAddress.read, String.toList_ofList, Text.trim_append_blanks blank', two]
    · cases found
  · rw [Text.trim_trim] at found
    split at found
    · rename_i a one
      exact ⟨a, a, .cell one⟩
    · cases found

/-- The text of a range is written with the corners of the range. -/
theorem writtenWith_text {r : CellRange} (wellFormed : r.WellFormed) :
    WrittenWith r.text r.start r.stop := by
  obtain ⟨start, stop, single⟩ := r
  by_cases one : single = true ∧ start = stop
  · obtain ⟨rfl, rfl⟩ := one
    have written : (⟨start, start, true⟩ : CellRange).text = start.text := by
      simp [text, chars, CellAddress.text]
    rw [written]
    exact .cell (CellAddress.read_text wellFormed.start)
  · have written : (⟨start, stop, single⟩ : CellRange).chars = start.chars ++ ':' :: stop.chars := by
      rw [chars, if_neg]
      simpa using one
    refine .corners start.chars stop.chars ?_
      (fun mem => (CellAddress.of_mem_chars mem).2 rfl)
      (CellAddress.read_text wellFormed.start) (CellAddress.read_text wellFormed.stop)
    rw [text, String.toList_ofList, written]

/-- A range is read from every text that is written with two corners, whatever blanks stand around
them. -/
theorem read_of_writtenWith {text : String} (written : WrittenWith text a b) :
    a.OnSheet ∧ b.OnSheet ∧ ∃ r, read text = .ok r ∧ (r = between a b ∨ a = b ∧ r = ofCell a) := by
  cases written with
  | corners _ _ split absent one two =>
      rename_i first second
      rw [CellAddress.read, String.toList_ofList] at one two
      refine ⟨CellAddress.onSheet_of_readTrimmed one, CellAddress.onSheet_of_readTrimmed two,
        between a b, ?_, .inl rfl⟩
      have trimmed : Text.trim text.toList =
          Text.trimStart first ++ ':' :: Text.trimEnd second := by
        rw [split]
        exact Text.trim_append_cons (by decide) first second
      have absent' : ':' ∉ Text.trimStart first :=
        fun mem => absent ((List.dropWhile_suffix Text.isBlank).mem mem)
      rw [read, readChars, trimmed, splitFirst?_append absent']
      dsimp only
      rw [Text.trim_trimStart, Text.trim_trimEnd, one, two]
  | cell one =>
      rw [CellAddress.read] at one
      have onSheet := CellAddress.onSheet_of_readTrimmed one
      refine ⟨onSheet, onSheet, ofCell a, ?_, .inr ⟨rfl, rfl⟩⟩
      rw [read, readChars, splitFirst?_of_notMem (colon_notMem_of_readTrimmed one)]
      dsimp only
      rw [Text.trim_trim, one]

/-- Each `$` stays with the first or the second corner. So a range has the marks of the corners that
it was put between, in rows and columns that are different, exactly if its rows were in order or
have the same mark, and its columns too. A text that is read as a range is written with two corners,
and the text of the range names the same rows, absolute or not, exactly if the same holds of the
rows of these corners; and likewise the same columns. -/
theorem marks_kept_iff (a b : CellAddress) (text : String) :
    (a.OnSheet → b.OnSheet → a.row ≠ b.row → a.col ≠ b.col →
      ((between a b).HasMarksOf a b ↔ (a.row ≤ b.row ∨ a.rowAbsolute = b.rowAbsolute) ∧
        (a.col ≤ b.col ∨ a.colAbsolute = b.colAbsolute))) ∧
      ((∃ r, read text = .ok r) ↔ ∃ a b, WrittenWith text a b) ∧
      ∀ r, WrittenWith text a b → read text = .ok r →
        WrittenWith r.text r.start r.stop ∧
          (markedRows r.start r.stop = markedRows a b ↔
            a.row ≤ b.row ∨ a.rowAbsolute = b.rowAbsolute) ∧
          (markedCols r.start r.stop = markedCols a b ↔
            a.col ≤ b.col ∨ a.colAbsolute = b.colAbsolute) := by
  refine ⟨hasMarksOf_between_iff, ⟨?_, ?_⟩, ?_⟩
  · rintro ⟨r, found⟩
    exact exists_writtenWith_of_read found
  · rintro ⟨a, b, written⟩
    obtain ⟨-, -, r, found, -⟩ := read_of_writtenWith written
    exact ⟨r, found⟩
  · intro r written found
    refine ⟨writtenWith_text (wellFormed_of_read found), ?_⟩
    obtain ⟨first, second, same, found', here⟩ := read_of_writtenWith written
    cases found.symm.trans found'
    rcases here with rfl | ⟨rfl, rfl⟩
    · exact ⟨markedRows_between_iff first second, markedCols_between_iff first second⟩
    · exact ⟨⟨fun _ => .inl (Nat.le_refl _), fun _ => rfl⟩, fun _ => .inl (Nat.le_refl _),
        fun _ => rfl⟩

/-- A range that is written from its lower left corner. Both rows are absolute. -/
theorem marks_kept_iff_lowerLeft :
    (between ⟨4, 0, true, true⟩ ⟨0, 2, true, false⟩).HasMarksOf
        ⟨4, 0, true, true⟩ ⟨0, 2, true, false⟩ ∧
      (∃ r, read " $A$5:C$1" = .ok r) ∧
      WrittenWith "$A$1:C$5" ⟨0, 0, true, true⟩ ⟨4, 2, true, false⟩ ∧
      markedRows ⟨0, 0, true, true⟩ ⟨4, 2, true, false⟩ =
        markedRows ⟨4, 0, true, true⟩ ⟨0, 2, true, false⟩ := by
  have one : CellAddress.read " $A$5" = .ok ⟨4, 0, true, true⟩ := by decide +kernel
  have two : CellAddress.read "C$1" = .ok ⟨0, 2, true, false⟩ := by decide +kernel
  have written : WrittenWith " $A$5:C$1" ⟨4, 0, true, true⟩ ⟨0, 2, true, false⟩ := by
    refine .corners " $A$5".toList "C$1".toList rfl (by decide) ?_ ?_
    · rw [String.ofList_toList, one]
    · rw [String.ofList_toList, two]
  have found : read " $A$5:C$1" =
      .ok ⟨⟨0, 0, true, true⟩, ⟨4, 2, true, false⟩, false⟩ := by decide +kernel
  have shown : (⟨⟨0, 0, true, true⟩, ⟨4, 2, true, false⟩, false⟩ : CellRange).text = "$A$1:C$5" := by
    decide +kernel
  obtain ⟨between, readable, both⟩ :=
    marks_kept_iff ⟨4, 0, true, true⟩ ⟨0, 2, true, false⟩ " $A$5:C$1"
  obtain ⟨again, rows, -⟩ := both _ written found
  refine ⟨?_, readable.mpr ⟨_, _, written⟩, shown ▸ again, rows.mpr (.inr rfl)⟩
  exact (between (by decide) (by decide) (by decide) (by decide)).mpr ⟨.inr rfl, .inl (by decide)⟩

/-- The `$` of the second row of `A$2:B1` is one of the first row in the range that is read. -/
theorem marks_not_kept :
    WrittenWith "A$2:B1" ⟨1, 0, true, false⟩ ⟨0, 1, false, false⟩ ∧
      read "A$2:B1" = .ok ⟨⟨0, 0, true, false⟩, ⟨1, 1, false, false⟩, false⟩ ∧
      ¬ (between ⟨1, 0, true, false⟩ ⟨0, 1, false, false⟩).HasMarksOf
        ⟨1, 0, true, false⟩ ⟨0, 1, false, false⟩ ∧
      WrittenWith "A$1:B2" ⟨0, 0, true, false⟩ ⟨1, 1, false, false⟩ ∧
      markedRows ⟨0, 0, true, false⟩ ⟨1, 1, false, false⟩ ≠
        markedRows ⟨1, 0, true, false⟩ ⟨0, 1, false, false⟩ := by
  have one : CellAddress.read "A$2" = .ok ⟨1, 0, true, false⟩ := by decide +kernel
  have two : CellAddress.read "B1" = .ok ⟨0, 1, false, false⟩ := by decide +kernel
  have found : read "A$2:B1" = .ok ⟨⟨0, 0, true, false⟩, ⟨1, 1, false, false⟩, false⟩ := by
    decide +kernel
  have shown : (⟨⟨0, 0, true, false⟩, ⟨1, 1, false, false⟩, false⟩ : CellRange).text = "A$1:B2" := by
    decide +kernel
  refine ⟨.corners "A$2".toList "B1".toList rfl (by decide) ?_ ?_, found,
    fun keeps => ?_, shown ▸ writtenWith_text (wellFormed_of_read found), ?_⟩
  · rw [String.ofList_toList, one]
  · rw [String.ofList_toList, two]
  · have flag : true = false := keeps.row _ List.mem_cons_self ⟨0, 1, false, false⟩
      (List.mem_cons_of_mem _ List.mem_cons_self) rfl
    cases flag
  · decide

end CellRange

end SheetFill
