import SheetFill.Proofs.Reference.Letters

/-!
# A1 notation

An address in A1 notation is letters for its column and digits for its row, each after a `$` if it
is absolute, and the cell is on the sheet (`InNotation`). The notation is stated without the reader:
letters and digits are counted in base 26 and in base 10.

The reader takes the addresses of the notation with blanks at their ends, and nothing else but for
one (`read_iff_inNotation`). It reads the row as any number, and a number may have a plus sign. So
`A+1` is read as `A1`, though it is not in the notation (`not_inNotation_plus`).
-/

namespace SheetFill.CellAddress

open Text.Numeral (plusSign)

/-- A text is an address in A1 notation. In the notation itself there is no `sign` in front of the
digits. -/
inductive InNotation (sign : List Char) : List Char → CellAddress → Prop where
  /-- The letters and digits of a cell on the sheet. -/
  | intro {a : CellAddress} {letters digits : List Char}
      (column : letters ≠ []) (isLetter : ∀ c ∈ letters, c.isAlpha = true)
      (row : digits ≠ []) (isDigit : ∀ c ∈ digits, c.isDigit = true)
      (colIs : Nat.ofDigits 26 (letters.map Column.letterValue).reverse = a.col + 1)
      (colInside : a.col + 1 ≤ maxColumns)
      (rowIs : Nat.ofDigits 10 (digits.map Text.Numeral.value).reverse = a.row + 1)
      (rowInside : a.row + 1 ≤ maxRows) :
      InNotation sign (a.spelled letters (sign ++ digits)) a

/-- An address is spelled in the notation, or it is so but for a plus sign. -/
theorem inNotation_of_spelling {a : CellAddress} {letters number : List Char}
    (spelling : Spelling a letters number) :
    ∃ signed, InNotation (plusSign signed) (a.spelled letters number) a := by
  obtain ⟨-, -, colIs, -⟩ := Column.read_eq_ok_iff.mp spelling.column
  rw [String.toList_ofList, Column.value_eq_ofDigits] at colIs
  obtain ⟨signed, digits, rfl, read, -⟩ := Text.Numeral.unsigned?_eq_some_iff.mp spelling.row
  obtain ⟨row, isDigit, rowIs⟩ := Text.Numeral.read?_eq_some_iff.mp read
  rw [Text.Numeral.readFrom_eq_ofDigits] at rowIs
  exact ⟨signed, .intro spelling.nonempty spelling.isLetter row isDigit colIs spelling.onSheet.col
    rowIs spelling.onSheet.row⟩

/-- What is in the notation is a spelling, with a plus sign or without. -/
theorem InNotation.exists_spelling {signed : Bool} {cs : List Char} {a : CellAddress}
    (inNotation : InNotation (plusSign signed) cs a) :
    ∃ letters number, cs = a.spelled letters number ∧ Spelling a letters number := by
  obtain ⟨column, isLetter, row, isDigit, colIs, colInside, rowIs, rowInside⟩ := inNotation
  rename_i letters digits
  have colSmall : a.col + 1 ≤ Text.Numeral.maxWord32 := Nat.le_trans colInside (by decide)
  have rowSmall : a.row + 1 ≤ Text.Numeral.maxWord32 := Nat.le_trans rowInside (by decide)
  have found : Text.Numeral.read? digits = some (a.row + 1) :=
    Text.Numeral.read?_eq_some_iff.mpr
      ⟨row, isDigit, (Text.Numeral.readFrom_eq_ofDigits digits).trans rowIs⟩
  refine ⟨letters, plusSign signed ++ digits, rfl, column, isLetter, ?_, ?_, rowInside, colInside⟩
  · rw [Column.read_eq_ok_iff, String.toList_ofList, Column.value_eq_ofDigits]
    exact ⟨by simpa using column, isLetter, colIs, colSmall⟩
  · exact Text.Numeral.unsigned?_eq_some_iff.mpr ⟨signed, digits, rfl, found, rowSmall⟩

theorem readTrimmed_eq_ok_iff {cs : List Char} {a : CellAddress} :
    readTrimmed cs = .ok a ↔ ∃ signed, InNotation (plusSign signed) cs a := by
  constructor
  · intro h
    obtain ⟨letters, number, rfl, spelling⟩ := exists_of_readTrimmed h
    exact inNotation_of_spelling spelling
  · rintro ⟨signed, inNotation⟩
    obtain ⟨letters, number, rfl, spelling⟩ := inNotation.exists_spelling
    exact readTrimmed_spelled spelling

/-! ## Plus signs -/

theorem plus_notMem_mark (isAbsolute : Bool) : '+' ∉ mark isAbsolute := by
  cases isAbsolute with
  | false => decide
  | true => decide

/-- There is no plus sign in the notation. -/
theorem InNotation.plus_notMem {cs : List Char} {a : CellAddress}
    (inNotation : InNotation [] cs a) : '+' ∉ cs := by
  obtain ⟨-, isLetter, -, isDigit, -⟩ := inNotation
  intro mem
  rw [spelled, List.mem_append, List.mem_append, List.mem_append, List.nil_append] at mem
  rcases mem with mem | mem | mem | mem
  · exact plus_notMem_mark _ mem
  · exact absurd (isLetter '+' mem) (by decide)
  · exact plus_notMem_mark _ mem
  · exact absurd (isDigit '+' mem) (by decide)

/-- There is one if the number has a sign. -/
theorem InNotation.plus_mem {cs : List Char} {a : CellAddress}
    (inNotation : InNotation ['+'] cs a) : '+' ∈ cs := by
  obtain ⟨_⟩ := inNotation
  simp [spelled]

/-! ## What is read -/

/-- An address is read from its notation with blanks at the ends, and from the same with a plus sign
in front of the digits. Nothing else is read. So what is read from a text without a plus sign is
what its notation names. -/
theorem read_iff_inNotation (text : String) :
    (∀ a, read text = .ok a ↔
      InNotation [] (Text.trim text.toList) a ∨ InNotation ['+'] (Text.trim text.toList) a) ∧
      ('+' ∉ text.toList → ∀ a, read text = .ok a ↔ InNotation [] (Text.trim text.toList) a) := by
  have either : ∀ a, read text = .ok a ↔
      InNotation [] (Text.trim text.toList) a ∨ InNotation ['+'] (Text.trim text.toList) a := by
    intro a
    rw [read, readTrimmed_eq_ok_iff, Bool.exists_bool]
    rfl
  refine ⟨either, fun absent a => ?_⟩
  rw [either, or_iff_left]
  intro signed
  exact absent (Text.mem_of_mem_trim signed.plus_mem)

/-- The last cell of a sheet, with blanks around it, in letters of both cases and with a zero in
front of its row. -/
theorem read_iff_inNotation_lastCell :
    '+' ∉ "\t$xFd01048576 ".toList ∧
      read "\t$xFd01048576 " = .ok ⟨1048575, 16383, false, true⟩ ∧
      InNotation [] "$xFd01048576".toList ⟨1048575, 16383, false, true⟩ := by
  have absent : '+' ∉ "\t$xFd01048576 ".toList := by decide
  have found : read "\t$xFd01048576 " = .ok ⟨1048575, 16383, false, true⟩ := by decide +kernel
  exact ⟨absent, found, ((read_iff_inNotation _).2 absent _).mp found⟩

/-- The row of an address is read with a plus sign, which the notation does not have. -/
theorem not_inNotation_plus :
    read "A+1" = .ok (relative 0 0) ∧ ∀ a, ¬ InNotation [] (Text.trim "A+1".toList) a :=
  ⟨by decide +kernel, fun _ inNotation => inNotation.plus_notMem (by decide)⟩

end SheetFill.CellAddress
