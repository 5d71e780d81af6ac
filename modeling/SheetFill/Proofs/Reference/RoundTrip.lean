import SheetFill.Proofs.Text.Numerals
import SheetFill.Proofs.Xml.Unescape
import SheetFill.Reference.Range

/-!
# References are read back

Column letters are digits from one to twenty-six, so a column is read from its letters as a number
is from its digits. What is read as an address is letters and a row number, each after a `$` or none
(`readTrimmed_spelled`, `exists_of_readTrimmed`). An address on a sheet is read back from its text
with its `$`, and so is a range whose corners are in order (`CellRange.read_text`). Reading gives
such ranges only (`wellFormed_of_read`), and so does moving one.
-/

namespace SheetFill

open Text (isBlank)

/-! ## Columns -/

namespace Column

open Text.Numeral (maxWord32)

theorem letter_spec : ∀ k < 26, (Char.ofNat (65 + k)).isAlpha = true ∧
    letterValue (Char.ofNat (65 + k)) = k + 1 ∧ isBlank (Char.ofNat (65 + k)) = false ∧
      Char.ofNat (65 + k) ≠ ':' ∧ Char.ofNat (65 + k) ≠ '$' := by
  decide

theorem smallLetter_spec : ∀ k < 26,
    letterValue (Char.ofNat (97 + k)) = k + 1 ∧
      (Char.ofNat (97 + k)).toUpper = Char.ofNat (65 + k) ∧
      (Char.ofNat (65 + k)).toUpper = Char.ofNat (65 + k) := by
  decide

/-- A letter is a capital or a small one. -/
theorem exists_of_isAlpha {c : Char} (isLetter : c.isAlpha = true) :
    ∃ k < 26, c = Char.ofNat (65 + k) ∨ c = Char.ofNat (97 + k) := by
  rcases Bool.or_eq_true_iff.mp isLetter with capital | small
  · obtain ⟨from65, upTo90⟩ : 65 ≤ c.toNat ∧ c.toNat ≤ 90 := of_decide_eq_true capital
    refine ⟨c.toNat - 65, by omega, .inl ?_⟩
    rw [Nat.add_sub_cancel' from65, Char.ofNat_toNat]
  · obtain ⟨low, high⟩ := Bool.and_eq_true_iff.mp small
    have from97 : 97 ≤ c.toNat := of_decide_eq_true low
    have upTo122 : c.toNat ≤ 122 := of_decide_eq_true high
    refine ⟨c.toNat - 97, by omega, .inr ?_⟩
    rw [Nat.add_sub_cancel' from97, Char.ofNat_toNat]

/-- A letter is a digit from one to 26, and its capital is the letter of this digit. -/
theorem letterValue_spec {c : Char} (isLetter : c.isAlpha = true) :
    1 ≤ letterValue c ∧ letterValue c ≤ 26 ∧ c.toUpper = Char.ofNat (64 + letterValue c) := by
  obtain ⟨k, small, rfl | rfl⟩ := exists_of_isAlpha isLetter
  · obtain ⟨-, -, capital⟩ := smallLetter_spec k small
    obtain ⟨-, value, -⟩ := letter_spec k small
    rw [value, capital, ← Nat.add_assoc, Nat.add_right_comm]
    exact ⟨Nat.le_add_left .., small, rfl⟩
  · obtain ⟨value, capital, -⟩ := smallLetter_spec k small
    rw [value, capital, ← Nat.add_assoc, Nat.add_right_comm]
    exact ⟨Nat.le_add_left .., small, rfl⟩

theorem valueFrom_append (n : Nat) (cs ds : List Char) :
    valueFrom n (cs ++ ds) = valueFrom (valueFrom n cs) ds := List.foldl_append

theorem le_valueFrom (n : Nat) (cs : List Char) : n ≤ valueFrom n cs := by
  induction cs generalizing n with
  | nil => exact Nat.le_refl n
  | cons c cs ih =>
      calc n ≤ n * 26 + letterValue c := by omega
        _ ≤ valueFrom n (c :: cs) := ih _

/-- Letters are read as their number, unless they are something else or the number is too large. No
number gets smaller again, so it does not matter when a large one is noticed. -/
theorem readFrom_eq_ok_iff {whole : String} {n m : Nat} {cs : List Char} (small : n ≤ maxWord32) :
    readFrom whole n cs = .ok m ↔
      (∀ c ∈ cs, c.isAlpha = true) ∧ valueFrom n cs = m ∧ m ≤ maxWord32 := by
  induction cs generalizing n with
  | nil =>
      rw [readFrom, Except.ok.injEq]
      constructor
      · rintro rfl
        exact ⟨fun c mem => (by cases mem), rfl, small⟩
      · exact fun h => h.2.1
  | cons c cs ih =>
      rw [readFrom, List.forall_mem_cons]
      split
      · rename_i isLetter
        have rest : valueFrom n (c :: cs) = valueFrom (n * 26 + letterValue c) cs := rfl
        dsimp only
        split
        · rename_i large
          constructor
          · intro h
            cases h
          · rintro ⟨-, rfl, fits⟩
            have grows := le_valueFrom (n * 26 + letterValue c) cs
            rw [rest] at fits
            omega
        · rename_i fits
          rw [ih (Nat.le_of_not_lt fits), rest]
          exact ⟨fun h => ⟨⟨isLetter, h.1⟩, h.2⟩, fun h => ⟨h.1.2, h.2⟩⟩
      · rename_i other
        exact ⟨fun h => (by cases h), fun h => absurd h.1.1 other⟩

theorem read_eq_ok_iff {text : String} {n : Nat} :
    read text = .ok n ↔ text ≠ "" ∧ (∀ c ∈ text.toList, c.isAlpha = true) ∧
      value text.toList = n ∧ n ≤ maxWord32 := by
  rw [read]
  split
  · rename_i empty
    rw [String.isEmpty_iff] at empty
    exact ⟨fun h => (by cases h), fun h => absurd empty h.1⟩
  · rename_i nonempty
    rw [String.isEmpty_iff] at nonempty
    rw [readFrom_eq_ok_iff (Nat.zero_le _)]
    exact ⟨fun h => ⟨nonempty, h⟩, fun h => h.2⟩

theorem letters_of_ne_zero {n : Nat} (positive : n ≠ 0) :
    letters n = letters ((n - 1) / 26) ++ [Char.ofNat (65 + (n - 1) % 26)] := by
  rw [letters, if_neg positive]

theorem letters_ne_nil {n : Nat} (positive : n ≠ 0) : letters n ≠ [] := by
  rw [letters_of_ne_zero positive]
  exact List.append_ne_nil_of_right_ne_nil _ (List.cons_ne_nil _ _)

theorem exists_letter_of_mem_letters {n : Nat} {c : Char} (mem : c ∈ letters n) :
    ∃ k < 26, c = Char.ofNat (65 + k) := by
  induction n using Nat.strongRecOn with
  | ind n ih =>
      by_cases zero : n = 0
      · subst zero
        rw [letters] at mem
        cases mem
      · rw [letters_of_ne_zero zero] at mem
        rcases List.mem_append.mp mem with mem | mem
        · exact ih ((n - 1) / 26) (by omega) mem
        · exact ⟨(n - 1) % 26, Nat.mod_lt _ (by decide), List.mem_singleton.mp mem⟩

theorem isAlpha_of_mem_letters {n : Nat} {c : Char} (mem : c ∈ letters n) : c.isAlpha = true := by
  obtain ⟨k, small, rfl⟩ := exists_letter_of_mem_letters mem
  exact (letter_spec k small).1

/-- The letters of a number stand for it. -/
theorem value_letters (n : Nat) : value (letters n) = n := by
  induction n using Nat.strongRecOn with
  | ind n ih =>
      by_cases zero : n = 0
      · subst zero
        rw [letters, if_pos rfl]
        rfl
      · obtain ⟨-, last, -⟩ := letter_spec ((n - 1) % 26) (Nat.mod_lt _ (by decide))
        have front : valueFrom 0 (letters ((n - 1) / 26)) = (n - 1) / 26 := ih _ (by omega)
        rw [value, letters_of_ne_zero zero, valueFrom_append, front]
        show (n - 1) / 26 * 26 + letterValue (Char.ofNat (65 + (n - 1) % 26)) = n
        omega

theorem read_letters {n : Nat} (positive : n ≠ 0) (small : n ≤ maxWord32) :
    read (String.ofList (letters n)) = .ok n := by
  rw [read_eq_ok_iff, String.toList_ofList]
  refine ⟨?_, fun c => isAlpha_of_mem_letters, value_letters n, small⟩
  simpa using letters_ne_nil positive

theorem pos_of_read {text : String} {n : Nat} (h : read text = .ok n) : 1 ≤ n := by
  obtain ⟨nonempty, isLetter, rfl, -⟩ := read_eq_ok_iff.mp h
  have some : text.toList ≠ [] := by simpa using nonempty
  obtain ⟨c, cs, start⟩ := List.exists_cons_of_ne_nil some
  rw [start] at isLetter ⊢
  calc 1 ≤ letterValue c := (letterValue_spec (isLetter c List.mem_cons_self)).1
    _ = 0 * 26 + letterValue c := by omega
    _ ≤ value (c :: cs) := le_valueFrom _ cs

end Column

/-! ## Addresses -/

namespace Text.Numeral

theorem isDigit_letter : ∀ k < 26,
    (Char.ofNat (65 + k)).isDigit = false ∧ (Char.ofNat (97 + k)).isDigit = false := by
  decide

/-- A digit is no letter and no mark. -/
theorem isAlpha_of_isDigit {c : Char} (isDigit : c.isDigit = true) :
    c.isAlpha = false ∧ c ≠ '$' := by
  constructor
  · rw [Bool.eq_false_iff]
    intro isLetter
    obtain ⟨k, small, rfl | rfl⟩ := Column.exists_of_isAlpha isLetter
    · exact absurd isDigit (Bool.eq_false_iff.mp (isDigit_letter k small).1)
    · exact absurd isDigit (Bool.eq_false_iff.mp (isDigit_letter k small).2)
  · rintro rfl
    exact absurd isDigit (by decide)

/-- A number that is read starts with no letter and no mark. -/
theorem exists_of_unsigned? {last n : Nat} {cs : List Char} (read : unsigned? last cs = some n) :
    ∃ c rest, cs = c :: rest ∧ c.isAlpha = false ∧ c ≠ '$' := by
  obtain ⟨signed, digits, rfl, number, -⟩ := unsigned?_eq_some_iff.mp read
  cases signed with
  | true => exact ⟨'+', digits, rfl, by decide, by decide⟩
  | false =>
      obtain ⟨nonempty, isDigit, -⟩ := read?_eq_some_iff.mp number
      obtain ⟨c, rest, rfl⟩ := List.exists_cons_of_ne_nil nonempty
      exact ⟨c, rest, rfl, isAlpha_of_isDigit (isDigit c List.mem_cons_self)⟩

end Text.Numeral

namespace CellAddress

/-- The address of a cell of a sheet. -/
structure OnSheet (a : CellAddress) : Prop where
  /-- The row is one of a sheet. -/
  row : a.row < maxRows
  /-- The column is one of a sheet. -/
  col : a.col < maxColumns

instance (a : CellAddress) : Decidable a.OnSheet :=
  decidable_of_iff (a.row < maxRows ∧ a.col < maxColumns) ⟨fun h => ⟨h.1, h.2⟩, fun h => ⟨h.1, h.2⟩⟩

theorem takeMark_mark (isAbsolute : Bool) {cs : List Char} (noMark : ∀ c ∈ cs.head?, c ≠ '$') :
    takeMark (mark isAbsolute ++ cs) = (isAbsolute, cs) := by
  cases isAbsolute with
  | true => rfl
  | false =>
      cases cs with
      | nil => rfl
      | cons c cs =>
          show takeMark (c :: cs) = _
          rw [takeMark]
          intro rest same
          exact noMark c rfl (List.cons.inj same).1

theorem of_mem_chars {a : CellAddress} {c : Char} (mem : c ∈ a.chars) :
    isBlank c = false ∧ c ≠ ':' := by
  have ofMark : ∀ isAbsolute, c ∈ mark isAbsolute → isBlank c = false ∧ c ≠ ':' := by
    intro isAbsolute mem
    cases isAbsolute with
    | false => cases mem
    | true =>
        rw [List.mem_singleton.mp mem]
        decide
  rw [chars, List.mem_append, List.mem_append, List.mem_append] at mem
  rcases mem with ((mem | mem) | mem) | mem
  · exact ofMark _ mem
  · obtain ⟨k, small, rfl⟩ := Column.exists_letter_of_mem_letters mem
    obtain ⟨-, -, noBlank, noColon, -⟩ := Column.letter_spec k small
    exact ⟨noBlank, noColon⟩
  · exact ofMark _ mem
  · obtain ⟨d, small, rfl⟩ := Text.Numeral.exists_digit_of_mem_write mem
    obtain ⟨isDigit, -, noBlank, -⟩ := Text.Numeral.digit_spec d small
    refine ⟨noBlank, fun colon => ?_⟩
    rw [colon] at isDigit
    exact absurd isDigit (by decide)

/-- An address as it is spelled: letters for its column and a number for its row, each after a `$`
if it is absolute. -/
def spelled (a : CellAddress) (letters number : List Char) : List Char :=
  mark a.colAbsolute ++ (letters ++ (mark a.rowAbsolute ++ number))

/-- The letters and the number are read as the column and the row of an address. -/
structure Spelling (a : CellAddress) (letters number : List Char) : Prop where
  /-- There are letters. -/
  nonempty : letters ≠ []
  /-- They are nothing else. -/
  isLetter : ∀ c ∈ letters, c.isAlpha = true
  /-- They are the column. -/
  column : Column.read (String.ofList letters) = .ok (a.col + 1)
  /-- The number is the row. -/
  row : Text.Numeral.unsigned? Text.Numeral.maxWord32 number = some (a.row + 1)
  /-- The cell is on the sheet. -/
  onSheet : a.OnSheet

/-- An address is read from any of its spellings. -/
theorem readTrimmed_spelled {a : CellAddress} {letters number : List Char}
    (spelling : Spelling a letters number) : readTrimmed (a.spelled letters number) = .ok a := by
  obtain ⟨row, col, rowAbsolute, colAbsolute⟩ := a
  obtain ⟨nonempty, isLetter, column, found, rowInside, colInside⟩ := spelling
  obtain ⟨l, ls, rfl⟩ := List.exists_cons_of_ne_nil nonempty
  obtain ⟨d, ds, rfl, noLetter, noMark⟩ := Text.Numeral.exists_of_unsigned? found
  simp only [maxRows, maxColumns] at rowInside colInside
  -- The letters end before the second mark or the number.
  have stop : ∀ c ∈ (mark rowAbsolute ++ d :: ds).head?, c.isAlpha = false := by
    intro c mem
    cases rowAbsolute with
    | true =>
        cases mem
        decide
    | false =>
        cases mem
        exact noLetter
  have first : ∀ c ∈ (l :: ls ++ (mark rowAbsolute ++ d :: ds)).head?, c ≠ '$' := by
    intro c mem
    cases mem
    rintro rfl
    exact absurd (isLetter '$' List.mem_cons_self) (by decide)
  have second : ∀ c ∈ (d :: ds).head?, c ≠ '$' := by
    intro c mem
    cases mem
    exact noMark
  have some : (mark colAbsolute ++ (l :: ls ++ (mark rowAbsolute ++ d :: ds))).isEmpty = false := by
    simp
  rw [readTrimmed, spelled]
  simp only [some, takeMark_mark colAbsolute first, Xml.takeWhile_append_of_stop isLetter stop,
    Xml.dropWhile_append_of_stop isLetter stop, takeMark_mark rowAbsolute second, column, found,
    List.isEmpty_cons, Bool.false_eq_true, if_false, maxRows, maxColumns]
  rw [if_neg (Nat.succ_ne_zero row), if_neg (by omega), if_neg (by omega)]
  rfl

theorem takeMark_eq {cs rest : List Char} {isAbsolute : Bool}
    (taken : takeMark cs = (isAbsolute, rest)) : cs = mark isAbsolute ++ rest := by
  unfold takeMark at taken
  split at taken
  · cases taken
    rfl
  · cases taken
    rfl

theorem of_guard {α : Type} {p : Prop} [Decidable p] {fault : ReferenceError}
    {x : Except ReferenceError α} {a : α} (h : (if p then .error fault else x) = .ok a) :
    ¬ p ∧ x = .ok a := by
  split at h
  · cases h
  · exact ⟨by assumption, h⟩

/-- What is read as an address is one of its spellings. -/
theorem exists_of_readTrimmed {cs : List Char} {a : CellAddress} (h : readTrimmed cs = .ok a) :
    ∃ letters number, cs = a.spelled letters number ∧ Spelling a letters number := by
  rw [readTrimmed] at h
  obtain ⟨⟨colAbsolute, cs'⟩, first⟩ : ∃ taken, takeMark cs = taken := ⟨_, rfl⟩
  obtain ⟨⟨rowAbsolute, number⟩, second⟩ : ∃ taken, takeMark (cs'.dropWhile Char.isAlpha) = taken :=
    ⟨_, rfl⟩
  simp only [first, second] at h
  obtain ⟨-, h⟩ := of_guard h
  obtain ⟨nonempty, h⟩ := of_guard h
  cases column : Column.read (String.ofList (cs'.takeWhile Char.isAlpha)) with
  | error fault =>
      rw [column] at h
      cases h
  | ok col =>
      simp only [column] at h
      obtain ⟨-, h⟩ := of_guard h
      cases found : Text.Numeral.unsigned? Text.Numeral.maxWord32 number with
      | none =>
          rw [found] at h
          cases h
      | some row =>
          simp only [found] at h
          obtain ⟨positive, h⟩ := of_guard h
          obtain ⟨rowInside, h⟩ := of_guard h
          obtain ⟨colInside, h⟩ := of_guard h
          cases h
          have colPositive := Column.pos_of_read column
          have rowPositive := Nat.one_le_iff_ne_zero.mpr positive
          refine ⟨cs'.takeWhile Char.isAlpha, number, ?_, ?_⟩
          · rw [spelled, ← takeMark_eq second, List.takeWhile_append_dropWhile, ← takeMark_eq first]
          · refine ⟨by simpa using nonempty, List.all_eq_true.mp List.all_takeWhile, ?_, ?_, ?_⟩
            · rw [Nat.sub_add_cancel colPositive, column]
            · rw [Nat.sub_add_cancel rowPositive, found]
            · exact ⟨Nat.sub_one_lt_of_le rowPositive (Nat.le_of_not_lt rowInside),
                Nat.sub_one_lt_of_le colPositive (Nat.le_of_not_lt colInside)⟩

/-- An address on a sheet is read back from its text. -/
theorem readTrimmed_chars {a : CellAddress} (onSheet : a.OnSheet) :
    readTrimmed a.chars = .ok a := by
  obtain ⟨rowInside, colInside⟩ := And.intro onSheet.row onSheet.col
  simp only [maxRows, maxColumns] at rowInside colInside
  have small : a.col + 1 ≤ Text.Numeral.maxWord32 ∧ a.row + 1 ≤ Text.Numeral.maxWord32 := by
    simp only [Text.Numeral.maxWord32]
    omega
  have spelling : Spelling a (Column.letters (a.col + 1)) (Text.Numeral.write (a.row + 1)) :=
    ⟨Column.letters_ne_nil (Nat.succ_ne_zero _), fun _ => Column.isAlpha_of_mem_letters,
      Column.read_letters (Nat.succ_ne_zero _) small.1, Text.Numeral.unsigned?_write small.2,
      onSheet⟩
  have written : a.chars =
      a.spelled (Column.letters (a.col + 1)) (Text.Numeral.write (a.row + 1)) := by
    simp only [chars, spelled, List.append_assoc]
  rw [written, readTrimmed_spelled spelling]

theorem onSheet_of_readTrimmed {cs : List Char} {a : CellAddress} (h : readTrimmed cs = .ok a) :
    a.OnSheet := by
  obtain ⟨letters, number, -, spelling⟩ := exists_of_readTrimmed h
  exact spelling.onSheet

/-- A cell of a sheet is read back from its label. -/
theorem read_label {row col : Nat} (rowPositive : 0 < row) (rowInside : row ≤ maxRows)
    (colPositive : 0 < col) (colInside : col ≤ maxColumns) :
    read (label row col) = .ok (relative (row - 1) (col - 1)) := by
  have onSheet : (relative (row - 1) (col - 1)).OnSheet :=
    ⟨Nat.sub_one_lt_of_le rowPositive rowInside, Nat.sub_one_lt_of_le colPositive colInside⟩
  have written : (label row col).toList = (relative (row - 1) (col - 1)).chars := by
    rw [label, String.toList_ofList]
    simp [chars, relative, mark, Nat.sub_add_cancel rowPositive, Nat.sub_add_cancel colPositive]
  rw [read, written, Text.trim_of_none fun c mem => (of_mem_chars mem).1,
    readTrimmed_chars onSheet]

/-- Two cells of a sheet have different labels. -/
theorem label_inj {row col row' col' : Nat} (rowInside : 1 ≤ row ∧ row ≤ maxRows)
    (colInside : 1 ≤ col ∧ col ≤ maxColumns) (rowInside' : 1 ≤ row' ∧ row' ≤ maxRows)
    (colInside' : 1 ≤ col' ∧ col' ≤ maxColumns) (same : label row col = label row' col') :
    row = row' ∧ col = col' := by
  have address := read_label rowInside.1 rowInside.2 colInside.1 colInside.2
  rw [same, read_label rowInside'.1 rowInside'.2 colInside'.1 colInside'.2] at address
  have rows := congrArg CellAddress.row (Except.ok.inj address)
  have cols := congrArg CellAddress.col (Except.ok.inj address)
  simp only [relative] at rows cols
  omega

theorem clamp_of_le {last n : Nat} (inside : n ≤ last) : clamp last n = n := if_pos inside

theorem clamp_le (last n : Nat) : clamp last n ≤ last := by
  rw [clamp]
  split
  · assumption
  · exact Nat.le_refl _

theorem clamp_le_self (last n : Nat) : clamp last n ≤ n := by
  rw [clamp]
  split
  · exact Nat.le_refl n
  · omega

theorem le_clamp {last m n : Nat} (inside : m ≤ last) (le : m ≤ n) : m ≤ clamp last n := by
  rw [clamp]
  split
  · exact le
  · exact inside

theorem clamp_le_clamp {last m n : Nat} (le : m ≤ n) : clamp last m ≤ clamp last n := by
  rw [clamp, clamp]
  split
  · split
    · exact le
    · assumption
  · exact Nat.le_of_eq (if_neg (by omega)).symm

theorem onSheet_relocate (a : CellAddress) (row col : Nat) : (a.relocate row col).OnSheet where
  row := Nat.lt_of_le_of_lt (clamp_le ..) (by decide)
  col := Nat.lt_of_le_of_lt (clamp_le ..) (by decide)

/-- An address goes where it is sent if that is on the sheet. -/
theorem relocate_of_inside {a : CellAddress} {row col : Nat} (rowInside : row < maxRows)
    (colInside : col < maxColumns) : a.relocate row col = { a with row := row, col := col } := by
  rw [relocate, clamp_of_le (Nat.le_sub_one_of_lt rowInside),
    clamp_of_le (Nat.le_sub_one_of_lt colInside)]

end CellAddress

/-! ## Ranges -/

namespace CellRange

/-- A range as it is read: its corners are on the sheet and in order, and one that is written as one
address has one corner. -/
structure WellFormed (r : CellRange) : Prop where
  /-- The first corner is on the sheet. -/
  start : r.start.OnSheet
  /-- The last corner is on the sheet. -/
  stop : r.stop.OnSheet
  /-- The first row is not below the last one. -/
  rows : r.start.row ≤ r.stop.row
  /-- The first column is not right of the last one. -/
  cols : r.start.col ≤ r.stop.col
  /-- One address names one cell. -/
  single : r.single = true → r.start = r.stop

theorem sorted (m n : Nat) :
    (if m ≤ n then (m, n) else (n, m)).1 ≤ (if m ≤ n then (m, n) else (n, m)).2 := by
  split
  · assumption
  · exact Nat.le_of_not_le (by assumption)

theorem wellFormed_between (a b : CellAddress) : (between a b).WellFormed where
  start := CellAddress.onSheet_relocate ..
  stop := CellAddress.onSheet_relocate ..
  rows := CellAddress.clamp_le_clamp (sorted a.row b.row)
  cols := CellAddress.clamp_le_clamp (sorted a.col b.col)
  single := fun single => by cases single

/-- Corners that are in order and on the sheet stay where they are. -/
theorem between_of_le {a b : CellAddress} (first : a.OnSheet) (second : b.OnSheet)
    (rows : a.row ≤ b.row) (cols : a.col ≤ b.col) : between a b = ⟨a, b, false⟩ := by
  obtain ⟨aRow, aCol, _, _⟩ := a
  obtain ⟨bRow, bCol, _, _⟩ := b
  have limits := And.intro first.row (And.intro first.col (And.intro second.row second.col))
  simp only [maxRows, maxColumns] at limits rows cols
  simp only [between, if_pos rows, if_pos cols, CellAddress.relocate, maxRows, maxColumns]
  rw [CellAddress.clamp_of_le (by omega), CellAddress.clamp_of_le (by omega),
    CellAddress.clamp_of_le (by omega), CellAddress.clamp_of_le (by omega)]

/-- Reading gives well-formed ranges only. -/
theorem wellFormed_of_read {text : String} {r : CellRange} (h : read text = .ok r) :
    r.WellFormed := by
  rw [read, readChars] at h
  split at h
  · split at h
    · cases h
      exact wellFormed_between ..
    · cases h
  · split at h
    · rename_i a found
      cases h
      have onSheet := CellAddress.onSheet_of_readTrimmed found
      exact ⟨onSheet, onSheet, Nat.le_refl _, Nat.le_refl _, fun _ => rfl⟩
    · cases h

/-- Moving a range gives a well-formed one, wherever it goes. -/
theorem wellFormed_relocate (r : CellRange) (startRow startCol stopRow stopCol : Nat) :
    (r.relocate startRow startCol stopRow stopCol).WellFormed := by
  have moved := wellFormed_between (r.start.relocate startRow startCol)
    (r.stop.relocate stopRow stopCol)
  refine ⟨moved.start, moved.stop, moved.rows, moved.cols, fun single => ?_⟩
  have both : (r.single && _ == _) = true := single
  exact eq_of_beq (Bool.and_eq_true_iff.mp both).2

/-- The corners of a range that is sent somewhere in order go where they are sent, but not beyond
the sheet. -/
theorem corners_relocate (r : CellRange) {startRow startCol stopRow stopCol : Nat}
    (rows : startRow ≤ stopRow) (cols : startCol ≤ stopCol) :
    (r.relocate startRow startCol stopRow stopCol).start = r.start.relocate startRow startCol ∧
      (r.relocate startRow startCol stopRow stopCol).stop = r.stop.relocate stopRow stopCol := by
  have corners : between (r.start.relocate startRow startCol) (r.stop.relocate stopRow stopCol) =
      ⟨r.start.relocate startRow startCol, r.stop.relocate stopRow stopCol, false⟩ :=
    between_of_le (r.start.onSheet_relocate ..) (r.stop.onSheet_relocate ..)
      (CellAddress.clamp_le_clamp rows) (CellAddress.clamp_le_clamp cols)
  rw [relocate, corners]
  exact ⟨rfl, rfl⟩

/-- A range starts where it is sent if that is on the sheet. -/
theorem start_relocate (r : CellRange) {startRow startCol stopRow stopCol : Nat}
    (rows : startRow ≤ stopRow) (cols : startCol ≤ stopCol) (rowInside : startRow < maxRows)
    (colInside : startCol < maxColumns) :
    (r.relocate startRow startCol stopRow stopCol).start =
      { r.start with row := startRow, col := startCol } := by
  rw [(r.corners_relocate rows cols).1, CellAddress.relocate_of_inside rowInside colInside]

/-- A range goes where it is sent if that is on the sheet. -/
theorem relocate_of_onSheet (r : CellRange) {startRow startCol stopRow stopCol : Nat}
    (rows : startRow ≤ stopRow) (cols : startCol ≤ stopCol) (rowInside : stopRow < maxRows)
    (colInside : stopCol < maxColumns) :
    let moved := r.relocate startRow startCol stopRow stopCol
    moved.start.row = startRow ∧ moved.start.col = startCol ∧
      moved.stop.row = stopRow ∧ moved.stop.col = stopCol := by
  intro moved
  obtain ⟨first, last⟩ := r.corners_relocate rows cols
  rw [CellAddress.relocate_of_inside (Nat.lt_of_le_of_lt rows rowInside)
    (Nat.lt_of_le_of_lt cols colInside)] at first
  rw [CellAddress.relocate_of_inside rowInside colInside] at last
  rw [show moved.start = _ from first, show moved.stop = _ from last]
  exact ⟨rfl, rfl, rfl, rfl⟩

/-- A range that is sent where it is stays. -/
theorem relocate_self {r : CellRange} (wellFormed : r.WellFormed) :
    r.relocate r.start.row r.start.col r.stop.row r.stop.col = r := by
  obtain ⟨start, stop, single⟩ := r
  obtain ⟨first, second, rows, cols, same⟩ := wellFormed
  have stays : ∀ a : CellAddress, a.OnSheet → a.relocate a.row a.col = a := by
    intro a onSheet
    rw [CellAddress.relocate_of_inside onSheet.row onSheet.col]
  simp only [relocate, stays start first, stays stop second, between_of_le first second rows cols]
  cases single with
  | false => rfl
  | true => simp [show start = stop from same rfl]

theorem splitFirst?_append {mark : Char} {cs : List Char} (absent : mark ∉ cs)
    (rest : List Char) : Text.splitFirst? mark (cs ++ mark :: rest) = some (cs, rest) := by
  induction cs with
  | nil => simp [Text.splitFirst?]
  | cons c cs ih =>
      rw [List.mem_cons, not_or] at absent
      simp [Text.splitFirst?, Ne.symm absent.1, ih absent.2]

theorem splitFirst?_of_notMem {mark : Char} {cs : List Char} (absent : mark ∉ cs) :
    Text.splitFirst? mark cs = none := by
  induction cs with
  | nil => rfl
  | cons c cs ih =>
      rw [List.mem_cons, not_or] at absent
      simp [Text.splitFirst?, Ne.symm absent.1, ih absent.2]

/-- A well-formed range is read back from its text. -/
theorem read_text {r : CellRange} (wellFormed : r.WellFormed) : read r.text = .ok r := by
  obtain ⟨start, stop, single⟩ := r
  obtain ⟨first, second, rows, cols, same⟩ := wellFormed
  have noColon : ∀ a : CellAddress, ':' ∉ a.chars :=
    fun a mem => (CellAddress.of_mem_chars mem).2 rfl
  have trimmed : ∀ a : CellAddress, Text.trim a.chars = a.chars :=
    fun a => Text.trim_of_none fun c mem => (CellAddress.of_mem_chars mem).1
  rw [read, text, String.toList_ofList, readChars]
  by_cases one : single = true
  · subst one
    cases same rfl
    have written : (⟨start, start, true⟩ : CellRange).chars = start.chars := by
      simp [chars]
    simp only [written, trimmed, splitFirst?_of_notMem (noColon start),
      CellAddress.readTrimmed_chars first]
    rfl
  · rw [Bool.not_eq_true] at one
    subst one
    have written : (⟨start, stop, false⟩ : CellRange).chars = start.chars ++ ':' :: stop.chars :=
      rfl
    have noBlank : ∀ c ∈ start.chars ++ ':' :: stop.chars, isBlank c = false := by
      intro c mem
      rcases List.mem_append.mp mem with mem | mem
      · exact (CellAddress.of_mem_chars mem).1
      · rcases List.mem_cons.mp mem with rfl | mem
        · decide
        · exact (CellAddress.of_mem_chars mem).1
    simp only [written, Text.trim_of_none noBlank, splitFirst?_append (noColon start), trimmed,
      CellAddress.readTrimmed_chars first, CellAddress.readTrimmed_chars second,
      between_of_le first second rows cols]

end CellRange

end SheetFill
