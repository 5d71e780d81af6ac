import SheetFill.Proofs.Text.Blanks
import SheetFill.Text.Numeral

/-!
# Reading numbers that were written

The digits of a number are one or more, spell that number and have no blanks among them, and zeros
in front of them change nothing (`readFrom_padded`). A number that is read may have a plus sign in
front of its digits (`unsigned?_eq_some_iff`).
-/

namespace SheetFill.Text.Numeral

theorem digit_spec : ∀ n < 10, (digit n).isDigit = true ∧ value (digit n) = n ∧
    isBlank (digit n) = false ∧ digit n ≠ '+' := by
  decide

theorem readFrom_append (n : Nat) (cs ds : List Char) :
    readFrom n (cs ++ ds) = readFrom (readFrom n cs) ds := List.foldl_append

theorem write_ne_nil (n : Nat) : write n ≠ [] := by
  rw [write]
  split
  · exact List.cons_ne_nil _ _
  · exact List.append_ne_nil_of_right_ne_nil _ (List.cons_ne_nil _ _)

theorem exists_digit_of_mem_write {n : Nat} {c : Char} (mem : c ∈ write n) :
    ∃ d < 10, c = digit d := by
  induction n using write.induct with
  | case1 n small =>
      rw [write, if_pos small] at mem
      exact ⟨n, small, List.mem_singleton.mp mem⟩
  | case2 n large ih =>
      rw [write, if_neg large] at mem
      rcases List.mem_append.mp mem with mem | mem
      · exact ih mem
      · exact ⟨n % 10, Nat.mod_lt n (by decide), List.mem_singleton.mp mem⟩

theorem readFrom_write (n : Nat) : readFrom 0 (write n) = n := by
  induction n using write.induct with
  | case1 n small =>
      rw [write, if_pos small]
      exact (Nat.zero_add _).trans (digit_spec n small).2.1
  | case2 n large ih =>
      have last := (digit_spec (n % 10) (Nat.mod_lt n (by decide))).2.1
      rw [write, if_neg large, readFrom_append, ih]
      show 10 * (n / 10) + value (digit (n % 10)) = n
      rw [last, Nat.div_add_mod]

theorem read?_eq_some_iff {cs : List Char} {n : Nat} :
    read? cs = some n ↔ cs ≠ [] ∧ (∀ c ∈ cs, c.isDigit = true) ∧ readFrom 0 cs = n := by
  rw [read?]
  split
  · rename_i empty
    simp [List.isEmpty_iff.mp empty]
  · rename_i nonempty
    rw [List.isEmpty_iff] at nonempty
    split
    · rename_i digits
      rw [List.all_eq_true] at digits
      rw [Option.some_inj]
      exact ⟨fun same => ⟨nonempty, digits, same⟩, fun h => h.2.2⟩
    · rename_i other
      rw [List.all_eq_true] at other
      exact ⟨fun h => (by cases h), fun h => absurd h.2.1 other⟩

/-- A number is read back from its digits. -/
theorem read?_write (n : Nat) : read? (write n) = some n := by
  refine read?_eq_some_iff.mpr ⟨write_ne_nil n, fun c mem => ?_, readFrom_write n⟩
  obtain ⟨d, small, rfl⟩ := exists_digit_of_mem_write mem
  exact (digit_spec d small).1

/-- The digits of a number have no blanks at their ends. -/
theorem trim_write (n : Nat) : trim (write n) = write n := by
  refine trim_of_none fun c mem => ?_
  obtain ⟨d, small, rfl⟩ := exists_digit_of_mem_write mem
  exact (digit_spec d small).2.2.1

/-! ## Signs -/

/-- The plus sign of a number that has one. -/
def plusSign (signed : Bool) : List Char := if signed then ['+'] else []

/-- A number is read from digits with or without a plus sign. -/
theorem unsigned?_eq_some_iff {last n : Nat} {cs : List Char} :
    unsigned? last cs = some n ↔
      ∃ signed digits, cs = plusSign signed ++ digits ∧ read? digits = some n ∧ n ≤ last := by
  constructor
  · intro h
    unfold unsigned? at h
    rw [Option.filter_eq_some_iff, decide_eq_true_iff] at h
    obtain ⟨read, small⟩ := h
    split at read
    · exact ⟨true, _, rfl, read, small⟩
    · exact ⟨false, _, rfl, read, small⟩
  · rintro ⟨signed, digits, rfl, read, small⟩
    have kept : (read? digits).filter (· ≤ last) = some n := by
      rw [read, Option.filter_some, if_pos (decide_eq_true small)]
    cases signed with
    | true => exact kept
    | false =>
        show unsigned? last digits = some n
        rw [unsigned?, kept]
        rintro rest rfl
        exact absurd ((read?_eq_some_iff.mp read).2.1 '+' List.mem_cons_self) (by decide)

theorem unsigned?_write {last n : Nat} (small : n ≤ last) : unsigned? last (write n) = some n :=
  unsigned?_eq_some_iff.mpr ⟨false, write n, rfl, read?_write n, small⟩

/-! ## Digits with zeros in front -/

theorem length_write_le {k n : Nat} (positive : 0 < k) (small : n < Nat.pow 10 k) :
    (write n).length ≤ k := by
  induction n using write.induct generalizing k with
  | case1 n one =>
      rw [write, if_pos one]
      exact positive
  | case2 n more ih =>
      obtain ⟨k, rfl⟩ := Nat.exists_eq_add_one_of_ne_zero (Nat.ne_of_gt positive)
      have positive' : 0 < k := by
        rcases Nat.eq_zero_or_pos k with rfl | positive
        · exact absurd small more
        · exact positive
      have split : n < 10 * Nat.pow 10 k := by
        rw [Nat.mul_comm]
        exact small
      have front := ih positive' (Nat.div_lt_of_lt_mul split)
      rw [write, if_neg more, List.length_append]
      exact Nat.succ_le_succ front

theorem length_padded (width n : Nat) : (padded width n).length = max width (write n).length := by
  rw [padded, List.length_append, List.length_replicate]
  omega

theorem padded_ne_nil (width n : Nat) : padded width n ≠ [] :=
  List.append_ne_nil_of_right_ne_nil _ (write_ne_nil n)

theorem isDigit_of_mem_padded {width n : Nat} {c : Char} (mem : c ∈ padded width n) :
    c.isDigit = true := by
  rw [padded, List.mem_append, List.mem_replicate] at mem
  rcases mem with ⟨-, rfl⟩ | mem
  · rfl
  · obtain ⟨d, small, rfl⟩ := exists_digit_of_mem_write mem
    exact (digit_spec d small).1

/-- Zeros in front of a number do not count. -/
theorem readFrom_padded (width n : Nat) : readFrom 0 (padded width n) = n := by
  have zeros : ∀ k, readFrom 0 (List.replicate k '0') = 0 := by
    intro k
    induction k with
    | zero => rfl
    | succ k ih => exact ih
  rw [padded, readFrom_append, zeros, readFrom_write]

theorem isBlank_of_isDigit {c : Char} (isDigit : c.isDigit = true) : isBlank c = false := by
  have bounds : 48 ≤ c.toNat ∧ c.toNat ≤ 57 := by
    obtain ⟨low, high⟩ := Bool.and_eq_true_iff.mp isDigit
    exact ⟨of_decide_eq_true low, of_decide_eq_true high⟩
  rw [isBlank, Bool.eq_false_iff]
  simp only [ne_eq, Bool.or_eq_true, Bool.and_eq_true, decide_eq_true_iff, beq_iff_eq]
  omega

end SheetFill.Text.Numeral
