import Mathlib.Data.List.Induction
import Mathlib.Data.Nat.Digits.Defs
import SheetFill.Proofs.Reference.RoundTrip

/-!
# Columns in letters and in numbers

Letters are digits from 1 to 26 of a number in base 26. There is no digit for zero, so each number
has one spelling in capitals, and reading and writing are inverse to each other
(`read_inverse_letters`).

A column that takes more than 32 bits is refused at the first letter that makes it too large. So the
number in front of a letter has 32 bits at most, and one more letter makes it larger than that, but
not larger than 64 bits (`readWordsFrom?_eq`).
-/

namespace SheetFill

/-! ## Numbers in a base -/

namespace Text.Numeral

/-- Digits that are read one after another behind a number stand for this number and the digits in
their places. -/
theorem foldl_digits (base : Nat) (digit : Char → Nat) (n : Nat) (cs : List Char) :
    cs.foldl (fun n c => n * base + digit c) n =
      n * base ^ cs.length + Nat.ofDigits base (cs.map digit).reverse := by
  induction cs generalizing n with
  | nil => simp
  | cons c cs ih =>
      rw [List.foldl_cons, ih, List.map_cons, Nat.ofDigits_reverse_cons, List.length_map,
        List.length_cons, Nat.pow_succ]
      ring

theorem readFrom_eq_ofDigits (cs : List Char) :
    readFrom 0 cs = Nat.ofDigits 10 (cs.map value).reverse := by
  simp only [readFrom, Nat.mul_comm 10]
  rw [foldl_digits, Nat.zero_mul, Nat.zero_add]

end Text.Numeral

namespace Column

open Text.Numeral (maxWord32 maxWord64)

theorem value_eq_ofDigits (cs : List Char) :
    value cs = Nat.ofDigits 26 (cs.map letterValue).reverse := by
  rw [value, valueFrom, Text.Numeral.foldl_digits, Nat.zero_mul, Nat.zero_add]

/-! ## The letters of a number that was read -/

/-- The number that letters stand for is written in their capitals. By induction from the last
letter, which is the remainder of the number. -/
theorem letters_value {cs : List Char} (isLetter : ∀ c ∈ cs, c.isAlpha = true) :
    letters (value cs) = cs.map Char.toUpper := by
  induction cs using List.reverseRecOn with
  | nil =>
      rw [value, valueFrom, List.foldl_nil, letters, if_pos rfl, List.map_nil]
  | append_singleton cs c ih =>
      rw [List.forall_mem_append, List.forall_mem_singleton] at isLetter
      obtain ⟨positive, small, capital⟩ := letterValue_spec isLetter.2
      have whole : value (cs ++ [c]) = value cs * 26 + letterValue c := valueFrom_append 0 cs [c]
      have front : (value cs * 26 + letterValue c - 1) / 26 = value cs := by omega
      have last : 65 + (value cs * 26 + letterValue c - 1) % 26 = 64 + letterValue c := by omega
      rw [whole, letters_of_ne_zero (by omega), front, last, ih isLetter.1, ← capital,
        List.map_append, List.map_singleton]

theorem letters_of_read {text : String} {n : Nat} (h : read text = .ok n) :
    String.ofList (letters n) = text.toUpper := by
  obtain ⟨-, isLetter, rfl, -⟩ := read_eq_ok_iff.mp h
  rw [letters_value isLetter, ← String.toList_map, String.ofList_toList]
  rfl

/-! ## Numbers of 64 bits -/

/-- A number that has 64 bits at most. -/
def word? (n : Nat) : Option Nat := if n ≤ maxWord64 then some n else none

theorem word?_of_le {n : Nat} (small : n ≤ maxWord64) : word? n = some n := if_pos small

/-- A difference that is not negative. -/
def minus? (m n : Nat) : Option Nat := if n ≤ m then some (m - n) else none

/-- Reading letters where every number on the way has 64 bits and is not negative, or there is no
result. -/
def readWordsFrom? (whole : String) (n : Nat) : List Char → Option (Except ReferenceError Nat)
  | [] => some (.ok n)
  | c :: cs =>
      if c.isAlpha then do
        let front ← word? (n * 26)
        let place ← minus? c.toUpper.toNat 'A'.toNat
        let digit ← word? (place + 1)
        let next ← word? (front + digit)
        if maxWord32 < next then some (.error (.hugeColumn whole)) else readWordsFrom? whole next cs
      else some (.error (.badLetter c whole))

/-- Reading a column with numbers of 64 bits. -/
def readWords? (text : String) : Option (Except ReferenceError Nat) :=
  if text.isEmpty then some (.error .noLetters) else readWordsFrom? text 0 text.toList

theorem minus?_letter {c : Char} (isLetter : c.isAlpha = true) :
    minus? c.toUpper.toNat 'A'.toNat = some (letterValue c - 1) := by
  have positive := (letterValue_spec isLetter).1
  rw [letterValue] at positive ⊢
  rw [minus?, if_pos (show 'A'.toNat ≤ c.toUpper.toNat by simp only [Char.reduceToNat]; omega),
    Nat.sub_sub]
  rfl

/-- No number on the way takes more than 64 bits, however long the text is: the one in front of each
letter has 32 bits at most. -/
theorem readWordsFrom?_eq (whole : String) {n : Nat} (small : n ≤ maxWord32) (cs : List Char) :
    readWordsFrom? whole n cs = some (readFrom whole n cs) := by
  induction cs generalizing n with
  | nil => rfl
  | cons c cs ih =>
      rw [readWordsFrom?, readFrom]
      by_cases isLetter : c.isAlpha = true
      · obtain ⟨positive, fits, -⟩ := letterValue_spec isLetter
        have room : n * 26 + letterValue c ≤ maxWord64 := by
          simp only [maxWord32, maxWord64] at small ⊢
          omega
        have front := word?_of_le (Nat.le_trans (Nat.le_add_right (n * 26) (letterValue c)) room)
        have digit : word? (letterValue c - 1 + 1) = some (letterValue c) := by
          rw [Nat.sub_add_cancel positive]
          exact word?_of_le (Nat.le_trans (Nat.le_add_left (letterValue c) (n * 26)) room)
        rw [if_pos isLetter, if_pos isLetter]
        simp only [front, minus?_letter isLetter, digit, word?_of_le room, Option.bind_eq_bind,
          Option.bind_some]
        split
        · rfl
        · rename_i fits
          exact ih (Nat.le_of_not_lt fits)
      · rw [if_neg isLetter, if_neg isLetter]

theorem readWords?_eq (text : String) : readWords? text = some (read text) := by
  rw [readWords?, read]
  split
  · rfl
  · exact readWordsFrom?_eq text (Nat.zero_le _) text.toList

/-! ## Reading and writing -/

/-- Reading a column and writing one are inverse to each other. A column of 32 bits is read from its
letters. A text is read if it has letters and nothing else, and if their number in base 26 takes 32
bits at most; the letters of this number are the text in capitals. Numbers of 64 bits are enough for
a text of any length. -/
theorem read_inverse_letters :
    (∀ n, 1 ≤ n → n ≤ maxWord32 → read (String.ofList (letters n)) = .ok n) ∧
      (∀ text n, read text = .ok n ↔
        text ≠ "" ∧ (∀ c ∈ text.toList, c.isAlpha = true) ∧
          Nat.ofDigits 26 (text.toList.map letterValue).reverse = n ∧ n ≤ maxWord32) ∧
      (∀ text n, read text = .ok n → String.ofList (letters n) = text.toUpper) ∧
      ∀ text, readWords? text = some (read text) := by
  refine ⟨fun n positive small => ?_, fun text n => ?_, fun text n h => ?_, readWords?_eq⟩
  · exact read_letters (Nat.one_le_iff_ne_zero.mp positive) small
  · rw [read_eq_ok_iff, value_eq_ofDigits]
  · exact letters_of_read h

/-- The largest column of 32 bits in letters of both cases. -/
theorem read_inverse_letters_largest :
    letters maxWord32 = "MWLQKWU".toList ∧ read "mwLqKwU" = .ok maxWord32 ∧
      String.ofList (letters maxWord32) = "mwLqKwU".toUpper ∧
      read (String.ofList (letters maxWord32)) = .ok maxWord32 := by
  have found : read "mwLqKwU" = .ok maxWord32 := by decide +kernel
  obtain ⟨back, -, capitals, -⟩ := read_inverse_letters
  exact ⟨by decide +kernel, found, capitals _ _ found, back _ (by decide) (by decide)⟩

example : read "MWLQKWV" = .error (.hugeColumn "MWLQKWV") := by decide +kernel

end Column

end SheetFill
