import SheetFill.Proofs.Reference.RoundTrip

/-!
# Ranges that are moved

A range is read, or built from addresses on the sheet, and then moved any number of times
(`Obtained`). A move may send it anywhere, also out of the sheet and with its corners in another
order. Each step gives a well-formed range, so every range that is obtained is one, and it is read
back from its text (`obtained_readBack`).
-/

namespace SheetFill

/-- An address on the sheet is read back from its text. -/
theorem CellAddress.read_text {a : CellAddress} (onSheet : a.OnSheet) :
    read a.text = .ok a := by
  rw [read, text, String.toList_ofList, Text.trim_of_none fun c mem => (of_mem_chars mem).1,
    readTrimmed_chars onSheet]

namespace CellRange

theorem wellFormed_ofCell {a : CellAddress} (onSheet : a.OnSheet) : (ofCell a).WellFormed where
  start := onSheet
  stop := onSheet
  rows := Nat.le_refl _
  cols := Nat.le_refl _
  single := fun _ => rfl

/-- The ranges that come from a text or from addresses on the sheet, and from these by moves. -/
inductive Obtained : CellRange → Prop where
  /-- Reading a text. -/
  | read {text : String} {r : CellRange} (found : read text = .ok r) : Obtained r
  /-- Putting a range between two corners. -/
  | between {a b : CellAddress} (first : a.OnSheet) (second : b.OnSheet) : Obtained (between a b)
  /-- Taking one cell. -/
  | ofCell {a : CellAddress} (onSheet : a.OnSheet) : Obtained (ofCell a)
  /-- Sending the corners anywhere. -/
  | relocate {r : CellRange} (obtained : Obtained r) (startRow startCol stopRow stopCol : Nat) :
      Obtained (r.relocate startRow startCol stopRow stopCol)

/-- Moves keep ranges well-formed, by induction on how the range was obtained. -/
theorem Obtained.wellFormed {r : CellRange} (obtained : Obtained r) : r.WellFormed := by
  induction obtained with
  | read found => exact wellFormed_of_read found
  | between _ _ => exact wellFormed_between ..
  | ofCell onSheet => exact wellFormed_ofCell onSheet
  | relocate _ startRow startCol stopRow stopCol _ =>
      exact wellFormed_relocate _ startRow startCol stopRow stopCol

/-- A range that was read or built on the sheet, and moved any number of times, is on the sheet with
its corners in order, and has one corner if it is one address. It is read back from its text as it
is. So is every address on the sheet. -/
theorem obtained_readBack :
    (∀ r, Obtained r → r.WellFormed ∧ read r.text = .ok r) ∧
      ∀ a : CellAddress, a.OnSheet → CellAddress.read a.text = .ok a :=
  ⟨fun _ obtained => ⟨obtained.wellFormed, read_text obtained.wellFormed⟩,
    fun _ onSheet => CellAddress.read_text onSheet⟩

/-- A range from its last corner to its first, which is sent out of the sheet with its columns
exchanged, and the corner where it ends. -/
theorem obtained_readBack_movedOut :
    ∃ r, read " $c$3 : B2" = .ok r ∧ r.text = "$B$2:C3" ∧
      (r.relocate 9 5 2000000 1).text = "$B$10:F1048576" ∧
      (r.relocate 9 5 2000000 1).WellFormed ∧
      read "$B$10:F1048576" = .ok (r.relocate 9 5 2000000 1) ∧
      CellAddress.read (CellAddress.relative 1048575 5).text =
        .ok (CellAddress.relative 1048575 5) := by
  have found : read " $c$3 : B2" = .ok ⟨⟨1, 1, true, true⟩, ⟨2, 2, false, false⟩, false⟩ := rfl
  have written : (relocate ⟨⟨1, 1, true, true⟩, ⟨2, 2, false, false⟩, false⟩ 9 5 2000000 1).text =
      "$B$10:F1048576" := by decide +kernel
  obtain ⟨ranges, addresses⟩ := obtained_readBack
  obtain ⟨wellFormed, back⟩ := ranges _ ((Obtained.read found).relocate 9 5 2000000 1)
  rw [written] at back
  exact ⟨_, found, by decide +kernel, written, wellFormed, back, addresses _ ⟨by decide, by decide⟩⟩

end CellRange

end SheetFill
