import SheetFill.Package.Basic
import SheetFill.Proofs.Xml.Accepted

/-!
# Parts of a package that was written to

Writing a part changes what is read at its path and at no other. A document that was written is read
back as it was written, with its texts merged.
-/

namespace SheetFill

open Xml

/-- A step that succeeds is followed by the next one. -/
theorem bind_of_ok {ε α β : Type} {x : Except ε α} {a : α} (h : x = .ok a) (f : α → Except ε β) :
    (x >>= f) = f a := by
  rw [h]
  rfl

/-- A step that fails is the last one. -/
theorem bind_of_error {ε α β : Type} {x : Except ε α} {e : ε} (h : x = .error e)
    (f : α → Except ε β) : (x >>= f) = .error e := by
  rw [h]
  rfl

/-- If two steps succeed, then both of them do. -/
theorem exists_of_bind {ε α β : Type} {x : Except ε α} {f : α → Except ε β} {b : β}
    (h : (x >>= f) = .ok b) : ∃ a, x = .ok a ∧ f a = .ok b := by
  cases x with
  | error e => cases h
  | ok a => exact ⟨a, rfl, h⟩

/-! ## Text in UTF-8 -/

theorem decodeText?_toUTF8 {text : String} (noMark : text.toList.head? ≠ some '\uFEFF') :
    decodeText? text.toUTF8 = some text := by
  have decoded : String.fromUTF8? text.toUTF8 = some text := dif_pos text.isValidUTF8
  rw [decodeText?, decoded, Option.map_some]
  split
  · rename_i rest start
    rw [start] at noMark
    exact absurd rfl noMark
  · rfl

theorem Xml.Document.head?_toXml (d : Document) : d.toXml.toList.head? = some '<' := by
  rw [Document.toXml, String.toList_ofList]
  obtain ⟨declaration | content, root⟩ := d
  · obtain ⟨cs, start⟩ := root.exists_chars
    rw [Document.chars, start]
    rfl
  · rfl

namespace Package

/-! ## One part and the others -/

theorem find?_writeIn_self (path : String) (content : ByteArray) (parts : List Part) :
    ∃ part, (writeIn path content parts).find? (·.path == path) = some part ∧
      part.content = content := by
  induction parts with
  | nil => exact ⟨⟨path, content, false⟩, by simp [writeIn], rfl⟩
  | cons part parts ih =>
      rw [writeIn]
      split
      · rename_i same
        exact ⟨{ part with content := content }, by simp [same], rfl⟩
      · rename_i different
        obtain ⟨written, found, same⟩ := ih
        exact ⟨written, by simp [different, found], same⟩

theorem find?_writeIn_of_ne {path other : String} (different : other ≠ path) (content : ByteArray)
    (parts : List Part) :
    (writeIn path content parts).find? (·.path == other) = parts.find? (·.path == other) := by
  induction parts with
  | nil => simp [writeIn, Ne.symm different]
  | cons part parts ih =>
      rw [writeIn]
      split
      · rename_i same
        simp [same, Ne.symm different]
      · rw [List.find?_cons, List.find?_cons, ih]

variable (p : Package) {path other : String} (text : String)

theorem contains_write_self : (p.write path text).contains path = true := by
  obtain ⟨part, found, -⟩ := find?_writeIn_self path text.toUTF8 p.parts
  rw [contains, part?, write, found]
  rfl

theorem contains_write_of_ne (different : other ≠ path) :
    (p.write path text).contains other = p.contains other := by
  rw [contains, part?, write, find?_writeIn_of_ne different]
  rfl

theorem contains_write (kept : p.contains other = true) :
    (p.write path text).contains other = true := by
  by_cases same : other = path
  · rw [same]
    exact p.contains_write_self text
  · rw [p.contains_write_of_ne text same, kept]

theorem text?_of_contains {p : Package} {path text : String} (here : p.contains path = true)
    (decoded : p.text path = .ok text) : p.text? path = .ok (some text) := by
  rw [text?, if_pos here, decoded]
  rfl

theorem text?_of_not_contains {p : Package} {path : String} (missing : ¬ p.contains path = true) :
    p.text? path = .ok none := if_neg missing

theorem contains_of_text? {p : Package} {path text : String}
    (found : p.text? path = .ok (some text)) : p.contains path = true := by
  rw [text?] at found
  split at found
  · assumption
  · cases found

theorem text_of_text? {p : Package} {path text : String} (found : p.text? path = .ok (some text)) :
    p.text path = .ok text := by
  rw [text?] at found
  split at found
  · cases decoded : p.text path with
    | error e =>
        rw [decoded] at found
        cases found
    | ok other =>
        rw [decoded] at found
        cases found
        rfl
  · cases found

theorem document_of_text {p : Package} {path text : String} {d : Document}
    (decoded : p.text path = .ok text) (read : Document.read text = .ok d) :
    p.document path = .ok d := by
  simp only [document, decoded, read]
  rfl

/-- A document is read from the text of a part. -/
theorem exists_text?_of_document {p : Package} {path : String} {d : Document}
    (read : p.document path = .ok d) :
    ∃ text, p.text? path = .ok (some text) ∧ Document.read text = .ok d := by
  have here : p.contains path = true := by
    rw [document, text, bytes] at read
    cases found : p.part? path with
    | some part => rw [contains, found, Option.isSome_some]
    | none =>
        rw [found] at read
        cases read
  rw [document] at read
  cases decoded : p.text path with
  | error e =>
      rw [decoded] at read
      cases read
  | ok text =>
      rw [decoded] at read
      refine ⟨text, text?_of_contains here decoded, ?_⟩
      cases result : Document.read text with
      | error e =>
          simp only [result] at read
          cases read
      | ok other =>
          simp only [result] at read
          cases read
          rfl

theorem text_write_of_ne (different : other ≠ path) :
    (p.write path text).text other = p.text other := by
  rw [Package.text, Package.text, bytes, bytes, part?, part?, write, find?_writeIn_of_ne different]

theorem text?_write_of_ne (different : other ≠ path) :
    (p.write path text).text? other = p.text? other := by
  rw [text?, contains_write_of_ne p text different, text_write_of_ne p text different, text?]

/-- A document that was written is the text of its part. -/
theorem text_write_toXml (path : String) (d : Document) :
    (p.write path d.toXml).text path = .ok d.toXml := by
  obtain ⟨part, found, same⟩ := find?_writeIn_self path d.toXml.toUTF8 p.parts
  have noMark : d.toXml.toList.head? ≠ some '\uFEFF' := by
    rw [d.head?_toXml]
    decide
  have decoded := decodeText?_toUTF8 noMark
  rw [Package.text, bytes, part?, write, found]
  dsimp only
  rw [same, decoded]

theorem text?_write_toXml (path : String) (d : Document) :
    (p.write path d.toXml).text? path = .ok (some d.toXml) :=
  text?_of_contains (p.contains_write_self _) (p.text_write_toXml path d)

/-! ## Packages of texts -/

/-- A package whose parts are texts. -/
def ofTexts (parts : List (String × String)) : Package :=
  ⟨parts.map fun part => ⟨part.1, part.2.toUTF8, false⟩⟩

theorem text_ofTexts {parts : List (String × String)} {path name text : String}
    (found : parts.find? (·.1 == path) = some (name, text))
    (noMark : text.toList.head? ≠ some '\uFEFF') :
    (ofTexts parts).contains path = true ∧ (ofTexts parts).text path = .ok text := by
  have here : (ofTexts parts).part? path = some ⟨name, text.toUTF8, false⟩ := by
    rw [part?, ofTexts, List.find?_map]
    exact congrArg (Option.map _) found
  refine ⟨by rw [contains, here]; rfl, ?_⟩
  simp only [Package.text, bytes, here, decodeText?_toUTF8 noMark]

end Package

end SheetFill
