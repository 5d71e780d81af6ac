import SheetFill.SharedStrings.Table

/-!
# The growth of the table of strings

While sheets are written, the table of strings only grows: entries of the template stay, and new
strings go to the end. So an index that was handed out keeps its text, and a text keeps its index,
whatever is written later.
-/

namespace SheetFill

namespace StringTable

/-- A table from which another one comes by adding strings and counting uses. -/
structure GrowsTo (table final : StringTable) : Prop where
  /-- The part of the template is the same. -/
  document : final.document = table.document
  /-- The entries of the template are the same. -/
  entries : final.entries = table.entries
  /-- New strings come after the old ones. -/
  added : table.added <+: final.added

theorem GrowsTo.refl (table : StringTable) : table.GrowsTo table := ⟨rfl, rfl, List.prefix_rfl⟩

theorem GrowsTo.trans {first second third : StringTable} (h : first.GrowsTo second)
    (h' : second.GrowsTo third) : first.GrowsTo third :=
  ⟨h'.document.trans h.document, h'.entries.trans h.entries, h.added.trans h'.added⟩

theorem growsTo_intern (table : StringTable) (text : String) :
    table.GrowsTo (table.intern text).2 := by
  rw [intern]
  split
  · exact GrowsTo.refl table
  · exact ⟨rfl, rfl, List.prefix_append ..⟩

theorem growsTo_countUse (table : StringTable) : table.GrowsTo table.countUse :=
  ⟨rfl, rfl, List.prefix_rfl⟩

/-! ## Indices -/

theorem mem_added_intern (table : StringTable) (text : String) :
    text ∈ (table.intern text).2.added := by
  rw [intern]
  split
  · rename_i old
    exact List.idxOf_lt_length_iff.mp old
  · exact List.mem_append_right _ (List.mem_singleton_self text)

theorem idxOf_added_intern (table : StringTable) (text : String) :
    (table.intern text).2.added.idxOf text = table.added.idxOf text := by
  rw [intern]
  split
  · rfl
  · rename_i new
    have absent : text ∉ table.added := fun mem => new (List.idxOf_lt_length_iff.mpr mem)
    show (table.added ++ [text]).idxOf text = table.added.idxOf text
    rw [List.idxOf_append, if_neg absent, List.idxOf_eq_length absent, List.idxOf_cons_self,
      Nat.zero_add]

/-- A text keeps the index that it was given. -/
theorem GrowsTo.intern_fst {table final : StringTable} {text : String}
    (h : (table.intern text).2.GrowsTo final) :
    (final.intern text).1 = (table.intern text).1 := by
  obtain ⟨more, added⟩ := h.added
  have place : final.added.idxOf text = table.added.idxOf text := by
    rw [← added, List.idxOf_append, if_pos (mem_added_intern table text), idxOf_added_intern]
  have entries : final.entries = table.entries :=
    h.entries.trans (growsTo_intern table text).entries
  show final.entries.length + final.added.idxOf text = _
  rw [place, entries]
  rfl

theorem GrowsTo.mem_added {table final : StringTable} {text : String}
    (h : (table.intern text).2.GrowsTo final) : text ∈ final.added :=
  h.added.subset (mem_added_intern table text)

end StringTable

end SheetFill
